import StackSeq.Program
import StackSeq.Text.Numeral

/-!
# Program identifiers

A short name for a program: one hexadecimal digit for each slot.

| digits    | operation      |
|-----------|----------------|
| `0`–`4`   | push 0 … 4     |
| `5`–`9`   | `+ - * / %`    |
| `a` `b`   | `dup` `swap`   |
| `c` `d`   | `rot` `unrot`  |
| `e`       | `len`          |
| `f` and a digit | `bgtz` with that offset |

Programs with other literals or larger offsets have no identifier. Identifiers are written in
lower case and read in either. Counting in hexadecimal enumerates them: `enumerated n` is the
`n`-th.
-/

namespace StackSeq

/-- Why a text is no program identifier. -/
inductive IdentifierError where
  /-- The character at `position` is no hexadecimal digit. -/
  | invalidCharacter (id : String) (position : Nat)
  /-- The text ends in the digit of a branch without an offset. -/
  | danglingBranch (id : String)
deriving DecidableEq

/-- An operation, with its index, that keeps a program from having an identifier. -/
structure UnencodableOp where
  op : Op
  position : Nat
deriving DecidableEq

namespace IdentifierError

def diagnostic : IdentifierError → Diagnostic
  | invalidCharacter id position =>
    { kind := .decodeFailed
      message := "invalid character in program id '" ++ id ++ "'"
      operation := "hex::decode"
      details := [("id", id), ("position", toString position)] }
  | danglingBranch id =>
    { kind := .decodeFailed
      message := "program id '" ++ id ++ "' ends with a bgtz missing its offset"
      operation := "hex::decode"
      details := [("id", id)] }

end IdentifierError

namespace UnencodableOp

def diagnostic (e : UnencodableOp) : Diagnostic where
  kind := .encodeFailed
  message := "'" ++ e.op.text ++ "' has no compact encoding"
  operation := "hex::encode"
  details := [("op", e.op.text), ("position", toString e.position)]

end UnencodableOp

/-! ## Digits -/

/-- The literals with a digit of their own. -/
def isEncodableLiteral (value : Rational) : Bool :=
  value.isInteger && decide (0 ≤ value.num ∧ value.num ≤ 4)

namespace Op

/-- The operation of a digit below 15. -/
def ofDigit : Nat → Op
  | 5 => .binary .add
  | 6 => .binary .sub
  | 7 => .binary .mul
  | 8 => .binary .div
  | 9 => .binary .mod
  | 10 => .dup
  | 11 => .swap
  | 12 => .rot
  | 13 => .unrot
  | 14 => .len
  | n => .push (.ofCount n)

/-- The digits of an operation, if it has some. -/
def digits? : Op → Option (List Nat)
  | push value => if isEncodableLiteral value then some [value.num.toNat] else none
  | binary .add => some [5]
  | binary .sub => some [6]
  | binary .mul => some [7]
  | binary .div => some [8]
  | binary .mod => some [9]
  | dup => some [10]
  | swap => some [11]
  | rot => some [12]
  | unrot => some [13]
  | len => some [14]
  | bgtz offset => if offset ≤ 15 then some [15, offset.toNat] else none

theorem length_digits {op : Op} {ds : List Nat} (h : op.digits? = some ds) :
    ds.length = op.width := by
  unfold digits? at h
  split at h <;> (try split at h) <;> cases h <;> rfl

theorem digits?_ofDigit {d : Nat} (h : d < 15) : (ofDigit d).digits? = some [d] := by
  have all : ∀ e ∈ List.range 15, (ofDigit e).digits? = some [e] := by decide
  exact all d (List.mem_range.2 h)

end Op

namespace Program

/-! ## Reading -/

/-- The operations of the digits `cs`, which stand at `position` in `id`. -/
def opsOfDigits (id : String) : (position : Nat) → List Char → Except IdentifierError (List Op)
  | _, [] => .ok []
  | position, c :: rest =>
    match Text.hexValue? c with
    | none => .error (.invalidCharacter id position)
    | some 15 =>
      match rest with
      | [] => .error (.danglingBranch id)
      | k :: rest =>
        match Text.hexValue? k with
        | none => .error (.invalidCharacter id (position + 1))
        | some offset =>
          (opsOfDigits id (position + 2) rest).map (Op.bgtz (.ofNat offset) :: ·)
    | some d => (opsOfDigits id (position + 1) rest).map (Op.ofDigit d :: ·)

/-- The program with this identifier. -/
def ofIdentifier (id : String) : Except IdentifierError Program :=
  (opsOfDigits id 0 id.toList).map Program.mk

/-! ## Writing -/

/-- The digits of a list of operations, of which the first has index `position`. -/
def digitsOfOps : (position : Nat) → List Op → Except UnencodableOp (List Nat)
  | _, [] => .ok []
  | position, op :: rest =>
    match op.digits? with
    | none => .error ⟨op, position⟩
    | some ds => (digitsOfOps (position + 1) rest).map (ds ++ ·)

/-- The identifier of the program. -/
def identifier (p : Program) : Except UnencodableOp String :=
  (digitsOfOps 0 p.code).map fun ds => String.ofList (ds.map Nat.digitChar)

/-! ## Counting -/

/-- The identifier with number `n`: the number in hexadecimal, in lower case. -/
def enumerated (n : Nat) : String :=
  String.ofList (Nat.toDigits 16 n)

end Program

end StackSeq
