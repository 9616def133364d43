import StackSeq.Op

/-!
# Programs

A program is a list of operations. Its text is the tokens of all operations in a row, and a
branch skips slots of that text: `branchTarget` is the operation at which a run goes on, the first
one that starts at or after the skipped slots. A branch that lands between `bgtz` and its offset
goes on after the pair.
-/

namespace StackSeq

/-- A program of the stack language. -/
structure Program where
  code : List Op
deriving DecidableEq

/-- The text of a list of operations, one space apart. -/
def opsText (ops : List Op) : String :=
  Text.join " " (ops.map Op.text)

/-- How many operations a skip of `slots` slots passes over. -/
def opsSkipped : List Op → (slots : Nat) → Nat
  | [], _ => 0
  | _ :: _, 0 => 0
  | op :: rest, slots + 1 => 1 + opsSkipped rest (slots + 1 - op.width)

@[simp] theorem opsSkipped_zero (ops : List Op) : opsSkipped ops 0 = 0 := by
  cases ops <;> rfl

theorem opsSkipped_le (ops : List Op) (slots : Nat) : opsSkipped ops slots ≤ ops.length := by
  fun_induction opsSkipped ops slots with
  | case1 => exact Nat.le_refl _
  | case2 => exact Nat.zero_le _
  | case3 op rest slots ih => rw [List.length_cons]; omega

namespace Program

/-- The number of operations. -/
def length (p : Program) : Nat :=
  p.code.length

/-- The text of the program. -/
def text (p : Program) : String :=
  opsText p.code

/-- The slots that all operations fill together. -/
def width (p : Program) : Nat :=
  p.code.foldr (fun op slots => op.width + slots) 0

/-- The operation at which a run goes on after the branch at `index` skips `slots` slots. The
length of the program and all beyond it mean that the run is over. -/
def branchTarget (p : Program) (index slots : Nat) : Nat :=
  index + 1 + opsSkipped (p.code.drop (index + 1)) slots

theorem lt_branchTarget (p : Program) (index slots : Nat) : index < p.branchTarget index slots := by
  unfold branchTarget
  omega

theorem branchTarget_le {p : Program} {index : Nat} (h : index < p.length) (slots : Nat) :
    p.branchTarget index slots ≤ p.length := by
  have := opsSkipped_le (p.code.drop (index + 1)) slots
  simp only [length, branchTarget, List.length_drop] at *
  omega

/-! ## Listing -/

/-- The right column of a listing: the operation, and for a branch where it leads. -/
def listingEntry (p : Program) (index : Nat) (op : Op) : String :=
  match op with
  | .bgtz offset =>
    let target := p.branchTarget index offset.toNat
    op.text ++ " → " ++ if p.length ≤ target then "end" else toString target
  | _ => op.text

/-- The program line by line, each operation with its index. -/
def listing (p : Program) : String :=
  String.join <| p.code.mapIdx fun index op =>
    Text.padLeft 3 (toString index) ++ " | " ++ p.listingEntry index op ++ "\n"

/-- The text, the number of operations and the listing, as shown to a reader. -/
def overview (p : Program) : String :=
  "--- " ++ p.text ++ " ---\nOpcodes: " ++ toString p.length ++ "\n\n" ++ p.listing ++ "\n"

end Program

end StackSeq
