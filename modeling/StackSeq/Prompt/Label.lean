/-!
# Choice labels

Choices are named by letters: `A` to `Z`, then `BA`, `BB` and so on. A label is a number in base 26
with the digits `A` to `Z`, `A` being zero. Reading a label accepts any run of these letters whose
value is below 2^64.
-/

namespace StackSeq.Label

/-- The letter of a digit below 26. -/
def letter (d : Nat) : Char := Char.ofNat (0x41 + d)

/-- The digit of a letter. -/
def digit? (c : Char) : Option Nat :=
  if 0x41 ≤ c.toNat ∧ c.toNat ≤ 0x5A then some (c.toNat - 0x41) else none

theorem digit?_letter {d : Nat} (h : d < 26) : digit? (letter d) = some d := by
  have all : ∀ e ∈ List.range 26, digit? (letter e) = some e := by decide
  exact all d (List.mem_range.2 h)

/-- The letters of the label of a choice. -/
def letters (index : Nat) : List Char :=
  if index < 26 then [letter index] else letters (index / 26) ++ [letter (index % 26)]
termination_by index
decreasing_by exact Nat.div_lt_self (by omega) (by omega)

/-- The label of a choice. -/
def ofIndex (index : Nat) : String := String.ofList (letters index)

/-- The value of letters that follow letters of the value `high`. -/
def valueFrom? (high : Nat) : List Char → Option Nat
  | [] => some high
  | c :: rest =>
    (digit? c).bind fun d =>
      if high * 26 + d < 0x1_0000_0000_0000_0000 then valueFrom? (high * 26 + d) rest else none

/-- The choice that a run of letters names. -/
def index? (cs : List Char) : Option Nat :=
  if cs = [] then none else valueFrom? 0 cs

end StackSeq.Label
