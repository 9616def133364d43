import StackSeq.Run

/-!
# Sequences

A program defines a sequence by being run on the terms so far: the top of the final stack is the
next term. The sequence breaks off where the stack is empty, where the top has a fractional part
and where its magnitude exceeds that of a bound.
-/

namespace StackSeq

/-- The terms of a sequence, those of the seed first. -/
abbrev Sequence := List Int64

namespace Program

/-- The term after these, if there is one of a magnitude within that of `bound`. -/
def nextTerm? (p : Program) (bound : Int64) (terms : Sequence) : Option Int64 := do
  let top ← (p.evaluate (terms.map Rational.ofTerm)).getLast?
  let term ← top.toTerm?
  if term.toInt.natAbs ≤ bound.toInt.natAbs then some term else none

/-- The sequence with `count` more terms. -/
def grow (p : Program) (bound : Int64) : (count : Nat) → Sequence → Option Sequence
  | 0, terms => some terms
  | count + 1, terms =>
    (p.nextTerm? bound terms).bind fun term => p.grow bound count (terms ++ [term])

/-- The sequence that the seed grows into, with `length` terms or those of a longer seed. -/
def extend (p : Program) (seed : Sequence) (length : Nat) (bound : Int64) : Option Sequence :=
  p.grow bound (length - seed.length) seed

theorem length_grow {p : Program} {bound : Int64} {count : Nat} {terms grown : Sequence}
    (h : p.grow bound count terms = some grown) : grown.length = terms.length + count := by
  induction count generalizing terms with
  | zero => cases h; rfl
  | succ count ih =>
    obtain ⟨term, -, h⟩ := Option.bind_eq_some_iff.1 h
    have := ih h
    rw [List.length_append, List.length_singleton] at this
    omega

/-- The bound on magnitudes that excludes no term but -2^63. -/
def widestBound : Int64 := Int64.maxValue

/-- Whether the program grows the sequence from its first `seedLen` terms. -/
def reproduces (p : Program) (terms : Sequence) (seedLen : Nat) : Bool :=
  p.extend (terms.take seedLen) terms.length widestBound == some terms

end Program

namespace Sequence

/-- Whether all terms after the seed are equal. -/
def isConstant (terms : Sequence) (seedLen : Nat) : Bool :=
  match terms.drop seedLen with
  | [] => true
  | first :: rest => rest.all (· == first)

/-- The terms, one space apart. -/
def text (terms : Sequence) : String :=
  Text.join " " (terms.map fun t => toString t.toInt)

/-- The terms in brackets. -/
def bracketed (terms : Sequence) : String :=
  "[" ++ Text.join ", " (terms.map fun t => toString t.toInt) ++ "]"

end Sequence

end StackSeq
