import Mathlib.Data.List.Forall2
import StackSeq.Search

/-!
# What a search is to find

The result of a search, said of the numbers of the enumeration and of what their programs grow, with
no order of visits, no table and no analysis: which numbers are `Usable`, which of these are
`Representative`, which of these are patterns (`patternNumbers`), and when a problem `Poses` one.
-/

namespace StackSeq.Settings

/-! ## Numbers -/

/-- The sequence that the program with this number grows from a seed. -/
def grownBy? (s : Settings) (n : Nat) (seed : Sequence) : Option Sequence :=
  match Program.ofIdentifier (Program.enumerated n) with
  | .error _ => none
  | .ok p => p.extend seed s.sequenceLen.toNat s.maxTerm

/-- The program grows a sequence from every seed, and the one from the primary seed is not to be
left out. -/
def Usable (s : Settings) (n : Nat) : Prop :=
  (∀ seed ∈ s.seeds, (s.grownBy? n seed).isSome) ∧
    ¬(s.skipConstant ∧ (s.grownBy? n s.primarySeed).any (·.isConstant s.seedLen))

/-- The programs grow the same from these seeds. -/
def Agree (s : Settings) (seeds : List Sequence) (m n : Nat) : Prop :=
  ∀ seed ∈ seeds, s.grownBy? m seed = s.grownBy? n seed

/-- No smaller number grows the same from all seeds. -/
def Representative (s : Settings) (n : Nat) : Prop :=
  s.Usable n ∧ ∀ m < n, s.Usable m → ¬s.Agree s.seeds m n

instance (s : Settings) : DecidablePred s.Usable := fun _ => instDecidableAnd

instance (s : Settings) (seeds : List Sequence) (m n : Nat) : Decidable (s.Agree seeds m n) :=
  List.decidableBAll ..

instance (s : Settings) : DecidablePred s.Representative := fun _ => instDecidableAnd

/-- The representatives of the whole enumeration in increasing order. -/
def representativeNumbers (s : Settings) : List Nat :=
  (List.range s.searchSize).filter s.Representative

/-- The representatives that grow the same from the seeds of the examples. -/
def kin (s : Settings) (n : Nat) : List Nat :=
  s.representativeNumbers.filter fun m => s.Agree s.exampleSeeds m n

/-- The patterns in increasing order: the representatives with enough others like them. -/
def patternNumbers (s : Settings) : List Nat :=
  s.representativeNumbers.filter fun n => s.choiceCount.toNat ≤ (s.kin n).length

/-! ## Problems -/

/-- The foil is what the program with this number grows from the primary seed. -/
structure Draws (s : Settings) (m : Nat) (foil : Foil) : Prop where
  source : foil.source = Program.enumerated m
  sequence : s.grownBy? m s.primarySeed = some foil.sequence

/-- The problem is one of the program with this number: its examples and its correct sequence are
what the program grows, and its foils come from different other representatives that grow the same
examples. -/
structure Poses (s : Settings) (n : Nat) (p : Problem) : Prop where
  program : p.program = Program.enumerated n
  seedLen : p.seedLen.toNat = s.seedLen
  examples : p.examples.map some = s.exampleSeeds.map (s.grownBy? n)
  correct : s.grownBy? n s.primarySeed = some p.correct
  foils : ∃ sources : List Nat, sources.Nodup ∧ (∀ m ∈ sources, m ∈ s.kin n ∧ m ≠ n) ∧
    sources.length + 1 = s.choiceCount.toNat ∧ List.Forall₂ s.Draws sources p.foils

end StackSeq.Settings
