import StackSeq.Proofs.Program.Enumeration
import StackSeq.Proofs.Search.Specification
import StackSeq.Proofs.Symbolic.Constancy

/-!
# Candidates

A candidate `Records` what the program with its number grows. Two that do have the same sequences if
their numbers agree on the seeds (`Records.agree_iff`, `Records.agree_seeds_iff`).

A search makes such candidates only (`records_of_candidate?`), and it makes one of every usable
number (`candidate?_eq_some_iff`, `usable_iff_exists_records`), although it leaves out some programs
without running them: those are constant.
-/

namespace StackSeq

/-- What the candidate says of its number is what the program with that number grows, and a search
is to keep it. -/
structure Candidate.Records (s : Settings) (c : Candidate) : Prop where
  primary : s.grownBy? c.index s.primarySeed = some c.primary
  examples : c.examples.map some = s.exampleSeeds.map (s.grownBy? c.index)
  kept : ¬(s.skipConstant ∧ c.primary.isConstant s.seedLen)

/-- The sequences of a candidate, the primary one first. -/
def Candidate.sequences (c : Candidate) : List Sequence := c.primary :: c.examples

/-- The candidates have the same sequences. -/
structure Candidate.Same (c c' : Candidate) : Prop where
  primary : c.primary = c'.primary
  examples : c.examples = c'.examples

namespace Candidate.Same

variable {c c' c'' : Candidate}

theorem refl (c : Candidate) : c.Same c := ⟨rfl, rfl⟩

theorem symm (h : c.Same c') : c'.Same c := ⟨h.primary.symm, h.examples.symm⟩

theorem trans (h : c.Same c') (h' : c'.Same c'') : c.Same c'' :=
  ⟨h.primary.trans h'.primary, h.examples.trans h'.examples⟩

end Candidate.Same

namespace Settings

variable {s : Settings} {n : Nat} {p : Program}

/-! ## What a program grows -/

theorem grownBy?_eq_grow? (h : Program.ofIdentifier (Program.enumerated n) = .ok p) :
    s.grownBy? n = s.grow? p := by
  funext seed
  rw [grownBy?, h, grow?]

theorem exists_program_of_grownBy? {seed grown : Sequence} (h : s.grownBy? n seed = some grown) :
    ∃ p, Program.ofIdentifier (Program.enumerated n) = .ok p := by
  unfold grownBy? at h
  split at h
  · cases h
  · next p hp => exact ⟨p, hp⟩

theorem agree_iff_map_eq {seeds : List Sequence} {m : Nat} :
    s.Agree seeds m n ↔ seeds.map (s.grownBy? m) = seeds.map (s.grownBy? n) :=
  List.map_inj_left.symm

/-- A sequence begins with the seed that a program has grown it from. -/
theorem prefix_of_grownBy? {seed grown : Sequence} (h : s.grownBy? n seed = some grown) :
    seed <+: grown := by
  obtain ⟨p, hp⟩ := exists_program_of_grownBy? h
  rw [grownBy?_eq_grow? hp] at h
  exact Program.prefix_of_extend h

end Settings

/-! ## What a candidate records -/

namespace Candidate.Records

variable {s : Settings} {c c' : Candidate} (h : c.Records s) (h' : c'.Records s) (hs : s.Accepted)

include h in
/-- Each example is grown from the seed in its place. -/
theorem forall₂_examples :
    List.Forall₂ (fun seed terms => s.grownBy? c.index seed = some terms) s.exampleSeeds
      c.examples := by
  have heq : List.Forall₂ Eq (s.exampleSeeds.map (s.grownBy? c.index)) (c.examples.map some) := by
    rw [List.forall₂_eq_eq_eq]
    exact h.examples.symm
  exact List.forall₂_map_right_iff.1 (List.forall₂_map_left_iff.1 heq)

include h hs in
/-- All sequences are grown from the seeds in order. -/
theorem map_sequences : c.sequences.map some = s.seeds.map (s.grownBy? c.index) := by
  rw [sequences, hs.seeds_eq, List.map_cons, List.map_cons, h.primary, h.examples]

include h hs in
theorem exists_seed {terms : Sequence} (hterms : terms ∈ c.sequences) :
    ∃ seed ∈ s.seeds, s.grownBy? c.index seed = some terms :=
  List.mem_map.1 (h.map_sequences hs ▸ List.mem_map_of_mem hterms)

include h h' in
theorem agree_iff : s.Agree s.exampleSeeds c.index c'.index ↔ c.examples = c'.examples := by
  rw [Settings.agree_iff_map_eq, ← h.examples, ← h'.examples]
  exact (List.map_injective_iff.2 (Option.some_injective _)).eq_iff

include h h' hs in
theorem agree_seeds_iff : s.Agree s.seeds c.index c'.index ↔ c.Same c' := by
  rw [Settings.agree_iff_map_eq, ← h.map_sequences hs, ← h'.map_sequences hs,
    (List.map_injective_iff.2 (Option.some_injective _)).eq_iff, sequences, sequences,
    List.cons.injEq]
  exact ⟨fun ⟨hprimary, hexamples⟩ => ⟨hprimary, hexamples⟩,
    fun hsame => ⟨hsame.primary, hsame.examples⟩⟩

end Candidate.Records

namespace Settings

variable {s : Settings} {n : Nat} {p : Program} {c : Candidate}

/-! ## What a search makes of a number -/

/-- A candidate is made of the program with its number, if that is run. -/
theorem candidate?_eq_some_iff_prunedOutputs? :
    s.candidate? n = some c ↔ c.index = n ∧ ∃ p,
      Program.ofIdentifier (Program.enumerated n) = .ok p ∧
        s.prunedOutputs? p = some (c.primary, c.examples) := by
  unfold candidate?
  cases Program.ofIdentifier (Program.enumerated n) with
  | error => simp
  | ok p =>
    simp only [Option.map_eq_some_iff, Except.ok.injEq, exists_eq_left']
    constructor
    · rintro ⟨⟨primary, examples⟩, h, rfl⟩
      exact ⟨rfl, h⟩
    · rintro ⟨rfl, h⟩
      exact ⟨_, h, rfl⟩

theorem index_of_candidate? (h : s.candidate? n = some c) : c.index = n :=
  (candidate?_eq_some_iff_prunedOutputs?.1 h).1

theorem records_iff (hp : Program.ofIdentifier (Program.enumerated c.index) = .ok p) :
    c.Records s ↔ s.outputs? p = some (c.primary, c.examples) := by
  rw [outputs?_eq_some_iff, ← grownBy?_eq_grow? hp]
  exact ⟨fun h => ⟨h.primary, h.kept, h.examples⟩, fun h => ⟨h.1, h.2.2, h.2.1⟩⟩

/-- **What a candidate says of its program is true.** -/
theorem records_of_candidate? (h : s.candidate? n = some c) : c.Records s := by
  obtain ⟨rfl, p, hp, hout⟩ := candidate?_eq_some_iff_prunedOutputs?.1 h
  unfold prunedOutputs? at hout
  split at hout
  · cases hout
  · exact (records_iff hp).2 hout

section Accepted

variable (hs : s.Accepted)

include hs

/-- **A search makes every candidate there is.** -/
theorem candidate?_eq_some_iff (hseed : s.seedLen < addressable) (hn : n < s.searchSize) :
    s.candidate? n = some c ↔ c.index = n ∧ c.Records s := by
  constructor
  · exact fun h => ⟨index_of_candidate? h, records_of_candidate? h⟩
  · rintro ⟨rfl, h⟩
    obtain ⟨p, hp⟩ := exists_program_of_grownBy? h.primary
    have hlength : p.length ≤ s.difficulty.toNat :=
      Program.length_le_of_enumerated hp hs.one_le_difficulty hn
    have hr : (p.explore s.originDepth.toNat).InRange :=
      inRange_of_addressable hs hseed
        (Nat.lt_of_le_of_lt (Nat.le_trans hlength hs.difficulty_le) (by decide))
    rw [candidate?_eq_some_iff_prunedOutputs?]
    exact ⟨rfl, p, hp, (prunedOutputs?_eq hr).trans ((records_iff hp).1 h)⟩

theorem usable_iff_exists_records : s.Usable n ↔ ∃ c : Candidate, c.index = n ∧ c.Records s := by
  rw [Usable, hs.seeds_eq, List.forall_mem_cons]
  constructor
  · rintro ⟨⟨hprimary, hexamples⟩, hkept⟩
    obtain ⟨primary, hprimary⟩ := Option.isSome_iff_exists.1 hprimary
    rw [hprimary, Option.any_some] at hkept
    let examples := s.exampleSeeds.map fun seed => (s.grownBy? n seed).getD []
    have hgrown : examples.map some = s.exampleSeeds.map (s.grownBy? n) := by
      rw [List.map_map]
      refine List.map_congr_left fun seed hseed => ?_
      obtain ⟨grown, hgrown⟩ := Option.isSome_iff_exists.1 (hexamples seed hseed)
      rw [Function.comp_apply, hgrown, Option.getD_some]
    exact ⟨⟨n, primary, examples⟩, rfl, hprimary, hgrown, hkept⟩
  · rintro ⟨c, rfl, h⟩
    rw [h.primary, Option.any_some]
    refine ⟨⟨rfl, fun seed hseed => ?_⟩, h.kept⟩
    obtain ⟨terms, -, hterms⟩ := List.mem_map.1 (h.examples ▸ List.mem_map_of_mem hseed)
    exact hterms ▸ rfl

end Accepted

end Settings

end StackSeq
