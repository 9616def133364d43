import Mathlib.Data.List.Nodup
import StackSeq.Problem.Token
import StackSeq.Proofs.Sequence.Growth

/-!
# The right answer to a problem

`Rules` are the rules of a problem apart from the order in which they are checked, and
`check_eq_ok_iff` says that the check passes if all are kept.

The choices of a problem are distinct sequences of one length, so the pattern reproduces at most one
of those that begin alike (`Rules.eq_correct`): a foil with the seed of the correct sequence is
no answer (`foil_not_grown`). The rules do not ask for that seed. A foil with a seed of its own may
be another right answer, and where the check asks for another program it takes the same identifier
in capitals for one (`not_foil_not_grown`).
-/

namespace StackSeq.Problem

variable {p : Problem}

/-! ## The rules -/

/-- The sequences to choose from. -/
def choices (p : Problem) : List Sequence := p.correct :: p.foils.map Foil.sequence

/-- What is asked of a foil: an identifier other than the pattern's, of a program that grows the
foil and all examples. -/
def FoilRules (p : Problem) (foil : Foil) : Prop :=
  foil.source ≠ p.program ∧ ∃ source, Program.ofIdentifier foil.source = .ok source ∧
    source.reproduces foil.sequence p.seedLen.toNat = true ∧
    ∀ terms ∈ p.examples, source.reproduces terms p.seedLen.toNat = true

/-- The rules of a problem whose hidden program is `pattern`. -/
structure Rules (p : Problem) (pattern : Program) : Prop where
  pattern_eq : p.pattern = .ok pattern
  seedLen_lt : p.seedLen.toNat < p.correct.length
  length_of_mem_examples : ∀ terms ∈ p.examples, terms.length = p.correct.length
  length_of_mem_foils : ∀ foil ∈ p.foils, foil.sequence.length = p.correct.length
  nodup_choices : p.choices.Nodup
  reproduces_examples : ∀ terms ∈ p.examples, pattern.reproduces terms p.seedLen.toNat = true
  reproduces_correct : pattern.reproduces p.correct p.seedLen.toNat = true
  foilRules : ∀ foil ∈ p.foils, p.FoilRules foil

theorem duplicate?_eq_none_iff {seen : List Sequence} {foils : List Foil} :
    duplicate? seen foils = none ↔
      (foils.map Foil.sequence).Nodup ∧ ∀ foil ∈ foils, foil.sequence ∉ seen := by
  induction foils generalizing seen with
  | nil => simp [duplicate?]
  | cons foil rest ih =>
    rw [duplicate?, List.map_cons, List.nodup_cons, List.forall_mem_cons]
    split
    · next hseen => simp [hseen]
    · next hnew =>
      rw [ih]
      simp only [List.mem_cons, not_or, List.mem_map, not_exists, not_and]
      constructor
      · rintro ⟨hnodup, hall⟩
        exact ⟨⟨fun other hother => (hall other hother).1, hnodup⟩, hnew,
          fun other hother => (hall other hother).2⟩
      · rintro ⟨⟨hfirst, hnodup⟩, -, hall⟩
        exact ⟨hnodup, fun other hother => ⟨hfirst other hother, hall other hother⟩⟩

theorem checkFoil_eq_ok_iff {foil : Foil} : p.checkFoil foil = .ok () ↔ p.FoilRules foil := by
  rw [checkFoil, check_bind_eq_ok_iff, bind_eq_ok_iff]
  simp only [check_bind_eq_ok_iff, mapError_eq_ok_iff, require_eq_ok_iff, bne_iff_ne,
    List.all_eq_true]
  rfl

theorem nodup_choices_iff : p.choices.Nodup ↔ duplicate? [p.correct] p.foils = none := by
  rw [duplicate?_eq_none_iff, choices, List.nodup_cons, and_comm]
  simp only [List.mem_map, not_exists, not_and, List.mem_singleton]

/-- **The check passes exactly if the rules are kept.** -/
theorem check_eq_ok_iff : p.check = .ok () ↔ ∃ pattern, p.Rules pattern := by
  rw [check, bind_eq_ok_iff]
  simp only [check_bind_eq_ok_iff, mapError_eq_ok_iff, require_eq_ok_iff, decide_eq_true_eq,
    Bool.and_eq_true, List.all_eq_true, beq_iff_eq]
  refine exists_congr fun pattern => ⟨?_, fun h => ?_⟩
  · rintro ⟨hpattern, hgrowth, ⟨hexamples, hfoils⟩, h⟩
    split at h
    · cases h
    · next hnone =>
      simp only [check_bind_eq_ok_iff, requireAll_eq_ok_iff, require_eq_ok_iff, checkFoil_eq_ok_iff,
        List.forall_mem_append, List.forall_mem_singleton] at h
      obtain ⟨-, ⟨hgrown, hcorrect⟩, hrules⟩ := h
      exact ⟨hpattern, hgrowth, hexamples, hfoils, nodup_choices_iff.2 hnone, hgrown, hcorrect,
        hrules⟩
  · refine ⟨h.pattern_eq, h.seedLen_lt, ⟨h.length_of_mem_examples, h.length_of_mem_foils⟩, ?_⟩
    rw [nodup_choices_iff.1 h.nodup_choices]
    simp only [check_bind_eq_ok_iff, requireAll_eq_ok_iff, require_eq_ok_iff, checkFoil_eq_ok_iff,
      List.forall_mem_append, List.forall_mem_singleton]
    exact ⟨trivial, ⟨h.reproduces_examples, h.reproduces_correct⟩, h.foilRules⟩

/-! ## The answer -/

namespace Rules

variable {pattern : Program} (h : p.Rules pattern)

include h

theorem length_of_mem_choices {choice : Sequence} (hc : choice ∈ p.choices) :
    choice.length = p.correct.length := by
  rcases List.mem_cons.1 hc with rfl | hc
  · rfl
  · obtain ⟨foil, hfoil, rfl⟩ := List.mem_map.1 hc
    exact h.length_of_mem_foils foil hfoil

/-- **Of the choices that begin like the correct one, the pattern reproduces no other.** -/
theorem eq_correct {choice : Sequence} (hc : choice ∈ p.choices)
    (hseed : choice.take p.seedLen.toNat = p.correct.take p.seedLen.toNat)
    (hgrown : pattern.reproduces choice p.seedLen.toNat = true) : choice = p.correct :=
  Program.eq_of_reproduces hgrown h.reproduces_correct hseed (h.length_of_mem_choices hc)

theorem sequence_ne_correct {foil : Foil} (hf : foil ∈ p.foils) : foil.sequence ≠ p.correct := by
  intro heq
  have hnodup := h.nodup_choices
  rw [choices, List.nodup_cons] at hnodup
  exact hnodup.1 (heq ▸ List.mem_map_of_mem hf)

end Rules

/-- **No foil with the seed of the correct sequence is an answer**, in a problem that passes the
check and so in every problem of a token. -/
theorem foil_not_grown (p : Problem) (h : p.check = .ok () ∨ ∃ token, ofToken token = .ok p) :
    ∃ pattern, p.pattern = .ok pattern ∧
      pattern.extend (p.correct.take p.seedLen.toNat) p.correct.length Int64.maxValue
        = some p.correct ∧
      ∀ foil ∈ p.foils, foil.sequence.take p.seedLen.toNat = p.correct.take p.seedLen.toNat →
        pattern.extend (foil.sequence.take p.seedLen.toNat) foil.sequence.length Int64.maxValue
          ≠ some foil.sequence := by
  have hcheck : p.check = .ok () := by
    rcases h with h | ⟨token, h⟩
    · exact h
    · exact check_of_ofToken h
  obtain ⟨pattern, hrules⟩ := check_eq_ok_iff.1 hcheck
  refine ⟨pattern, hrules.pattern_eq, Program.reproduces_iff.1 hrules.reproduces_correct, ?_⟩
  intro foil hf hseed hgrown
  have hc : foil.sequence ∈ p.choices := List.mem_cons_of_mem _ (List.mem_map_of_mem hf)
  exact hrules.sequence_ne_correct hf
    (hrules.eq_correct hc hseed (Program.reproduces_iff.2 hgrown))

/-- Differences of the last two terms, and two foils that agree with them on the example. -/
theorem foil_not_grown_differences :
    let p : Problem :=
      { program := "6", seedLen := 2, examples := [[2, 1, 1, 0, 1, -1]]
        correct := [1, 2, -1, 3, -4, 7]
        foils := [⟨[1, 2, -1, 3, -4, 3], "496"⟩, ⟨[1, 2, -3, -7, -52, -2711], "a76"⟩] }
    let pattern : Program := ⟨[.binary .sub]⟩
    p.check = .ok () ∧ p.pattern = .ok pattern ∧
      ∀ foil ∈ p.foils, foil.sequence.take 2 = p.correct.take 2 ∧
        pattern.extend [1, 2] 6 Int64.maxValue ≠ some foil.sequence := by
  intro p pattern
  have hcheck : p.check = .ok () := by decide +kernel
  have hpattern : p.pattern = .ok pattern := by decide +kernel
  have hseed : ∀ foil ∈ p.foils, foil.sequence.take 2 = [1, 2] ∧ foil.sequence.length = 6 := by
    decide
  obtain ⟨pattern', hpattern', -, hfoils⟩ := foil_not_grown p (.inl hcheck)
  obtain rfl : pattern = pattern' := Except.ok.inj (hpattern.symm.trans hpattern')
  refine ⟨hcheck, hpattern, fun foil hf => ⟨(hseed foil hf).1, ?_⟩⟩
  have hne := hfoils foil hf (hseed foil hf).1
  rwa [show p.seedLen.toNat = 2 from rfl, (hseed foil hf).1, (hseed foil hf).2] at hne

/-- Doubling from one and, as a foil, doubling from two, its program being the pattern's in
capitals: both are answers. -/
theorem not_foil_not_grown :
    let p : Problem :=
      { program := "a5", seedLen := 1, examples := [[3, 6, 12]], correct := [1, 2, 4]
        foils := [⟨[2, 4, 8], "A5"⟩] }
    p.check = .ok () ∧ ¬∀ pattern, p.pattern = .ok pattern → ∀ foil ∈ p.foils,
      pattern.extend (foil.sequence.take p.seedLen.toNat) foil.sequence.length Int64.maxValue
        ≠ some foil.sequence := by
  intro p
  refine ⟨by decide +kernel, fun hall => ?_⟩
  have hpattern : p.pattern = .ok ⟨[.dup, .binary .add]⟩ := by decide +kernel
  exact hall _ hpattern ⟨[2, 4, 8], "A5"⟩ (by decide) (by decide +kernel)

end StackSeq.Problem
