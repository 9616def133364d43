import StackSeq.Settings

/-!
# Accepted settings

What a search may rely on once the check of its settings has passed: `accepted_of_check`. The
seeds are a primary seed and the seeds of the examples (`seeds_eq`), all of one length, and every
sequence is longer than that. The templates of the prompts have passed their own checks
(`check_templates_of_check`).
-/

namespace StackSeq.Settings

/-- The numbers of the settings are such that a search can use them. -/
structure Accepted (s : Settings) : Prop where
  one_le_difficulty : 1 ≤ s.difficulty.toNat
  difficulty_le : s.difficulty.toNat ≤ 7
  poolSize_pos : 0 < s.poolSize.toNat
  two_le_choiceCount : 2 ≤ s.choiceCount.toNat
  two_le_seeds : 2 ≤ s.seeds.length
  seedLen_pos : 0 < s.seedLen
  length_of_mem_seeds : ∀ seed ∈ s.seeds, seed.length = s.seedLen
  seedLen_lt : s.seedLen < s.sequenceLen.toNat
  one_le_maxTerm : 1 ≤ s.maxTerm.toInt
  originDepth_le : s.originDepth.toNat ≤ s.seedLen
  progressInterval_pos : 0 < s.progressInterval.toNat

variable {s : Settings}

/-- **Settings that pass the check are such.** -/
theorem accepted_of_check (h : s.check = .ok ()) : s.Accepted := by
  simp only [check, check_bind_eq_ok_iff, require_eq_ok_iff, decide_eq_true_eq, Bool.and_eq_true,
    bne_iff_ne, List.all_eq_true, beq_iff_eq] at h
  obtain ⟨hdifficulty, hpool, hchoices, hseeds, hlengths, hsequence, hterm, horigin, hinterval,
    -⟩ := h
  exact {
    one_le_difficulty := UInt32.le_iff_toNat_le.1 hdifficulty.1
    difficulty_le := UInt32.le_iff_toNat_le.1 hdifficulty.2
    poolSize_pos := Nat.pos_of_ne_zero fun h0 => hpool (UInt64.toNat_inj.1 h0)
    two_le_choiceCount := UInt64.le_iff_toNat_le.1 hchoices
    two_le_seeds := hseeds
    seedLen_pos := Nat.pos_of_ne_zero hlengths.1
    length_of_mem_seeds := hlengths.2
    seedLen_lt := hsequence
    one_le_maxTerm := Int64.le_iff_toInt_le.1 hterm
    originDepth_le := horigin
    progressInterval_pos := Nat.pos_of_ne_zero fun h0 => hinterval (UInt64.toNat_inj.1 h0) }

/-- **Settings that pass the check have templates that do.** -/
theorem check_templates_of_check (h : s.check = .ok ()) :
    Template.check s.prompts.solver Prompts.solverVariables = .ok () ∧
      Template.check s.prompts.verifier Prompts.verifierVariables = .ok () ∧
      Template.check s.prompts.checker Prompts.checkerVariables = .ok () := by
  simp only [check, check_bind_eq_ok_iff] at h
  obtain ⟨-, -, -, -, -, -, -, -, -, h⟩ := h
  split at h <;> simp only [check_bind_eq_ok_iff, mapError_eq_ok_iff] at h
  · exact h.2
  · exact h.2

namespace Accepted

variable (h : s.Accepted)

include h

theorem seeds_eq : s.seeds = s.primarySeed :: s.exampleSeeds := by
  have hpos : s.seeds ≠ [] := by
    intro hnil
    have := h.two_le_seeds
    rw [hnil, List.length_nil] at this
    omega
  rw [primarySeed, exampleSeeds, List.headD_eq_head?_getD, List.head?_eq_some_head hpos]
  exact (List.cons_head_tail hpos).symm

/-- Every seed is shorter than the sequences. -/
theorem length_le_sequenceLen {seed : Sequence} (hs : seed ∈ s.seeds) :
    seed.length ≤ s.sequenceLen.toNat := by
  rw [h.length_of_mem_seeds seed hs]
  exact Nat.le_of_lt h.seedLen_lt

/-- The length of the seeds fits into the field of a problem that holds it. -/
theorem toNat_ofNat_seedLen : (UInt64.ofNat s.seedLen).toNat = s.seedLen :=
  UInt64.toNat_ofNat_of_lt (Nat.lt_trans h.seedLen_lt s.sequenceLen.toNat_lt)

end Accepted

end StackSeq.Settings
