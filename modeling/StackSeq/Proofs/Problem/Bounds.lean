import StackSeq.Proofs.Problem.Answer
import StackSeq.Proofs.Sequence.Recurrence

/-!
# What the check of a problem accepts and reads

The check grows each sequence again from its first terms, and takes for granted that there are as
many. `guardedCheck` is the same check with every such read guarded: it stops with `outOfRange`
where more terms are read than a sequence has. `guardedCheck_eq` says that it never does, because
the lengths are checked before anything is read: they have to be right in the order in which the
rules are checked, not only in the problems that keep all rules.

What a regrown sequence is does not need a run either: each of its terms after the seed is the last
value of a run on the terms before it (`reproduces_iff_regrows`). So the problems that pass are
described by their identifiers, their lengths and the values of their programs alone: `check_exact`.
-/

namespace StackSeq

/-! ## Regrown sequences -/

namespace Program

variable {q : Program} {terms : Sequence} {seedLen : Nat}

/-- Each term after the first `seedLen` is the last value of the run on the terms before it. The
bound excludes no term but -2^63. -/
def Regrows (q : Program) (terms : Sequence) (seedLen : Nat) : Prop :=
  ∀ i term, seedLen ≤ i → terms[i]? = some term → q.Yields Int64.maxValue (terms.take i) term

theorem reproduces_iff_regrows : q.reproduces terms seedLen = true ↔ q.Regrows terms seedLen := by
  rw [reproduces_iff, extend_eq_some_iff]
  constructor
  · intro h i term hi hterm
    exact h.yields i term (Nat.le_trans (List.length_take_le _ _) hi) hterm
  · intro h
    refine ⟨List.take_prefix seedLen terms, ?_, fun i term hi hterm => h i term ?_ hterm⟩
    · exact (Nat.max_eq_left (List.length_take_le' _ _)).symm
    · obtain ⟨hlt, -⟩ := List.getElem?_eq_some_iff.1 hterm
      rw [List.length_take] at hi
      omega

end Program

/-! ## Guarded reads -/

/-- What stops a check whose reads are guarded. -/
inductive GuardedFault where
  /-- A sequence has fewer terms than are read of it. -/
  | outOfRange
  | fault (cause : ProblemFault)
deriving DecidableEq

/-- The first terms of a sequence that has as many. -/
def Sequence.firstTerms (terms : Sequence) (count : Nat) : Except GuardedFault Sequence :=
  if count ≤ terms.length then .ok (terms.take count) else .error .outOfRange

namespace Problem

variable {p : Problem} {q : Program} {fault : ProblemFault} {terms : Sequence} {foil : Foil}

/-- Checks that the program grows the sequence from its first terms. -/
def guardedRegrow (p : Problem) (q : Program) (fault : ProblemFault) (terms : Sequence) :
    Except GuardedFault Unit := do
  let seed ← terms.firstTerms p.seedLen.toNat
  require (q.extend seed terms.length Program.widestBound == some terms) (.fault fault)

/-- The check of where a foil comes from, with its reads guarded. -/
def guardedCheckFoil (p : Problem) (foil : Foil) : Except GuardedFault Unit := do
  require (foil.source != p.program) (.fault .reusedProgram)
  let source ← (Program.ofIdentifier foil.source).mapError (.fault ∘ .identifier)
  p.guardedRegrow source (.notProduced foil.sequence foil.source) foil.sequence
  requireAll (p.guardedRegrow source (.disagreement foil.source)) p.examples

/-- The check of the rules, with its reads guarded. -/
def guardedCheck (p : Problem) : Except GuardedFault Unit := do
  let pattern ← p.pattern.mapError (.fault ∘ .identifier)
  require (decide (p.seedLen.toNat < p.correct.length))
    (.fault (.noGrowth p.correct.length p.seedLen))
  require
    (p.examples.all (·.length == p.correct.length)
      && p.foils.all (·.sequence.length == p.correct.length))
    (.fault .lengths)
  match duplicate? [p.correct] p.foils with
  | some choice => .error (.fault (.duplicateChoice choice))
  | none => .ok ()
  requireAll (fun terms => p.guardedRegrow pattern (.notProduced terms p.program) terms)
    (p.examples ++ [p.correct])
  requireAll p.guardedCheckFoil p.foils

/-- A read within a sequence is no different for being guarded. -/
theorem guardedRegrow_eq (h : p.seedLen.toNat ≤ terms.length) :
    p.guardedRegrow q fault terms
      = (require (q.reproduces terms p.seedLen.toNat) fault).mapError .fault := by
  rw [guardedRegrow, Sequence.firstTerms, if_pos h]
  exact require_eq_mapError _

theorem guardedCheckFoil_eq (hfoil : p.seedLen.toNat ≤ foil.sequence.length)
    (hexamples : ∀ terms ∈ p.examples, p.seedLen.toNat ≤ terms.length) :
    p.guardedCheckFoil foil = (p.checkFoil foil).mapError .fault := by
  refine bind_eq_mapError (require_eq_mapError _) fun _ _ => ?_
  refine bind_eq_mapError ?_ fun source _ => ?_
  · cases Program.ofIdentifier foil.source <;> rfl
  refine bind_eq_mapError (guardedRegrow_eq hfoil) fun _ _ => ?_
  rw [← requireAll_require]
  exact requireAll_eq_mapError fun terms hterms => guardedRegrow_eq (hexamples terms hterms)

/-- **No read of the check is out of range.** -/
theorem guardedCheck_eq (p : Problem) : p.guardedCheck = p.check.mapError .fault := by
  refine bind_eq_mapError ?_ fun pattern _ => ?_
  · cases p.pattern <;> rfl
  refine bind_eq_mapError (require_eq_mapError _) ?_
  rintro ⟨⟩ hgrowth
  refine bind_eq_mapError (require_eq_mapError _) ?_
  rintro ⟨⟩ hlengths
  -- From here on all sequences are known to be longer than the seed.
  simp only [require_eq_ok_iff, decide_eq_true_eq, Bool.and_eq_true, List.all_eq_true,
    beq_iff_eq] at hgrowth hlengths
  have hexamples : ∀ terms ∈ p.examples, p.seedLen.toNat ≤ terms.length := fun terms hterms => by
    rw [hlengths.1 terms hterms]
    exact Nat.le_of_lt hgrowth
  have hfoils : ∀ foil ∈ p.foils, p.seedLen.toNat ≤ foil.sequence.length := fun foil hfoil => by
    rw [hlengths.2 foil hfoil]
    exact Nat.le_of_lt hgrowth
  cases duplicate? [p.correct] p.foils with
  | some choice => rfl
  | none =>
    refine bind_eq_mapError rfl fun _ _ => ?_
    refine bind_eq_mapError (requireAll_eq_mapError fun terms hterms => guardedRegrow_eq ?_)
      fun _ _ => requireAll_eq_mapError fun foil hfoil =>
        guardedCheckFoil_eq (hfoils foil hfoil) hexamples
    rcases List.mem_append.1 hterms with hterms | hterms
    · exact hexamples terms hterms
    · rw [List.mem_singleton.1 hterms]
      exact Nat.le_of_lt hgrowth

/-- **The check accepts exactly the problems that keep the rules, and reads no term that is not
there.** -/
theorem check_exact (p : Problem) :
    (p.check = .ok () ↔ ∃ pattern, Program.ofIdentifier p.program = .ok pattern ∧
      p.seedLen.toNat < p.correct.length ∧
      (∀ terms ∈ p.examples, terms.length = p.correct.length) ∧
      (∀ foil ∈ p.foils, foil.sequence.length = p.correct.length) ∧
      (p.correct :: p.foils.map Foil.sequence).Nodup ∧
      pattern.Regrows p.correct p.seedLen.toNat ∧
      (∀ terms ∈ p.examples, pattern.Regrows terms p.seedLen.toNat) ∧
      ∀ foil ∈ p.foils, foil.source ≠ p.program ∧
        ∃ source, Program.ofIdentifier foil.source = .ok source ∧
          source.Regrows foil.sequence p.seedLen.toNat ∧
          ∀ terms ∈ p.examples, source.Regrows terms p.seedLen.toNat) ∧
      p.guardedCheck = p.check.mapError .fault := by
  refine ⟨?_, guardedCheck_eq p⟩
  simp only [← Program.reproduces_iff_regrows]
  rw [check_eq_ok_iff]
  refine exists_congr fun pattern => ⟨fun h => ?_, ?_⟩
  · exact ⟨h.pattern_eq, h.seedLen_lt, h.length_of_mem_examples, h.length_of_mem_foils,
      h.nodup_choices, h.reproduces_correct, h.reproduces_examples, h.foilRules⟩
  · rintro ⟨hpattern, hseed, hexamples, hfoils, hnodup, hcorrect, hgrown, hrules⟩
    exact ⟨hpattern, hseed, hexamples, hfoils, hnodup, hgrown, hcorrect, hrules⟩

/-- Differences of the last two terms, and the same problem with an example that has fewer terms
than the seed: nothing is read of it. -/
theorem check_exact_differences :
    let p : Problem :=
      { program := "6", seedLen := 2, examples := [[2, 1, 1, 0, 1, -1]]
        correct := [1, 2, -1, 3, -4, 7]
        foils := [⟨[1, 2, -1, 3, -4, 3], "496"⟩, ⟨[1, 2, -3, -7, -52, -2711], "a76"⟩] }
    let q : Problem := { p with examples := [[2]] }
    (∃ pattern, Program.ofIdentifier p.program = .ok pattern ∧ pattern.Regrows p.correct 2) ∧
      q.guardedCheck = .error (.fault .lengths) := by
  intro p q
  have hp : p.check = .ok () := by decide +kernel
  have hq : q.check = .error .lengths := by decide +kernel
  obtain ⟨pattern, hpattern, -, -, -, -, hcorrect, -⟩ := (check_exact p).1.1 hp
  refine ⟨⟨pattern, hpattern, hcorrect⟩, ?_⟩
  rw [(check_exact q).2, hq]
  rfl

end Problem

end StackSeq
