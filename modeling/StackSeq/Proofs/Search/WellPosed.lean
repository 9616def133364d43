import StackSeq.Proofs.Problem.Answer
import StackSeq.Proofs.Search.Problems

/-!
# The problems of a search are well posed

The check of a problem knows nothing of the search: it runs all programs again, from the first terms
of the sequences and with the widest bound. Every problem that a search makes passes it
(`rules_problemOf`). What a candidate records its program reproduces (`Records.reproduces`), the
members of a family record the same examples, and no two of them the same primary sequence.

All choices begin with the primary seed, so the correct one is the only answer:
`wellPosed_of_search`.
-/

namespace StackSeq

variable {s : Settings} {f : Findings} {c : Candidate} {p : Program} {terms : Sequence}

/-- The problem passes the check, has the choices that the settings ask for, begins its sequences
with their seeds, and has one answer. -/
structure Settings.WellPosed (s : Settings) (p : Problem) : Prop where
  check : p.check = .ok ()
  choiceCount : p.choiceCount = s.choiceCount.toNat
  prefix_choices : ∀ choice ∈ p.choices, s.primarySeed <+: choice
  prefix_examples : List.Forall₂ (· <+: ·) s.exampleSeeds p.examples
  answer : ∃ pattern, p.pattern = .ok pattern ∧ ∀ choice ∈ p.choices,
    pattern.reproduces choice p.seedLen.toNat = true ↔ choice = p.correct

/-! ## What a candidate records -/

namespace Candidate.Records

variable (h : c.Records s) (hs : s.Accepted)

include h hs

theorem length_of_mem (hterms : terms ∈ c.sequences) : terms.length = s.sequenceLen.toNat := by
  obtain ⟨seed, hseed, hgrown⟩ := h.exists_seed hs hterms
  obtain ⟨p, hp⟩ := Settings.exists_program_of_grownBy? hgrown
  rw [Settings.grownBy?_eq_grow? hp] at hgrown
  exact Program.length_of_extend (hs.length_le_sequenceLen hseed) hgrown

/-- **The program of a candidate reproduces its sequences.** -/
theorem reproduces (hp : Program.ofIdentifier c.identifier = .ok p)
    (hterms : terms ∈ c.sequences) : p.reproduces terms s.seedLen = true := by
  obtain ⟨seed, hseed, hgrown⟩ := h.exists_seed hs hterms
  rw [Settings.grownBy?_eq_grow? hp] at hgrown
  have hbound : 0 ≤ s.maxTerm.toInt := Int.le_trans (by decide) hs.one_le_maxTerm
  rw [← hs.length_of_mem_seeds seed hseed]
  exact Program.reproduces_of_extend (hs.length_le_sequenceLen hseed) hbound hgrown

end Candidate.Records

/-! ## What a search makes -/

namespace Findings

variable {n : Nat} (h : f.Lists s n) (r : Random)

theorem choices_problemOf :
    (f.problemOf s c r).1.choices = (c :: f.drawn s c r).map Candidate.primary := by
  rw [Problem.choices, foils_problemOf, List.map_map, List.map_cons]
  rfl

theorem exists_of_mem_problemsOf {cs : List Candidate} {p : Problem}
    (hp : p ∈ f.problemsOf s cs r) : ∃ c ∈ cs, ∃ r, p = (f.problemOf s c r).1 := by
  induction cs generalizing r with
  | nil => cases hp
  | cons c cs ih =>
    rcases List.mem_cons.1 hp with rfl | hp
    · exact ⟨c, List.mem_cons_self, r, rfl⟩
    · obtain ⟨c', hc', r', rfl⟩ := ih _ hp
      exact ⟨c', List.mem_cons_of_mem c hc', r', rfl⟩

namespace Lists

include h

/-- Different members of a family have different primary sequences. -/
theorem nodup_choices_problemOf (hc : c ∈ f.representatives.toList) :
    (f.problemOf s c r).1.choices.Nodup := by
  have hfamily : ∀ o ∈ c :: f.drawn s c r, s.Represents o ∧ o.examples = c.examples := by
    refine List.forall_mem_cons.2 ⟨⟨h.represents hc, rfl⟩, fun o ho => ?_⟩
    obtain ⟨hr, hexamples, -⟩ := h.mem_drawn hc ho
    exact ⟨h.represents hr, hexamples⟩
  rw [choices_problemOf]
  refine (h.nodup_cons_drawn hc).map_on fun o ho o' ho' hprimary => ?_
  obtain ⟨hr, hexamples⟩ := hfamily o ho
  obtain ⟨hr', hexamples'⟩ := hfamily o' ho'
  exact hr.eq_of_same hr' ⟨hprimary, hexamples.trans hexamples'.symm⟩

/-- **The problem made of a representative keeps all rules.** -/
theorem rules_problemOf (hs : s.Accepted) (hc : c ∈ f.representatives.toList)
    (hp : Program.ofIdentifier c.identifier = .ok p) : (f.problemOf s c r).1.Rules p := by
  have hrecords := (h.represents hc).records
  have hprimary : c.primary ∈ c.sequences := List.mem_cons_self
  have hlength : c.primary.length = s.sequenceLen.toNat := hrecords.length_of_mem hs hprimary
  have hdrawn : ∀ foil ∈ (f.problemOf s c r).1.foils, ∃ o, s.Represents o ∧
      o.examples = c.examples ∧ o ≠ c ∧ foil = o.foil := by
    rw [foils_problemOf]
    refine List.forall_mem_map.2 fun o ho => ?_
    obtain ⟨hr, hexamples, hne⟩ := h.mem_drawn hc ho
    exact ⟨o, h.represents hr, hexamples, hne, rfl⟩
  exact {
    pattern_eq := hp
    seedLen_lt := by
      rw [seedLen_problemOf hs]
      exact hlength.symm ▸ hs.seedLen_lt
    length_of_mem_examples := fun terms hterms =>
      (hrecords.length_of_mem hs (List.mem_cons_of_mem _ hterms)).trans hlength.symm
    length_of_mem_foils := fun foil hfoil => by
      obtain ⟨o, ho, -, -, rfl⟩ := hdrawn foil hfoil
      exact (ho.records.length_of_mem hs List.mem_cons_self).trans hlength.symm
    nodup_choices := h.nodup_choices_problemOf r hc
    reproduces_examples := fun terms hterms => by
      rw [seedLen_problemOf hs]
      exact hrecords.reproduces hs hp (List.mem_cons_of_mem _ hterms)
    reproduces_correct := by
      rw [seedLen_problemOf hs]
      exact hrecords.reproduces hs hp hprimary
    foilRules := fun foil hfoil => by
      obtain ⟨o, ho, hexamples, hne, rfl⟩ := hdrawn foil hfoil
      obtain ⟨source, hsource⟩ := Settings.exists_program_of_grownBy? ho.records.primary
      refine ⟨fun hid => hne ?_, source, hsource, ?_, fun terms hterms => ?_⟩
      · exact ho.eq_of_index_eq (h.represents hc) (Program.enumerated_injective hid)
      · rw [seedLen_problemOf hs]
        exact ho.records.reproduces hs hsource List.mem_cons_self
      · rw [seedLen_problemOf hs]
        exact ho.records.reproduces hs hsource (List.mem_cons_of_mem _ (hexamples ▸ hterms)) }

theorem prefix_of_mem_choices (hc : c ∈ f.representatives.toList) {choice : Sequence}
    (hchoice : choice ∈ (f.problemOf s c r).1.choices) : s.primarySeed <+: choice := by
  rw [choices_problemOf] at hchoice
  obtain ⟨o, ho, rfl⟩ := List.mem_map.1 hchoice
  have hr : o ∈ f.representatives.toList := by
    rcases List.mem_cons.1 ho with rfl | ho
    · exact hc
    · exact (h.mem_drawn hc ho).1
  exact Settings.prefix_of_grownBy? (h.represents hr).records.primary

/-- **The problem made of a pattern is well posed.** -/
theorem wellPosed_problemOf (hs : s.Accepted) (hc : c ∈ f.patterns s) :
    s.WellPosed (f.problemOf s c r).1 := by
  have hmem := (mem_patterns_iff.1 hc).1
  have hrecords := (h.represents hmem).records
  obtain ⟨pattern, hpattern⟩ := Settings.exists_program_of_grownBy? hrecords.primary
  have hrules := h.rules_problemOf r hs hmem hpattern
  have hbegins : ∀ choice ∈ (f.problemOf s c r).1.choices, s.primarySeed <+: choice :=
    fun choice hchoice => h.prefix_of_mem_choices r hmem hchoice
  exact {
    check := Problem.check_eq_ok_iff.2 ⟨pattern, hrules⟩
    choiceCount := by
      rw [Problem.choiceCount, foils_problemOf, List.length_map]
      exact h.length_drawn (Nat.lt_of_lt_of_le Nat.two_pos hs.two_le_choiceCount) hc
    prefix_choices := hbegins
    prefix_examples :=
      hrecords.forall₂_examples.imp fun _ _ hgrown => Settings.prefix_of_grownBy? hgrown
    answer := by
      refine ⟨pattern, hpattern, fun choice hchoice => ⟨fun hgrown => ?_, ?_⟩⟩
      · refine hrules.eq_correct hchoice ?_ hgrown
        rw [seedLen_problemOf hs]
        exact (List.prefix_iff_eq_take.1 (hbegins choice hchoice)).symm.trans
          (List.prefix_iff_eq_take.1 (hbegins _ List.mem_cons_self))
      · rintro rfl
        exact hrules.reproduces_correct }

end Lists

end Findings

/-! ## The search -/

namespace Settings

theorem exists_pattern_of_mem_problems {problems : List Problem} {p : Problem}
    (h : s.problems f = .ok problems) (hp : p ∈ problems) :
    ∃ c ∈ f.patterns s, ∃ r, p = (f.problemOf s c r).1 := by
  unfold Settings.problems at h
  dsimp only at h
  split at h
  · cases h
  · cases h
    obtain ⟨c, hc, hmade⟩ := Findings.exists_of_mem_problemsOf _ hp
    exact ⟨c, List.mem_of_mem_drop hc, hmade⟩

/-- **Every problem of a search is well posed.** -/
theorem wellPosed_of_search (s : Settings) (policy : Policy) (problems : List Problem)
    (h : (s.search policy).outcome = .ok problems) : ∀ p ∈ problems, s.WellPosed p := by
  intro p hp
  obtain ⟨hcheck, f, hf, hproblems⟩ := exists_lists_of_search h
  obtain ⟨c, hc, r, rfl⟩ := exists_pattern_of_mem_problems hproblems hp
  exact hf.wellPosed_problemOf r (accepted_of_check hcheck) hc

/-- Two problems on zeros, each with three foils, among them constant ones. -/
theorem wellPosed_of_search_zeros :
    let s : Settings :=
      { difficulty := 1, poolSize := 2, choiceCount := 4, sequenceLen := 5
        seeds := [[1, 2], [0, 0]], skipConstant := false, prompts := ⟨"", "", ""⟩ }
    ∃ problems, (s.search fun _ _ => .proceed).outcome = .ok problems ∧ problems.length = 2 ∧
      ∀ p ∈ problems, s.WellPosed p := by
  intro s
  have hc : s.check = .ok () := by decide +kernel
  have hfound : s.patternNumbers = [0, 5, 6, 7, 9, 10, 11, 12] := by decide +kernel
  have hproceed : ∀ i r, (fun _ _ => .proceed : Policy) i r = .proceed := fun _ _ => rfl
  have houtcome := outcome_of_proceed hc (by decide) hproceed
  rw [hfound] at houtcome
  obtain ⟨hfew, -⟩ | ⟨-, problems, hok, hposed⟩ := houtcome
  · exact absurd hfew (by decide)
  · exact ⟨problems, hok, hposed.length_eq.symm, wellPosed_of_search s _ problems hok⟩

end Settings

end StackSeq
