import Std.Data.HashMap.Lemmas
import StackSeq.Proofs.Search.Candidates

/-!
# The scan

A candidate `Represents` those with the same sequences and larger numbers. The findings of a scan
up to some number list the candidates that do, and each family is a part of that list
(`Findings.Lists`). A visit keeps this (`Lists.visit`), so a scan does (`lists_of_scanFrom`), and
what a search answers is decided by findings of which it holds for the whole enumeration
(`exists_lists_of_search`, `exists_lists_of_proceed`).
-/

namespace StackSeq

variable {s : Settings} {f g : Findings} {c c' : Candidate} {n : Nat}

/-! ## Representatives -/

/-- A search makes this candidate and none with the same sequences and a smaller number. -/
structure Settings.Represents (s : Settings) (c : Candidate) : Prop where
  made : s.candidate? c.index = some c
  first : ∀ c', s.candidate? c'.index = some c' → c'.index < c.index → ¬c'.Same c

namespace Settings.Represents

theorem records (h : s.Represents c) : c.Records s := records_of_candidate? h.made

/-- A number has one candidate. -/
theorem eq_of_index_eq (h : s.Represents c) (h' : s.Represents c') (hi : c.index = c'.index) :
    c = c' := by
  have hmade := h.made
  rw [hi, h'.made] at hmade
  exact (Option.some.inj hmade).symm

/-- Sequences have one representative. -/
theorem eq_of_same (h : s.Represents c) (h' : s.Represents c') (hsame : c.Same c') : c = c' := by
  rcases Nat.lt_trichotomy c.index c'.index with hlt | heq | hlt
  · exact absurd hsame (h'.first c h.made hlt)
  · exact h.eq_of_index_eq h' heq
  · exact absurd hsame.symm (h.first c' h'.made hlt)

end Settings.Represents

/-- **Every candidate is represented**, by one with a number that is no larger. -/
theorem Settings.exists_represents (h : s.candidate? c.index = some c) :
    ∃ r, s.Represents r ∧ r.Same c ∧ r.index ≤ c.index := by
  induction hn : c.index using Nat.strongRecOn generalizing c with
  | ind n ih =>
    subst hn
    -- A smaller candidate with the same sequences has a representative, and that is one of `c` too.
    by_cases hfirst : ∃ c', s.candidate? c'.index = some c' ∧ c'.index < c.index ∧ c'.Same c
    · obtain ⟨c', hmade, hlt, hsame⟩ := hfirst
      obtain ⟨r, hr, hrs, hle⟩ := ih c'.index hlt hmade rfl
      exact ⟨r, hr, hrs.trans hsame, Nat.le_trans hle (Nat.le_of_lt hlt)⟩
    · exact ⟨c, ⟨h, fun c' hmade hlt hsame => hfirst ⟨c', hmade, hlt, hsame⟩⟩, .refl c,
        Nat.le_refl _⟩

/-- The candidate of a number represents if the number does. -/
theorem Settings.representative_index_iff (hs : s.Accepted) (hseed : s.seedLen < addressable)
    (hlt : c.index < s.searchSize) (hc : c.Records s) :
    s.Representative c.index ↔ s.Represents c := by
  constructor
  · rintro ⟨-, hfirst⟩
    refine ⟨(candidate?_eq_some_iff hs hseed hlt).2 ⟨rfl, hc⟩, fun c' hmade hlt' hsame => ?_⟩
    have hc' : c'.Records s := records_of_candidate? hmade
    exact hfirst c'.index hlt' ((usable_iff_exists_records hs).2 ⟨c', rfl, hc'⟩)
      ((hc'.agree_seeds_iff hc hs).2 hsame)
  · intro h
    refine ⟨(usable_iff_exists_records hs).2 ⟨c, rfl, hc⟩, fun m hm husable hagree => ?_⟩
    obtain ⟨c', rfl, hc'⟩ := (usable_iff_exists_records hs).1 husable
    exact h.first c' ((candidate?_eq_some_iff hs hseed (Nat.lt_trans hm hlt)).2 ⟨rfl, hc'⟩) hm
      ((hc'.agree_seeds_iff hc hs).1 hagree)

namespace Findings

/-! ## One visit -/

/-- What a scan has found once it has visited the numbers below `n`: their representatives in
order, and the same sorted by their examples. -/
structure Lists (s : Settings) (n : Nat) (f : Findings) : Prop where
  mem_iff : ∀ c, c ∈ f.representatives.toList ↔ c.index < n ∧ s.Represents c
  increasing : f.representatives.toList.Pairwise (·.index < ·.index)
  family_eq : ∀ examples,
    (f.family examples).toList = f.representatives.toList.filter (·.examples == examples)

theorem lists_empty : Lists s 0 {} where
  mem_iff := fun c => by simp
  increasing := .nil
  family_eq := fun examples => by simp [family]

namespace Lists

/-- A number without a representative adds nothing. -/
theorem keep (h : f.Lists s n) (hn : ∀ c, s.Represents c → c.index ≠ n) : f.Lists s (n + 1) where
  mem_iff := fun c => by
    rw [h.mem_iff]
    constructor
    · exact fun ⟨hlt, hc⟩ => ⟨Nat.lt_succ_of_lt hlt, hc⟩
    · exact fun ⟨hlt, hc⟩ => ⟨Nat.lt_of_le_of_ne (Nat.le_of_lt_succ hlt) (hn c hc), hc⟩
  increasing := h.increasing
  family_eq := h.family_eq

/-- A representative goes to the end of its family. -/
theorem push (h : f.Lists s c.index) (hc : s.Represents c) :
    Lists s (c.index + 1)
      { families := f.families.insert c.examples ((f.family c.examples).push c)
        representatives := f.representatives.push c } where
  mem_iff := fun c' => by
    rw [Array.toList_push, List.mem_append, List.mem_singleton, h.mem_iff]
    constructor
    · rintro (⟨hlt, hc'⟩ | rfl)
      · exact ⟨Nat.lt_succ_of_lt hlt, hc'⟩
      · exact ⟨Nat.lt_succ_self _, hc⟩
    · rintro ⟨hlt, hc'⟩
      rcases Nat.lt_succ_iff_lt_or_eq.1 hlt with hlt | heq
      · exact .inl ⟨hlt, hc'⟩
      · exact .inr (hc'.eq_of_index_eq hc heq)
  increasing := by
    rw [Array.toList_push, List.pairwise_append]
    refine ⟨h.increasing, List.pairwise_singleton .., fun c' hc' c'' hc'' => ?_⟩
    rw [List.mem_singleton.1 hc'']
    exact ((h.mem_iff c').1 hc').1
  family_eq := fun examples => by
    rw [Array.toList_push, List.filter_append, ← h.family_eq, family, Std.HashMap.getD_insert]
    split
    · next heq =>
      rw [beq_iff_eq] at heq
      subst heq
      simp
    · next hne => simp [hne, family]

theorem mem_family_iff (h : f.Lists s n) {examples : List Sequence} :
    c ∈ (f.family examples).toList ↔ c ∈ f.representatives.toList ∧ c.examples = examples := by
  rw [h.family_eq, List.mem_filter, beq_iff_eq]

/-- The family of a candidate has a member with its primary sequence if it has a representative
already. -/
theorem any_family_iff (h : f.Lists s n) :
    (f.family c.examples).any (·.primary == c.primary) ↔
      ∃ r, r.index < n ∧ s.Represents r ∧ r.Same c := by
  rw [← Array.any_toList, List.any_eq_true]
  constructor
  · rintro ⟨r, hr, hprimary⟩
    obtain ⟨hr, hexamples⟩ := h.mem_family_iff.1 hr
    obtain ⟨hlt, hr⟩ := (h.mem_iff r).1 hr
    exact ⟨r, hlt, hr, beq_iff_eq.1 hprimary, hexamples⟩
  · rintro ⟨r, hlt, hr, hsame⟩
    exact ⟨r, h.mem_family_iff.2 ⟨(h.mem_iff r).2 ⟨hlt, hr⟩, hsame.examples⟩,
      beq_iff_eq.2 hsame.primary⟩

/-- **A visit lists one more number.** -/
theorem visit (h : f.Lists s n) : (f.visit s n).Lists s (n + 1) := by
  unfold Findings.visit
  split
  · next hnone =>
    refine h.keep fun c hc hn => ?_
    rw [← hn, hc.made] at hnone
    cases hnone
  · next c hc =>
    obtain rfl := Settings.index_of_candidate? hc
    unfold insert
    dsimp only
    split
    · next hany =>
      -- The candidate has a representative already, so this number has none.
      obtain ⟨r, hlt, hr, hsame⟩ := h.any_family_iff.1 hany
      refine h.keep fun c' hc' hn => ?_
      obtain rfl : c' = c := by
        have hmade := hc'.made
        rw [hn, hc] at hmade
        exact (Option.some.inj hmade).symm
      exact hc'.first r hr.made hlt hsame
    · next hnew =>
      -- A smaller candidate with the same sequences would have put its representative in the
      -- family.
      refine h.push ⟨hc, fun c' hmade hlt hsame => hnew ?_⟩
      obtain ⟨r, hr, hrs, hle⟩ := Settings.exists_represents hmade
      exact h.any_family_iff.2 ⟨r, Nat.lt_of_le_of_lt hle hlt, hr, hrs.trans hsame⟩

end Lists

end Findings

/-! ## The whole scan -/

namespace Settings

variable {policy : Policy} {left index : Nat} {reports : Array Progress} {problems : List Problem}

/-- **A scan that ends has listed what it was to visit.** -/
theorem lists_of_scanFrom (h : f.Lists s index)
    (hok : (s.scanFrom policy left index f reports).2 = .ok g) : g.Lists s (index + left) := by
  induction left generalizing index f reports with
  | zero =>
    unfold scanFrom at hok
    dsimp only at hok
    split at hok <;> cases hok
    exact h
  | succ left ih =>
    unfold scanFrom at hok
    dsimp only at hok
    rw [Nat.add_comm left, ← Nat.add_assoc]
    split at hok
    · split at hok
      · cases hok
      · exact ih h.visit hok
    · exact ih h.visit hok

/-- A scan ends unless it is told to stop. -/
theorem exists_scanFrom_of_proceed (hp : ∀ i r, policy i r = .proceed) :
    ∃ g, (s.scanFrom policy left index f reports).2 = .ok g := by
  induction left generalizing index f reports with
  | zero => exact ⟨f, by simp only [scanFrom, hp]⟩
  | succ left ih =>
    simp only [scanFrom, hp]
    split
    · exact ih
    · exact ih

theorem outcome_search (hc : s.check = .ok ()) :
    (s.search policy).outcome
      = (s.scanFrom policy s.searchSize 0 {} #[]).2.bind s.problems := by
  rw [search, hc]

/-- **A search that is not told to stop answers from a list of all representatives.** -/
theorem exists_lists_of_proceed (hc : s.check = .ok ()) (hp : ∀ i r, policy i r = .proceed) :
    ∃ f, f.Lists s s.searchSize ∧ (s.search policy).outcome = s.problems f := by
  obtain ⟨f, hf⟩ : ∃ f, (s.scanFrom policy s.searchSize 0 {} #[]).2 = .ok f :=
    exists_scanFrom_of_proceed hp
  rw [outcome_search hc, hf]
  exact ⟨f, Nat.zero_add s.searchSize ▸ lists_of_scanFrom Findings.lists_empty hf, rfl⟩

/-- **So does every search that makes problems.** -/
theorem exists_lists_of_search (h : (s.search policy).outcome = .ok problems) :
    s.check = .ok () ∧ ∃ f, f.Lists s s.searchSize ∧ s.problems f = .ok problems := by
  cases hc : s.check with
  | error fault =>
    rw [search, hc] at h
    cases h
  | ok =>
    rw [outcome_search hc] at h
    obtain ⟨f, hf, h⟩ := bind_eq_ok_iff.1 h
    exact ⟨rfl, f, Nat.zero_add s.searchSize ▸ lists_of_scanFrom Findings.lists_empty hf, h⟩

end Settings

end StackSeq
