import Mathlib.Data.Finset.Card
import StackSeq.Proofs.Search.Families

/-!
# How many families a search has found

The number of families among the findings of a scan is the number of different examples that usable
programs grow, as far as it has come (`familyCount_findingsUpTo`), so it never falls
(`groups_mono`). A list of examples has a family as soon as a usable number grows it, also where
another candidate represents that number: `Findings.Counts` says so of the findings below a number,
and a visit keeps it (`Counts.visit`).
-/

namespace StackSeq

variable {s : Settings} {f : Findings} {c : Candidate} {n : Nat}

namespace Settings

/-! ## The examples of usable numbers -/

/-- What the program with this number grows from the seeds of the examples. -/
def examplesOf (s : Settings) (n : Nat) : List (Option Sequence) :=
  s.exampleSeeds.map (s.grownBy? n)

/-- The different examples that the usable numbers below `n` grow. -/
def exampleKinds (s : Settings) (n : Nat) : Finset (List (Option Sequence)) :=
  ((Finset.range n).filter s.Usable).image s.examplesOf

/-- How many different examples the usable numbers below `n` grow. -/
def groups (s : Settings) (n : Nat) : Nat := (s.exampleKinds n).card

theorem exampleKinds_zero : s.exampleKinds 0 = ∅ := rfl

theorem exampleKinds_succ_of_usable (h : s.Usable n) :
    s.exampleKinds (n + 1) = insert (s.examplesOf n) (s.exampleKinds n) := by
  unfold exampleKinds
  rw [Finset.range_add_one, Finset.filter_insert, if_pos h, Finset.image_insert]

theorem exampleKinds_succ_of_not_usable (h : ¬s.Usable n) :
    s.exampleKinds (n + 1) = s.exampleKinds n := by
  unfold exampleKinds
  rw [Finset.range_add_one, Finset.filter_insert, if_neg h]

theorem groups_mono {m : Nat} (h : m ≤ n) : s.groups m ≤ s.groups n := by
  refine Finset.card_le_card (Finset.image_subset_image (Finset.filter_subset_filter _ ?_))
  exact Finset.range_subset_range.2 h

/-! ## What a scan has found -/

/-- What a scan has found once it has visited the numbers below `n`. -/
def findingsUpTo (s : Settings) : (n : Nat) → Findings
  | 0 => {}
  | n + 1 => (s.findingsUpTo n).visit s n

end Settings

namespace Findings

/-- A list of examples has a family if usable numbers below `n` grow it. -/
structure Counts (s : Settings) (n : Nat) (f : Findings) : Prop where
  mem_iff : ∀ examples, examples ∈ f.families ↔ examples.map some ∈ s.exampleKinds n
  familyCount_eq : f.familyCount = s.groups n

theorem counts_empty : Counts s 0 {} where
  mem_iff := fun examples => by simp [Settings.exampleKinds_zero]
  familyCount_eq := rfl

/-- A family with a member is there. -/
theorem mem_families_of_any {examples : List Sequence} {p : Candidate → Bool}
    (h : (f.family examples).any p = true) : examples ∈ f.families := by
  by_contra hmem
  have hempty : f.family examples = #[] := Std.HashMap.getD_eq_fallback hmem
  rw [hempty] at h
  simp at h

namespace Counts

/-- A candidate whose examples have a family changes nothing. -/
theorem keep_of_mem (h : f.Counts s c.index) (hu : s.Usable c.index)
    (hc : c.examples.map some = s.examplesOf c.index) (hmem : c.examples ∈ f.families) :
    f.Counts s (c.index + 1) := by
  have hkind : s.examplesOf c.index ∈ s.exampleKinds c.index := hc ▸ (h.mem_iff c.examples).1 hmem
  have hsame : s.exampleKinds (c.index + 1) = s.exampleKinds c.index := by
    rw [Settings.exampleKinds_succ_of_usable hu, Finset.insert_eq_of_mem hkind]
  refine ⟨fun examples => hsame ▸ h.mem_iff examples, ?_⟩
  rw [h.familyCount_eq, Settings.groups, Settings.groups, hsame]

/-- A candidate that goes to a family puts the family there. -/
theorem insert (h : f.Counts s c.index) (hu : s.Usable c.index)
    (hc : c.examples.map some = s.examplesOf c.index) (family representatives : Array Candidate) :
    Counts s (c.index + 1) ⟨f.families.insert c.examples family, representatives⟩ where
  mem_iff := fun examples => by
    have hinj : examples.map some = c.examples.map some ↔ examples = c.examples :=
      (List.map_injective_iff.2 (Option.some_injective _)).eq_iff
    rw [Settings.exampleKinds_succ_of_usable hu, Finset.mem_insert, ← hc, hinj,
      Std.HashMap.mem_insert, beq_iff_eq, h.mem_iff]
    exact or_congr_left eq_comm
  familyCount_eq := by
    have hcount : f.families.size = s.groups c.index := h.familyCount_eq
    have hmem : c.examples ∈ f.families ↔ s.examplesOf c.index ∈ s.exampleKinds c.index :=
      hc ▸ h.mem_iff c.examples
    show (f.families.insert c.examples family).size = _
    rw [Std.HashMap.size_insert, Settings.groups, Settings.exampleKinds_succ_of_usable hu]
    by_cases hkind : s.examplesOf c.index ∈ s.exampleKinds c.index
    · rw [if_pos (hmem.2 hkind), Finset.insert_eq_of_mem hkind, hcount, Settings.groups]
    · rw [if_neg (mt hmem.1 hkind), Finset.card_insert_of_notMem hkind, hcount, Settings.groups]

/-- **A visit counts one more number.** -/
theorem visit (hs : s.Accepted) (hseed : s.seedLen < addressable) (hn : n < s.searchSize)
    (h : f.Counts s n) : (f.visit s n).Counts s (n + 1) := by
  unfold Findings.visit
  cases hcand : s.candidate? n with
  | none =>
    have hunusable : ¬s.Usable n := by
      intro hu
      obtain ⟨c, hc⟩ := (Settings.usable_iff_exists_records hs).1 hu
      rw [(Settings.candidate?_eq_some_iff hs hseed hn).2 hc] at hcand
      cases hcand
    refine ⟨fun examples => ?_, ?_⟩
    · rw [Settings.exampleKinds_succ_of_not_usable hunusable]
      exact h.mem_iff examples
    · rw [Settings.groups, Settings.exampleKinds_succ_of_not_usable hunusable]
      exact h.familyCount_eq
  | some c =>
    obtain rfl := Settings.index_of_candidate? hcand
    have hrecords := Settings.records_of_candidate? hcand
    have hu : s.Usable c.index := (Settings.usable_iff_exists_records hs).2 ⟨c, rfl, hrecords⟩
    show (f.insert c).Counts s (c.index + 1)
    unfold Findings.insert
    dsimp only
    split
    · next hany => exact h.keep_of_mem hu hrecords.examples (mem_families_of_any hany)
    · exact h.insert hu hrecords.examples _ _

end Counts

end Findings

namespace Settings

theorem counts_findingsUpTo (hs : s.Accepted) (hseed : s.seedLen < addressable)
    (hn : n ≤ s.searchSize) : (s.findingsUpTo n).Counts s n := by
  induction n with
  | zero => exact Findings.counts_empty
  | succ n ih => exact Findings.Counts.visit hs hseed hn (ih (Nat.le_of_succ_le hn))

/-- **A scan has found as many families as usable numbers grow different examples.** -/
theorem familyCount_findingsUpTo (hs : s.Accepted) (hseed : s.seedLen < addressable)
    (hn : n ≤ s.searchSize) : (s.findingsUpTo n).familyCount = s.groups n :=
  (counts_findingsUpTo hs hseed hn).familyCount_eq

end Settings

end StackSeq
