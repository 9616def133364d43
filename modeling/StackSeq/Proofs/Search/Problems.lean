import Mathlib.Data.List.Nodup
import Mathlib.Data.List.Sort
import StackSeq.Proofs.Search.Families

/-!
# The problems of a search

From a list of all representatives a search takes the patterns, and draws the foils of each from the
rest of its family. The numbers of the representatives, of the members of a family and of the
patterns are those that the specification names (`Lists.map_index_representatives`,
`Lists.map_index_family`, `Lists.map_index_patterns`), and the problem made of a pattern poses it
(`poses_problemOf`). So a search finds what it is to find: `search_meets_specification`. The seeds
have to fit into memory, since the search rests on the analysis.
-/

namespace StackSeq

variable {s : Settings} {f : Findings} {c o : Candidate} {n : Nat} {r : Random}

/-- The foil that is made of a candidate. -/
def Candidate.foil (c : Candidate) : Foil := ⟨c.primary, c.identifier⟩

namespace Findings

/-! ## Foils -/

/-- The candidates that a pattern's foils are drawn from. -/
def others (f : Findings) (c : Candidate) : List Candidate :=
  (f.family c.examples).toList.filter (·.index != c.index)

/-- The candidates that become the foils of a pattern. -/
def drawn (f : Findings) (s : Settings) (c : Candidate) (r : Random) : List Candidate :=
  (r.shuffle (f.others c)).1.take (s.choiceCount.toNat - 1)

theorem foils_problemOf : (f.problemOf s c r).1.foils = (f.drawn s c r).map Candidate.foil := rfl

theorem seedLen_problemOf (hs : s.Accepted) : (f.problemOf s c r).1.seedLen.toNat = s.seedLen :=
  hs.toNat_ofNat_seedLen

namespace Lists

theorem represents (h : f.Lists s n) (hc : c ∈ f.representatives.toList) : s.Represents c :=
  ((h.mem_iff c).1 hc).2

theorem nodup_representatives (h : f.Lists s n) : f.representatives.toList.Nodup :=
  h.increasing.imp fun hlt heq => Nat.ne_of_lt hlt (congrArg Candidate.index heq)

theorem nodup_family (h : f.Lists s n) (examples : List Sequence) :
    (f.family examples).toList.Nodup :=
  h.family_eq examples ▸ h.nodup_representatives.filter _

/-- Foils are drawn from the family without the pattern. -/
theorem others_eq (h : f.Lists s n) (hc : c ∈ f.representatives.toList) :
    f.others c = (f.family c.examples).toList.erase c := by
  rw [(h.nodup_family _).erase_eq_filter]
  refine List.filter_congr fun o ho => ?_
  -- The search tells members of a family apart by their numbers.
  have hiff : o.index ≠ c.index ↔ o ≠ c := by
    refine not_congr ⟨fun hi => ?_, fun heq => congrArg Candidate.index heq⟩
    exact (h.represents (h.mem_family_iff.1 ho).1).eq_of_index_eq (h.represents hc) hi
  rw [Bool.eq_iff_iff, bne_iff_ne, bne_iff_ne]
  exact hiff

theorem mem_drawn (h : f.Lists s n) (hc : c ∈ f.representatives.toList) (ho : o ∈ f.drawn s c r) :
    o ∈ f.representatives.toList ∧ o.examples = c.examples ∧ o ≠ c := by
  have hother : o ∈ f.others c := (Random.perm_shuffle _ r).mem_iff.1 (List.mem_of_mem_take ho)
  rw [h.others_eq hc, (h.nodup_family _).mem_erase_iff, h.mem_family_iff] at hother
  exact ⟨hother.2.1, hother.2.2, hother.1⟩

/-- The pattern and the sources of its foils are different candidates. -/
theorem nodup_cons_drawn (h : f.Lists s n) (hc : c ∈ f.representatives.toList) :
    (c :: f.drawn s c r).Nodup := by
  refine List.nodup_cons.2 ⟨fun hmem => (h.mem_drawn hc hmem).2.2 rfl, ?_⟩
  have hothers : (f.others c).Nodup := (h.nodup_family c.examples).filter _
  exact ((Random.perm_shuffle _ r).nodup_iff.2 hothers).sublist (List.take_sublist _ _)

theorem mem_patterns_iff :
    c ∈ f.patterns s ↔ c ∈ f.representatives.toList ∧
      s.choiceCount.toNat ≤ (f.family c.examples).size := by
  rw [patterns, List.mem_filter, decide_eq_true_iff]

/-- The family of a pattern has foils enough. -/
theorem length_drawn (h : f.Lists s n) (hk : 0 < s.choiceCount.toNat) (hc : c ∈ f.patterns s) :
    (f.drawn s c r).length + 1 = s.choiceCount.toNat := by
  obtain ⟨hc, hsize⟩ := mem_patterns_iff.1 hc
  have hfamily : c ∈ (f.family c.examples).toList := h.mem_family_iff.2 ⟨hc, rfl⟩
  have hothers : (f.others c).length + 1 = (f.family c.examples).size := by
    rw [h.others_eq hc, List.length_erase_add_one hfamily, Array.length_toList]
  rw [drawn, List.length_take, (Random.perm_shuffle _ r).length_eq]
  omega

end Lists

/-! ## Numbers -/

namespace Lists

variable (h : f.Lists s s.searchSize) (hs : s.Accepted) (hseed : s.seedLen < addressable)

include h hs hseed

/-- **The representatives have the numbers that they should**, -/
theorem map_index_representatives :
    f.representatives.toList.map Candidate.index = s.representativeNumbers := by
  refine List.Pairwise.eq_of_mem_iff (List.pairwise_map.2 h.increasing)
    (List.pairwise_lt_range.filter _) fun n => ?_
  rw [Settings.representativeNumbers, List.mem_filter, List.mem_range, decide_eq_true_iff,
    List.mem_map]
  constructor
  · rintro ⟨c, hc, rfl⟩
    obtain ⟨hlt, hc⟩ := (h.mem_iff c).1 hc
    exact ⟨hlt, (Settings.representative_index_iff hs hseed hlt hc.records).2 hc⟩
  · rintro ⟨hlt, hn⟩
    obtain ⟨c, rfl, hc⟩ := (Settings.usable_iff_exists_records hs).1 hn.1
    exact ⟨c, (h.mem_iff c).2
      ⟨hlt, (Settings.representative_index_iff hs hseed hlt hc).1 hn⟩, rfl⟩

/-- **so have the members of a family**, -/
theorem map_index_family (hc : c ∈ f.representatives.toList) :
    (f.family c.examples).toList.map Candidate.index = s.kin c.index := by
  rw [Settings.kin, ← h.map_index_representatives hs hseed, List.filter_map, h.family_eq]
  refine congrArg _ (List.filter_congr fun o ho => ?_)
  rw [Function.comp_apply, Bool.eq_iff_iff, beq_iff_eq, decide_eq_true_iff]
  exact ((h.represents ho).records.agree_iff (h.represents hc).records).symm

/-- **and so have the patterns.** -/
theorem map_index_patterns : (f.patterns s).map Candidate.index = s.patternNumbers := by
  rw [Settings.patternNumbers, ← h.map_index_representatives hs hseed, List.filter_map, patterns]
  refine congrArg _ (List.filter_congr fun c hc => ?_)
  rw [Function.comp_apply, ← h.map_index_family hs hseed hc, List.length_map, Array.length_toList]

end Lists

/-! ## Problems -/

theorem forall₂_problemsOf {R : Candidate → Problem → Prop} {cs : List Candidate}
    (hR : ∀ c ∈ cs, ∀ r, R c (f.problemOf s c r).1) (r : Random) :
    List.Forall₂ R cs (f.problemsOf s cs r) := by
  induction cs generalizing r with
  | nil => exact .nil
  | cons c cs ih =>
    rw [List.forall_mem_cons] at hR
    exact .cons (hR.1 r) (ih hR.2 _)

/-- The problem made of a pattern poses it. -/
theorem Lists.poses_problemOf (h : f.Lists s s.searchSize) (hs : s.Accepted)
    (hseed : s.seedLen < addressable) (hc : c ∈ f.patterns s) (r : Random) :
    s.Poses c.index (f.problemOf s c r).1 := by
  have hmem := (mem_patterns_iff.1 hc).1
  have hrecords := (h.represents hmem).records
  have hdrawn : ∀ o ∈ f.drawn s c r,
      o ∈ f.representatives.toList ∧ o.examples = c.examples ∧ o ≠ c :=
    fun o ho => h.mem_drawn hmem ho
  exact {
    program := rfl
    seedLen := seedLen_problemOf hs
    examples := hrecords.examples
    correct := hrecords.primary
    foils := by
      refine ⟨(f.drawn s c r).map Candidate.index, ?_, ?_, ?_, ?_⟩
      · refine (h.nodup_cons_drawn hmem).of_cons.map_on fun o ho o' ho' => ?_
        exact (h.represents (hdrawn o ho).1).eq_of_index_eq (h.represents (hdrawn o' ho').1)
      · refine List.forall_mem_map.2 fun o ho => ?_
        obtain ⟨hr, hexamples, hne⟩ := hdrawn o ho
        rw [← h.map_index_family hs hseed hmem]
        refine ⟨List.mem_map_of_mem (h.mem_family_iff.2 ⟨hr, hexamples⟩), fun hi => hne ?_⟩
        exact (h.represents hr).eq_of_index_eq (h.represents hmem) hi
      · rw [List.length_map]
        exact h.length_drawn (Nat.lt_of_lt_of_le Nat.two_pos hs.two_le_choiceCount) hc
      · rw [foils_problemOf, List.forall₂_map_left_iff, List.forall₂_map_right_iff]
        exact List.forall₂_same.2 fun o ho =>
          ⟨rfl, (h.represents (hdrawn o ho).1).records.primary⟩ }

end Findings

/-! ## The search -/

namespace Settings

variable {policy : Policy}

/-- What a search answers that is not told to stop. -/
theorem outcome_of_proceed (hc : s.check = .ok ()) (hseed : s.seedLen < addressable)
    (hp : ∀ i r, policy i r = .proceed) :
    (s.patternNumbers.length < s.poolSize.toNat ∧ (s.search policy).outcome
        = .error (.fewPatterns s.patternNumbers.length s.poolSize.toNat s.difficulty)) ∨
      (s.poolSize.toNat ≤ s.patternNumbers.length ∧
        ∃ problems, (s.search policy).outcome = .ok problems ∧ List.Forall₂ s.Poses
          (s.patternNumbers.drop (s.patternNumbers.length - s.poolSize.toNat)) problems) := by
  have hs := accepted_of_check hc
  obtain ⟨f, h, hout⟩ := exists_lists_of_proceed hc hp
  rw [hout, problems, ← h.map_index_patterns hs hseed, List.length_map]
  split
  · next hfew => exact .inl ⟨hfew, rfl⟩
  · next henough =>
    refine .inr ⟨Nat.le_of_not_lt henough, _, rfl, ?_⟩
    rw [← List.map_drop, List.forall₂_map_left_iff]
    exact Findings.forall₂_problemsOf
      (fun c hc => h.poses_problemOf hs hseed (List.mem_of_mem_drop hc)) _

/-- **A search finds what it is to find.** If it is not told to stop, it fails exactly if there are
fewer patterns than problems to make, and says so with both numbers; otherwise it makes a problem of
each of the last patterns in order. -/
theorem search_meets_specification (s : Settings) (policy : Policy) (hc : s.check = .ok ())
    (hseed : s.seedLen < addressable) (hp : ∀ i r, policy i r = .proceed) :
    let found := s.patternNumbers
    let needed := s.poolSize.toNat
    let outcome := (s.search policy).outcome
    ((∃ e, outcome = .error e) ↔ found.length < needed) ∧
      (∀ e, outcome = .error e → e.diagnostic.kind = .configInvalid ∧ e.diagnostic.details =
        [("field", "pool_size"), ("found", toString found.length), ("needed", toString needed)]) ∧
      (needed ≤ found.length → ∃ problems, outcome = .ok problems ∧
        List.Forall₂ s.Poses (found.drop (found.length - needed)) problems) := by
  intro found needed outcome
  rcases outcome_of_proceed hc hseed hp with ⟨hfew, hout⟩ | ⟨henough, problems, hout, hposed⟩
  · refine ⟨iff_of_true ⟨_, hout⟩ hfew, fun e he => ?_,
      fun henough => absurd hfew (Nat.not_lt.2 henough)⟩
    rw [Except.error.inj (he.symm.trans hout)]
    exact ⟨rfl, rfl⟩
  · have hok : ∀ e, outcome ≠ .error e := by
      intro e he
      cases hout.symm.trans he
    exact ⟨iff_of_false (fun ⟨e, he⟩ => hok e he) (Nat.not_lt.2 henough),
      fun e he => absurd he (hok e), fun _ => ⟨problems, hout, hposed⟩⟩

/-- Of all programs of one digit, six continue two zeros with zeros and one and two each in a way of
its own; the exchange and the rotation are the last of them. -/
theorem search_meets_specification_zeros :
    let s : Settings :=
      { difficulty := 1, poolSize := 2, choiceCount := 3, sequenceLen := 4
        seeds := [[1, 2], [0, 0]], prompts := ⟨"", "", ""⟩ }
    s.check = .ok () ∧ s.seedLen < addressable ∧ s.patternNumbers = [5, 6, 7, 9, 11, 12] ∧
      ∃ problems, (s.search fun _ _ => .proceed).outcome = .ok problems ∧
        List.Forall₂ s.Poses [11, 12] problems := by
  intro s
  have hc : s.check = .ok () := by decide +kernel
  have hseed : s.seedLen < addressable := by decide
  have hfound : s.patternNumbers = [5, 6, 7, 9, 11, 12] := by decide +kernel
  have hsearch := search_meets_specification s (fun _ _ => .proceed) hc hseed fun _ _ => rfl
  rw [hfound] at hsearch
  exact ⟨hc, hseed, hfound, hsearch.2.2 (by decide)⟩

end Settings

end StackSeq
