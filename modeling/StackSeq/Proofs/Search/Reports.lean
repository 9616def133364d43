import Mathlib.Data.Nat.Find
import StackSeq.Proofs.Search.Groups

/-!
# The reports of a search

What a search reports is a `script` that its settings fix: one report after each full interval and
one at the end, each with the number of families that there are by then. A policy decides only where
the script is cut off. A scan asks it about one report after the other (`scanFrom_findingsUpTo`), so
the reports are the script up to the first one that is answered with a stop (`consult_of_stop`,
`consult_of_proceed`), and that answer is the only way in which a policy bears on the outcome:
`search_follows_script`.
-/

namespace StackSeq

variable {s : Settings} {policy : Policy}

namespace Settings

/-! ## The script -/

/-- After how many visits a report is due: every full interval before the end, and the end. -/
def checkpoints (s : Settings) : List Nat :=
  (List.range s.searchSize).filter (fun n => 0 < n ∧ s.progressInterval.toNat ∣ n)
    ++ [s.searchSize]

/-- The reports of a search that nothing stops. -/
def script (s : Settings) : List Progress :=
  s.checkpoints.map fun n => { scanned := n, total := s.searchSize, groups := s.groups n }

/-- The outcome of a search that was told to stop after `n` visits. -/
def IsCancelledAt (n : Nat) (outcome : Except SearchError (List Problem)) : Prop :=
  ∃ e, outcome = .error e ∧ e.diagnostic.kind = .cancelled ∧
    e.diagnostic.details = [("scanned", toString n)]

/-- The result is that of a search that has followed the script. -/
structure FollowsScript (s : Settings) (policy : Policy) (result : SearchResult) : Prop where
  /-- Reports go on in the enumeration, and the number of families never falls. -/
  increasing : s.script.Pairwise fun r r' => r.scanned < r'.scanned ∧ r.groups ≤ r'.groups
  /-- The first report that is answered with a stop is the last one that is made. -/
  stopped : ∀ k (hk : k < s.script.length), policy k s.script[k] = .stop →
    (∀ j (hj : j < k), policy j s.script[j] = .proceed) →
      result.reports = s.script.take (k + 1) ∧ IsCancelledAt s.script[k].scanned result.outcome
  /-- If no report is answered with a stop, all are made, and the policy does not bear on the
  outcome. -/
  finished : (∀ k (hk : k < s.script.length), policy k s.script[k] = .proceed) →
    result.reports = s.script ∧ result.outcome = (s.search fun _ _ => .proceed).outcome
  cancelled_iff : (∃ n, IsCancelledAt n result.outcome) ↔
    ∃ k, ∃ hk : k < s.script.length, policy k s.script[k] = .stop
  /-- The interval between reports does not bear on the outcome either. -/
  independent : ∀ interval ≠ 0,
    ({ s with progressInterval := interval }.search fun _ _ => .proceed).outcome
      = (s.search fun _ _ => .proceed).outcome

/-- After how many visits a report is due in a scan of `left` numbers from `index` on. -/
def checkpointsFrom (s : Settings) (index left : Nat) : List Nat :=
  (List.range' index left).filter (fun n => 0 < n ∧ s.progressInterval.toNat ∣ n)
    ++ [index + left]

theorem checkpointsFrom_zero : s.checkpointsFrom 0 s.searchSize = s.checkpoints := by
  unfold checkpointsFrom checkpoints
  rw [List.range_eq_range', Nat.zero_add]

theorem checkpointsFrom_succ_of_due {index left : Nat} (h0 : 0 < index)
    (h : s.progressInterval.toNat ∣ index) :
    s.checkpointsFrom index (left + 1) = index :: s.checkpointsFrom (index + 1) left := by
  unfold checkpointsFrom
  rw [List.range'_succ, List.filter_cons_of_pos (by simp [h0, h]), List.cons_append,
    Nat.add_assoc, Nat.add_comm left 1]

theorem checkpointsFrom_succ_of_not_due {index left : Nat}
    (h : ¬(0 < index ∧ s.progressInterval.toNat ∣ index)) :
    s.checkpointsFrom index (left + 1) = s.checkpointsFrom (index + 1) left := by
  unfold checkpointsFrom
  rw [List.range'_succ, List.filter_cons_of_neg (by simpa using h), Nat.add_assoc,
    Nat.add_comm left 1]

theorem pairwise_checkpoints : s.checkpoints.Pairwise (· < ·) := by
  unfold checkpoints
  rw [List.pairwise_append]
  refine ⟨List.pairwise_lt_range.filter _, List.pairwise_singleton .., fun m hm n hn => ?_⟩
  rw [List.mem_singleton.1 hn]
  exact List.mem_range.1 (List.mem_of_mem_filter hm)

theorem le_searchSize_of_mem_checkpoints {n : Nat} (h : n ∈ s.checkpoints) : n ≤ s.searchSize := by
  rcases List.mem_append.1 h with h | h
  · exact Nat.le_of_lt (List.mem_range.1 (List.mem_of_mem_filter h))
  · exact Nat.le_of_eq (List.mem_singleton.1 h)

end Settings

/-! ## Consulting a policy -/

/-- The reports that are made of those that are due, and the one that was answered with a stop;
`made` reports came before. -/
def consult (policy : Policy) : (made : Nat) → (due : List Progress) →
    List Progress × Option Progress
  | _, [] => ([], none)
  | made, r :: due =>
    match policy made r with
    | .stop => ([r], some r)
    | .proceed => (r :: (consult policy (made + 1) due).1, (consult policy (made + 1) due).2)

theorem consult_of_stop {made k : Nat} {due : List Progress} (hk : k < due.length)
    (hstop : policy (made + k) due[k] = .stop)
    (hbefore : ∀ j (hj : j < k), policy (made + j) due[j] = .proceed) :
    consult policy made due = (due.take (k + 1), some due[k]) := by
  induction due generalizing made k with
  | nil => cases hk
  | cons r due ih =>
    rw [consult]
    cases k with
    | zero =>
      rw [Nat.add_zero, List.getElem_cons_zero] at hstop
      rw [hstop]
      rfl
    | succ k =>
      have hfirst : policy made r = .proceed := hbefore 0 (Nat.succ_pos k)
      have hlt : k < due.length := Nat.lt_of_succ_lt_succ hk
      have hlater : consult policy (made + 1) due = (due.take (k + 1), some due[k]) := by
        refine ih hlt ?_ fun j hj => ?_
        · rw [Nat.add_right_comm]
          exact hstop
        · rw [Nat.add_right_comm]
          exact hbefore (j + 1) (Nat.succ_lt_succ hj)
      rw [hfirst, hlater]
      rfl

theorem consult_of_proceed {made : Nat} {due : List Progress}
    (h : ∀ k (hk : k < due.length), policy (made + k) due[k] = .proceed) :
    consult policy made due = (due, none) := by
  induction due generalizing made with
  | nil => rfl
  | cons r due ih =>
    have hfirst : policy made r = .proceed := h 0 (Nat.succ_pos _)
    have hlater : consult policy (made + 1) due = (due, none) := by
      refine ih fun k hk => ?_
      rw [Nat.add_right_comm]
      exact h (k + 1) (Nat.succ_lt_succ hk)
    rw [consult, hfirst, hlater]

/-- A policy stops at some first report or at none. -/
theorem exists_first_stop_or_proceed (policy : Policy) (due : List Progress) :
    (∃ k, ∃ hk : k < due.length, policy k due[k] = .stop ∧
      ∀ j (hj : j < k), policy j due[j] = .proceed) ∨
    ∀ k (hk : k < due.length), policy k due[k] = .proceed := by
  have hproceed : ∀ k (hk : k < due.length),
      policy k due[k] ≠ .stop → policy k due[k] = .proceed := by
    intro k hk hne
    cases h : policy k due[k] with
    | stop => exact absurd h hne
    | proceed => rfl
  classical
  by_cases hex : ∃ k, ∃ hk : k < due.length, policy k due[k] = .stop
  · obtain ⟨hk, hstop⟩ := Nat.find_spec hex
    refine .inl ⟨Nat.find hex, hk, hstop, fun j hj => ?_⟩
    have hlt : j < due.length := Nat.lt_trans hj hk
    exact hproceed j hlt fun h => Nat.find_min hex hj ⟨hlt, h⟩
  · exact .inr fun k hk => hproceed k hk fun h => hex ⟨k, hk, h⟩

namespace Settings

/-! ## The scan -/

/-- The report of what a scan has found after `n` visits. -/
def reportOf (s : Settings) (n : Nat) : Progress :=
  ⟨n, s.searchSize, (s.findingsUpTo n).familyCount⟩

/-- What a scan ends with, if it was stopped at a report or not. -/
def verdictOn (s : Settings) (n : Nat) : Option Progress → Except SearchError Findings
  | some r => .error (.cancelled r.scanned)
  | none => .ok (s.findingsUpTo n)

/-- **A scan consults the policy on one report after the other**, and on nothing else. -/
theorem scanFrom_findingsUpTo (policy : Policy) (left index : Nat) (reports : Array Progress) :
    let told := consult policy reports.size ((s.checkpointsFrom index left).map s.reportOf)
    let result := s.scanFrom policy left index (s.findingsUpTo index) reports
    result.1.toList = reports.toList ++ told.1 ∧
      result.2 = s.verdictOn (index + left) told.2 := by
  -- What has been found so far is always what the numbers below `index` give.
  induction left generalizing index reports with
  | zero =>
    have htold : (s.checkpointsFrom index 0).map s.reportOf = [s.reportOf index] := rfl
    rw [htold, consult, consult, scanFrom]
    cases hpolicy : policy reports.size (s.reportOf index) with
    | stop =>
      rw [reportOf] at hpolicy
      simp only [hpolicy]
      exact ⟨Array.toList_push, rfl⟩
    | proceed =>
      rw [reportOf] at hpolicy
      simp only [hpolicy]
      exact ⟨Array.toList_push, rfl⟩
  | succ left ih =>
    have hadd : index + (left + 1) = index + 1 + left := by omega
    rw [hadd, scanFrom]
    -- A report that is due comes before the visit, so it leaves the number `index` out.
    by_cases hdue : 0 < index ∧ s.progressInterval.toNat ∣ index
    · have hif : index ≠ 0 ∧ index % s.progressInterval.toNat = 0 :=
        ⟨Nat.ne_of_gt hdue.1, Nat.mod_eq_zero_of_dvd hdue.2⟩
      rw [if_pos hif, checkpointsFrom_succ_of_due hdue.1 hdue.2, List.map_cons, consult]
      cases hpolicy : policy reports.size (s.reportOf index) with
      | stop =>
        rw [reportOf] at hpolicy
        simp only [hpolicy]
        exact ⟨Array.toList_push, rfl⟩
      | proceed =>
        have hrest := ih (index + 1) (reports.push (s.reportOf index))
        rw [Array.size_push, Array.toList_push] at hrest
        rw [reportOf] at hpolicy
        simp only [hpolicy]
        rw [List.append_cons]
        exact hrest
    · have hif : ¬(index ≠ 0 ∧ index % s.progressInterval.toNat = 0) := by
        rw [Nat.pos_iff_ne_zero, Nat.dvd_iff_mod_eq_zero] at hdue
        exact hdue
      rw [if_neg hif, checkpointsFrom_succ_of_not_due hdue]
      exact ih (index + 1) reports

/-- The reports that are due in a search are those of its script. -/
theorem map_reportOf_checkpoints (hs : s.Accepted) (hseed : s.seedLen < addressable) :
    s.checkpoints.map s.reportOf = s.script := by
  refine List.map_congr_left fun n hn => ?_
  rw [reportOf, familyCount_findingsUpTo hs hseed (le_searchSize_of_mem_checkpoints hn)]

/-! ## The search -/

/-- The outcome of a search by the report that was answered with a stop. -/
def outcomeOn (s : Settings) : Option Progress → Except SearchError (List Problem)
  | some r => .error (.cancelled r.scanned)
  | none => s.problems (s.findingsUpTo s.searchSize)

/-- **A search consults the policy on its script.** -/
theorem search_eq_consult (hc : s.check = .ok ()) (hseed : s.seedLen < addressable) :
    s.search policy
      = ⟨(consult policy 0 s.script).1, s.outcomeOn (consult policy 0 s.script).2⟩ := by
  have hscan := scanFrom_findingsUpTo (s := s) policy s.searchSize 0 #[]
  rw [checkpointsFrom_zero, map_reportOf_checkpoints (accepted_of_check hc) hseed] at hscan
  obtain ⟨hreports, hresult⟩ := hscan
  have hsearch : s.search policy =
      ⟨(s.scanFrom policy s.searchSize 0 (s.findingsUpTo 0) #[]).1.toList,
        (s.scanFrom policy s.searchSize 0 (s.findingsUpTo 0) #[]).2.bind s.problems⟩ := by
    rw [search, hc]
    rfl
  rw [hsearch, hreports, hresult, Nat.zero_add]
  cases (consult policy 0 s.script).2 with
  | some r => rfl
  | none => rfl

theorem search_of_proceed (hc : s.check = .ok ()) (hseed : s.seedLen < addressable)
    (h : ∀ k (hk : k < s.script.length), policy k s.script[k] = .proceed) :
    s.search policy = ⟨s.script, s.problems (s.findingsUpTo s.searchSize)⟩ := by
  have htold : consult policy 0 s.script = (s.script, none) :=
    consult_of_proceed fun k hk => (Nat.zero_add k).symm ▸ h k hk
  rw [search_eq_consult hc hseed, htold, outcomeOn]

theorem search_of_stop (hc : s.check = .ok ()) (hseed : s.seedLen < addressable) {k : Nat}
    (hk : k < s.script.length) (hstop : policy k s.script[k] = .stop)
    (hbefore : ∀ j (hj : j < k), policy j s.script[j] = .proceed) :
    s.search policy = ⟨s.script.take (k + 1), .error (.cancelled s.script[k].scanned)⟩ := by
  have htold : consult policy 0 s.script = (s.script.take (k + 1), some s.script[k]) :=
    consult_of_stop hk ((Nat.zero_add k).symm ▸ hstop) fun j hj =>
      (Nat.zero_add j).symm ▸ hbefore j hj
  rw [search_eq_consult hc hseed, htold, outcomeOn]

/-- A search that was not stopped does not fail as if it were. -/
theorem not_isCancelledAt_problems {f : Findings} {n : Nat} : ¬IsCancelledAt n (s.problems f) := by
  rintro ⟨e, he, hkind, -⟩
  unfold problems at he
  dsimp only at he
  split at he
  · rw [← Except.error.inj he] at hkind
    cases hkind
  · cases he

/-! ## Other intervals -/

theorem findingsUpTo_of_interval (interval : UInt64) (n : Nat) :
    { s with progressInterval := interval }.findingsUpTo n = s.findingsUpTo n := by
  induction n with
  | zero => rfl
  | succ n ih =>
    rw [findingsUpTo, ih]
    rfl

theorem problemsOf_of_interval (interval : UInt64) (f : Findings) (cs : List Candidate)
    (r : Random) :
    f.problemsOf { s with progressInterval := interval } cs r = f.problemsOf s cs r := by
  induction cs generalizing r with
  | nil => rfl
  | cons c cs ih =>
    rw [Findings.problemsOf, ih]
    rfl

theorem problems_of_interval (interval : UInt64) :
    let other := { s with progressInterval := interval }
    other.problems (other.findingsUpTo other.searchSize)
      = s.problems (s.findingsUpTo s.searchSize) := by
  intro other
  have hsize : other.searchSize = s.searchSize := rfl
  rw [hsize, findingsUpTo_of_interval, problems, problemsOf_of_interval]
  rfl

/-- Settings that pass the check pass it with any other interval but zero. -/
theorem check_of_interval {interval : UInt64} (h0 : interval ≠ 0) (hc : s.check = .ok ()) :
    { s with progressInterval := interval }.check = .ok () := by
  simp only [check, check_bind_eq_ok_iff, require_eq_ok_iff] at hc ⊢
  obtain ⟨hdifficulty, hpool, hchoices, hseeds, hlengths, hsequence, hterm, horigin, -, hrest⟩ := hc
  exact ⟨hdifficulty, hpool, hchoices, hseeds, hlengths, hsequence, hterm, horigin,
    bne_iff_ne.2 h0, hrest⟩

theorem outcome_of_interval {interval : UInt64} (h0 : interval ≠ 0) (hc : s.check = .ok ())
    (hseed : s.seedLen < addressable) :
    ({ s with progressInterval := interval }.search fun _ _ => .proceed).outcome
      = (s.search fun _ _ => .proceed).outcome := by
  rw [search_of_proceed (check_of_interval h0 hc) hseed fun _ _ => rfl,
    search_of_proceed hc hseed fun _ _ => rfl]
  exact problems_of_interval interval

/-! ## The script is followed -/

theorem pairwise_script : s.script.Pairwise fun r r' =>
    r.scanned < r'.scanned ∧ r.groups ≤ r'.groups :=
  List.pairwise_map.2 (pairwise_checkpoints.imp fun h => ⟨h, groups_mono (Nat.le_of_lt h)⟩)

/-- **A search follows its script.** Settings that fail the check are not searched. Otherwise the
policy is asked about the reports of the script in order, up to the first that it answers with a
stop; the search then fails with what that report has visited, and in all other cases ends as one
that nothing stops, whatever the interval between reports. -/
theorem search_follows_script (s : Settings) (policy : Policy) :
    (∀ fault, s.check = .error fault → s.search policy = ⟨[], .error (.settings fault)⟩) ∧
      (s.check = .ok () → s.seedLen < addressable → s.FollowsScript policy (s.search policy)) := by
  refine ⟨fun fault hfault => by rw [search, hfault], fun hc hseed => ?_⟩
  have hcancelled : ∀ r : Progress,
      IsCancelledAt r.scanned (.error (.cancelled r.scanned)) := fun r => ⟨_, rfl, rfl, rfl⟩
  exact {
    increasing := pairwise_script
    stopped := fun k hk hstop hbefore => by
      rw [search_of_stop hc hseed hk hstop hbefore]
      exact ⟨rfl, hcancelled _⟩
    finished := fun h => by
      rw [search_of_proceed hc hseed h, search_of_proceed hc hseed fun _ _ => rfl]
      exact ⟨rfl, rfl⟩
    cancelled_iff := by
      -- A stop anywhere on the script means that there is a first one, and that one is made.
      rcases exists_first_stop_or_proceed policy s.script with ⟨k, hk, hstop, hbefore⟩ | h
      · rw [search_of_stop hc hseed hk hstop hbefore]
        exact iff_of_true ⟨_, hcancelled _⟩ ⟨k, hk, hstop⟩
      · rw [search_of_proceed hc hseed h]
        refine iff_of_false ?_ ?_
        · rintro ⟨n, hn⟩
          exact not_isCancelledAt_problems hn
        · rintro ⟨k, hk, hstop⟩
          rw [h k hk] at hstop
          cases hstop
    independent := fun interval h0 => outcome_of_interval h0 hc hseed }

/-- Told to stop at its second report, a search of sixteen programs has visited ten of them. -/
theorem search_follows_script_zeros :
    let s : Settings :=
      { difficulty := 1, poolSize := 2, choiceCount := 3, sequenceLen := 4
        seeds := [[1, 2], [0, 0]], progressInterval := 5, prompts := ⟨"", "", ""⟩ }
    let policy : Policy := fun k _ => if k = 1 then .stop else .proceed
    s.check = .ok () ∧ s.seedLen < addressable ∧
      s.script = [⟨5, 16, 0⟩, ⟨10, 16, 1⟩, ⟨15, 16, 2⟩, ⟨16, 16, 2⟩] ∧
      (s.search policy).reports = [⟨5, 16, 0⟩, ⟨10, 16, 1⟩] ∧
      IsCancelledAt 10 (s.search policy).outcome := by
  intro s policy
  have hc : s.check = .ok () := by decide +kernel
  have hseed : s.seedLen < addressable := by decide
  have hscript : s.script = [⟨5, 16, 0⟩, ⟨10, 16, 1⟩, ⟨15, 16, 2⟩, ⟨16, 16, 2⟩] := by decide +kernel
  have hfollows := ((search_follows_script s policy).2 hc hseed).stopped
  simp only [hscript] at hfollows
  have hstop := hfollows 1 (by decide) rfl fun j hj => by
    obtain rfl := Nat.lt_one_iff.1 hj
    rfl
  exact ⟨hc, hseed, hscript, hstop⟩

end Settings

end StackSeq
