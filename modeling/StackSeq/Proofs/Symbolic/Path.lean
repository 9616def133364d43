import Mathlib.Data.List.Forall2
import StackSeq.Proofs.Symbolic.Execute

/-!
# The points and paths of an exploration

What holds of the stack before a run and is kept by every operation holds at every point of an
exploration (`forall_points_exploreOps`). The instance that matters is `OnPath`: before anything is
merged every slot is a single expression, nothing is ragged and no slot may be missing. It holds at
the points of an exploration whose counts all fit (`Exploration.InRange`); for that it is enough
that the origin is not too deep (`Program.inRange_explore`).

`Follows` says that a run on a known stack takes one of the paths of an exploration, its points
and those of the path being related one by one. It is the only thing that later proofs use of the
branching.
-/

namespace StackSeq

/-! ## Stacks before a merge -/

namespace SymbolicStack

/-- What every stack on a path of an exploration with this origin satisfies. -/
structure OnPath (originDepth : Nat) (s : SymbolicStack) : Prop extends s.WellFormed where
  originDepth_eq : s.originDepth = originDepth
  shortfall_eq : s.shortfall = 0
  ragged_eq : s.ragged = false
  single : ∀ x ∈ s.topDown, ∃ e, x = .single e

namespace OnPath

variable {originDepth : Nat} {s : SymbolicStack}

theorem unmerged (h : s.OnPath originDepth) : s.Unmerged originDepth :=
  ⟨h.originDepth_eq, h.topRefs_le, h.topRefs_eq, h.shortfall_eq, h.ragged_eq, h.single⟩

theorem of_unmerged (hw : s.WellFormed) (h : s.Unmerged originDepth) : s.OnPath originDepth :=
  ⟨hw, h.originDepth_eq, h.shortfall_eq, h.ragged_eq, h.single⟩

theorem initial (originDepth : Nat) : OnPath originDepth (.initial originDepth) :=
  of_unmerged (.initial originDepth) (.initial originDepth)

theorem pop_single (h : s.OnPath originDepth) : ∃ e, s.pop.1 = .single e :=
  h.unmerged.pop_single

theorem pop (h : s.OnPath originDepth) : s.pop.2.OnPath originDepth :=
  of_unmerged h.toWellFormed.pop h.unmerged.pop

theorem push {e : Expr} (h : s.OnPath originDepth) (hr : (s.push (.single e)).InRange) :
    (s.push (.single e)).OnPath originDepth :=
  of_unmerged (h.toWellFormed.push hr) h.unmerged.push

/-- **Every operation keeps it**, as far as the counts fit. -/
theorem execute (h : s.OnPath originDepth) {index : Nat} {op : Op}
    (hr : (s.execute index op).InRange) : (s.execute index op).OnPath originDepth :=
  of_unmerged (h.toWellFormed.execute hr.pushesFit index) (h.unmerged.execute index op)

end OnPath

end SymbolicStack

/-! ## Points, paths and ends -/

namespace Exploration

/-- A path is made of points of the exploration, in the order of exploration. -/
theorem sublist_points {t : Exploration} {path : List SymbolicBoundary} (h : path ∈ t.paths) :
    path.Sublist t.points := by
  induction t generalizing path with
  | halt s => rw [List.mem_singleton.1 h]; exact List.Sublist.refl _
  | step remaining s next ih =>
    obtain ⟨tail, htail, rfl⟩ := List.mem_map.1 h
    exact (ih htail).cons_cons _
  | fork remaining s fallThrough taken ihf iht =>
    obtain ⟨tail, htail, rfl⟩ := List.mem_map.1 h
    refine List.Sublist.cons_cons _ ?_
    rcases List.mem_append.1 htail with hf | ht
    · exact (ihf hf).trans (List.sublist_append_left _ _)
    · exact (iht ht).trans (List.sublist_append_right _ _)

theorem mem_points_of_mem_ends {t : Exploration} {s : SymbolicStack} (h : s ∈ t.ends) :
    ⟨[], s⟩ ∈ t.points := by
  induction t with
  | halt stack => rw [List.mem_singleton.1 h]; exact List.mem_singleton_self _
  | step remaining stack next ih => exact List.mem_cons_of_mem _ (ih h)
  | fork remaining stack fallThrough taken ihf iht =>
    refine List.mem_cons_of_mem _ (List.mem_append.2 ?_)
    rcases List.mem_append.1 h with hf | ht
    · exact .inl (ihf hf)
    · exact .inr (iht ht)

end Exploration

/-- An operation leads one way on, past it and however many slots it skips; only a branch that is
not decided leads two ways. -/
theorem exploreOps_cons (op : Op) (rest : List Op) (index : Nat) (s : SymbolicStack) :
    (∃ slots, exploreOps (op :: rest) index 0 s
      = .step (op :: rest) s (exploreOps rest (index + 1) slots (s.execute index op))) ∨
    (∃ offset, op = .bgtz offset ∧ s.pop.1.decidePositive = none ∧
      exploreOps (op :: rest) index 0 s
        = .fork (op :: rest) s (exploreOps rest (index + 1) 0 (s.execute index op))
            (exploreOps rest (index + 1) offset.toNat (s.execute index op))) := by
  cases op with
  | bgtz offset =>
    rw [exploreOps]
    split
    · exact .inl ⟨offset.toNat, rfl⟩
    · exact .inl ⟨0, rfl⟩
    · next hd => exact .inr ⟨offset, rfl, hd, rfl⟩
  | _ => exact .inl ⟨0, rfl⟩

/-- An exploration begins on the given stack, whatever is skipped. -/
theorem exists_mem_points_exploreOps (ops : List Op) (index slots : Nat) (s : SymbolicStack) :
    ∃ b ∈ (exploreOps ops index slots s).points, b.stack = s := by
  induction ops generalizing index slots with
  | nil => exact ⟨_, List.mem_singleton_self _, rfl⟩
  | cons op rest ih =>
    cases slots with
    | succ slots => exact ih (index + 1) (slots + 1 - op.width)
    | zero =>
      rcases exploreOps_cons op rest index s with ⟨slots, h⟩ | ⟨offset, -, -, h⟩ <;> rw [h]
      · exact ⟨_, List.mem_cons_self, rfl⟩
      · exact ⟨_, List.mem_cons_self, rfl⟩

/-- Where an operation is next, the stack after it is that of some point. -/
theorem exists_next_point {ops : List Op} {index slots : Nat} {s : SymbolicStack}
    {b : SymbolicBoundary} {op : Op} {rest : List Op}
    (hb : b ∈ (exploreOps ops index slots s).points) (h : b.remaining = op :: rest) :
    ∃ i, ∃ next ∈ (exploreOps ops index slots s).points, next.stack = b.stack.execute i op := by
  induction ops generalizing index slots s with
  | nil =>
    rw [List.mem_singleton.1 hb] at h
    cases h
  | cons first tail ih =>
    cases slots with
    | succ slots => exact ih hb
    | zero =>
      have hstart := fun slots =>
        exists_mem_points_exploreOps tail (index + 1) slots (s.execute index first)
      rcases exploreOps_cons first tail index s with ⟨slots, he⟩ | ⟨offset, -, -, he⟩ <;>
        rw [he] at hb ⊢ <;> rcases List.mem_cons.1 hb with rfl | hb
      · cases h
        obtain ⟨next, hnext, heq⟩ := hstart slots
        exact ⟨index, next, List.mem_cons_of_mem _ hnext, heq⟩
      · obtain ⟨i, next, hnext, heq⟩ := ih hb
        exact ⟨i, next, List.mem_cons_of_mem _ hnext, heq⟩
      · cases h
        obtain ⟨next, hnext, heq⟩ := hstart 0
        exact ⟨index, next, List.mem_cons_of_mem _ (List.mem_append_left _ hnext), heq⟩
      · rcases List.mem_append.1 hb with hb | hb
        · obtain ⟨i, next, hnext, heq⟩ := ih hb
          exact ⟨i, next, List.mem_cons_of_mem _ (List.mem_append_left _ hnext), heq⟩
        · obtain ⟨i, next, hnext, heq⟩ := ih hb
          exact ⟨i, next, List.mem_cons_of_mem _ (List.mem_append_right _ hnext), heq⟩

/-- **What every operation keeps holds at every point.** Of the points before and after an
operation, `Q` may be taken for granted if it is known of all points. -/
theorem forall_points_exploreOps {P : List Op → SymbolicStack → Prop} {Q : SymbolicBoundary → Prop}
    (hskip : ∀ op rest s, P (op :: rest) s → P rest s)
    (hstep : ∀ op rest index s, P (op :: rest) s → Q ⟨op :: rest, s⟩ →
      (∃ remaining, Q ⟨remaining, s.execute index op⟩) → P rest (s.execute index op))
    {ops : List Op} {index slots : Nat} {s : SymbolicStack}
    (hq : ∀ b ∈ (exploreOps ops index slots s).points, Q b) (hs : P ops s) :
    ∀ b ∈ (exploreOps ops index slots s).points, P b.remaining b.stack := by
  induction ops generalizing index slots s with
  | nil =>
    intro b hb
    rw [List.mem_singleton.1 hb]
    exact hs
  | cons op rest ih =>
    cases slots with
    | succ slots => exact ih hq (hskip op rest s hs)
    | zero =>
      -- The next point, whatever is skipped, has the stack after the operation: `Q` holds of it.
      have hnext : ∀ slots, Q ⟨op :: rest, s⟩ →
          (∀ b ∈ (exploreOps rest (index + 1) slots (s.execute index op)).points, Q b) →
          ∀ b ∈ (exploreOps rest (index + 1) slots (s.execute index op)).points,
            P b.remaining b.stack := by
        intro slots hfirst hq
        obtain ⟨⟨remaining, _⟩, hb, rfl⟩ := exists_mem_points_exploreOps rest (index + 1) slots
          (s.execute index op)
        exact ih hq (hstep op rest index s hs hfirst ⟨remaining, hq _ hb⟩)
      rcases exploreOps_cons op rest index s with ⟨slots, h⟩ | ⟨offset, -, -, h⟩ <;>
        rw [h] at hq ⊢
      · obtain ⟨hfirst, hq⟩ := List.forall_mem_cons.1 hq
        exact List.forall_mem_cons.2 ⟨hs, hnext slots hfirst hq⟩
      · obtain ⟨hfirst, hq⟩ := List.forall_mem_cons.1 hq
        obtain ⟨hf, ht⟩ := List.forall_mem_append.1 hq
        exact List.forall_mem_cons.2
          ⟨hs, List.forall_mem_append.2 ⟨hnext 0 hfirst hf, hnext offset.toNat hfirst ht⟩⟩

/-- All counts of the stacks of an exploration fit into signed 64-bit integers. -/
def Exploration.InRange (t : Exploration) : Prop :=
  ∀ b ∈ t.points, b.stack.InRange

instance (t : Exploration) : Decidable t.InRange :=
  inferInstanceAs (Decidable (∀ b ∈ t.points, b.stack.InRange))

namespace Exploration

variable {ops : List Op} {s : SymbolicStack} {next fallThrough taken : Exploration}

theorem inRange_step : (step ops s next).InRange ↔ s.InRange ∧ next.InRange :=
  List.forall_mem_cons

theorem inRange_fork :
    (fork ops s fallThrough taken).InRange ↔ s.InRange ∧ fallThrough.InRange ∧ taken.InRange :=
  List.forall_mem_cons.trans (and_congr_right fun _ => List.forall_mem_append)

theorem inRange_start {index slots : Nat} (h : (exploreOps ops index slots s).InRange) :
    s.InRange := by
  obtain ⟨b, hb, rfl⟩ := exists_mem_points_exploreOps ops index slots s
  exact h b hb

end Exploration

namespace Program

variable {p : Program} {originDepth : Nat}

/-- What the counts lack of their bounds is left for the operations that remain. -/
theorem counts_of_mem_points {b : SymbolicBoundary} (h : b ∈ (p.explore originDepth).points) :
    b.stack.span + (b.remaining.length : Nat) ≤ (originDepth + p.length : Nat) ∧
      b.stack.reached + 3 * b.remaining.length ≤ 3 * p.length := by
  refine forall_points_exploreOps (Q := fun _ => True)
    (P := fun ops s => s.span + (ops.length : Nat) ≤ (originDepth + p.length : Nat) ∧
      s.reached + 3 * ops.length ≤ 3 * p.length) ?_ ?_ (fun _ _ => trivial) ?_ b h
  · rintro op rest s ⟨hspan, hreached⟩
    rw [List.length_cons] at hspan hreached
    omega
  · rintro op rest index s ⟨hspan, hreached⟩ - -
    have := s.span_execute_le index op
    have := s.reached_execute_le index op
    have := op.operands_le
    rw [List.length_cons] at hspan hreached
    omega
  · exact ⟨Int.le_of_eq rfl, Nat.le_of_eq (Nat.zero_add _)⟩

/-- **A bound for the depth of the origin.** Each operation raises the stack by at most one place
and takes at most three values from below. -/
theorem inRange_explore (ho : originDepth + p.length < 0x8000_0000_0000_0000)
    (hp : 3 * p.length ≤ 0x8000_0000_0000_0000) : (p.explore originDepth).InRange := by
  intro b hb
  obtain ⟨hspan, hreached⟩ := counts_of_mem_points hb
  exact ⟨by omega, by omega⟩

theorem onPath_of_mem_points (hr : (p.explore originDepth).InRange) {b : SymbolicBoundary}
    (h : b ∈ (p.explore originDepth).points) : b.stack.OnPath originDepth :=
  forall_points_exploreOps (P := fun _ s => s.OnPath originDepth) (Q := fun b => b.stack.InRange)
    (fun _ _ _ hs => hs) (fun _ _ _ _ hs _ ⟨_, hnext⟩ => hs.execute hnext) hr
    (.initial originDepth) b h

theorem onPath_of_mem_ends (hr : (p.explore originDepth).InRange) {s : SymbolicStack}
    (h : s ∈ (p.explore originDepth).ends) : s.OnPath originDepth :=
  onPath_of_mem_points hr (Exploration.mem_points_of_mem_ends h)

end Program

/-! ## The path of a run -/

/-- A run takes one of the paths of an exploration, and its stacks are related to those of the
path point by point. -/
inductive Exploration.Follows (R : Stack → SymbolicStack → Prop) :
    Exploration → List Boundary → Prop where
  | halt {c : Stack} {s : SymbolicStack} (h : R c s) : Follows R (.halt s) [⟨[], c⟩]
  | step {ops : List Op} {c : Stack} {s : SymbolicStack} {next : Exploration}
      {run : List Boundary} (h : R c s) (hnext : Follows R next run) :
      Follows R (.step ops s next) (⟨ops, c⟩ :: run)
  | fallThrough {ops : List Op} {c : Stack} {s : SymbolicStack} {f t : Exploration}
      {run : List Boundary} (h : R c s) (hnext : Follows R f run) :
      Follows R (.fork ops s f t) (⟨ops, c⟩ :: run)
  | taken {ops : List Op} {c : Stack} {s : SymbolicStack} {f t : Exploration}
      {run : List Boundary} (h : R c s) (hnext : Follows R t run) :
      Follows R (.fork ops s f t) (⟨ops, c⟩ :: run)

namespace Exploration.Follows

variable {R : Stack → SymbolicStack → Prop} {t : Exploration} {run : List Boundary}

theorem exists_path (h : t.Follows R run) :
    ∃ path ∈ t.paths,
      List.Forall₂ (fun c b => b.remaining = c.remaining ∧ R c.stack b.stack) run path := by
  induction h with
  | halt hR => exact ⟨_, List.mem_singleton_self _, .cons ⟨rfl, hR⟩ .nil⟩
  | step hR _ ih =>
    obtain ⟨path, hp, hall⟩ := ih
    exact ⟨_, List.mem_map_of_mem hp, .cons ⟨rfl, hR⟩ hall⟩
  | fallThrough hR _ ih =>
    obtain ⟨path, hp, hall⟩ := ih
    exact ⟨_, List.mem_map_of_mem (List.mem_append_left _ hp), .cons ⟨rfl, hR⟩ hall⟩
  | taken hR _ ih =>
    obtain ⟨path, hp, hall⟩ := ih
    exact ⟨_, List.mem_map_of_mem (List.mem_append_right _ hp), .cons ⟨rfl, hR⟩ hall⟩

/-- The end of the run is related to one of the ends of the exploration. -/
theorem exists_end (h : t.Follows R run) :
    ∃ c, run.getLast? = some c ∧ ∃ s ∈ t.ends, R c.stack s := by
  induction h with
  | halt hR => exact ⟨_, rfl, _, List.mem_singleton_self _, hR⟩
  | step _ _ ih =>
    obtain ⟨c, hc, s, hs, hR⟩ := ih
    exact ⟨c, by rw [List.getLast?_cons, hc]; rfl, s, hs, hR⟩
  | fallThrough _ _ ih =>
    obtain ⟨c, hc, s, hs, hR⟩ := ih
    exact ⟨c, by rw [List.getLast?_cons, hc]; rfl, s, List.mem_append_left _ hs, hR⟩
  | taken _ _ ih =>
    obtain ⟨c, hc, s, hs, hR⟩ := ih
    exact ⟨c, by rw [List.getLast?_cons, hc]; rfl, s, List.mem_append_right _ hs, hR⟩

end Exploration.Follows

end StackSeq
