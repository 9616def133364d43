import Mathlib.Logic.Basic
import StackSeq.Proofs.Run.Underflow
import StackSeq.Proofs.Symbolic.Fold
import StackSeq.Proofs.Symbolic.Invariant

/-!
# Operations as pops and pushes

Every operation takes its operands off the stack and then pushes its results (`execute_eq`), so what
popping and pushing do is all that an operation does: to the counts (`span_execute`,
`reached_execute_le`) and to what `Unmerged` says of a stack on the path of one run.

`Unmerged` does not depend on the height, so no operation can break it. What a wrapped height breaks
is the rest of `WellFormed`, the sides of the origin on which the slots lie.
-/

namespace StackSeq

/-! ## Operands and results -/

namespace Op

/-- How many values the operation puts on the stack. -/
def results : Op → Nat
  | bgtz _ => 0
  | push _ | len | binary _ => 1
  | dup | swap => 2
  | rot | unrot => 3

theorem operands_le (op : Op) : op.operands ≤ 3 := by
  cases op <;> simp [operands]

theorem results_le (op : Op) : op.results ≤ op.operands + 1 := by
  cases op <;> simp [results, operands]

end Op

namespace SymbolicStack

variable {s : SymbolicStack}

/-- The stack without this many of its topmost slots. -/
def popMany (s : SymbolicStack) : Nat → SymbolicStack
  | 0 => s
  | n + 1 => s.pop.2.popMany n

/-- The stack with these slots put on top, one after another. -/
def pushMany (s : SymbolicStack) (slots : List ExprSet) : SymbolicStack :=
  slots.foldl push s

/-- The slots that the operation with this index pushes, in this order. -/
def results (s : SymbolicStack) (index : Nat) : Op → List ExprSet
  | .push value => [.single (.lit value)]
  | .dup => [s.pop.1, s.pop.1]
  | .swap => [s.pop.1, s.pop.2.pop.1]
  | .rot => [s.pop.2.pop.1, s.pop.1, s.pop.2.pop.2.pop.1]
  | .unrot => [s.pop.1, s.pop.2.pop.2.pop.1, s.pop.2.pop.1]
  | .binary op => [.apply op s.pop.2.pop.1 s.pop.1]
  | .len => [.single (.len index)]
  | .bgtz _ => []

@[simp] theorem pushMany_cons (s : SymbolicStack) (x : ExprSet) (slots : List ExprSet) :
    s.pushMany (x :: slots) = (s.push x).pushMany slots := rfl

/-- **An operation pops its operands and pushes its results.** -/
theorem execute_eq (s : SymbolicStack) (index : Nat) (op : Op) :
    s.execute index op = (s.popMany op.operands).pushMany (s.results index op) := by
  cases op <;> rfl

@[simp] theorem length_results (s : SymbolicStack) (index : Nat) (op : Op) :
    (s.results index op).length = op.results := by
  cases op <;> rfl

/-! ## Counts -/

@[simp] theorem span_popMany (s : SymbolicStack) (n : Nat) :
    (s.popMany n).span = s.span - (n : Nat) := by
  induction n generalizing s with
  | zero => exact (Int.sub_zero _).symm
  | succ n ih =>
    rw [popMany, ih, span_pop]
    omega

@[simp] theorem span_pushMany (s : SymbolicStack) (slots : List ExprSet) :
    (s.pushMany slots).span = s.span + (slots.length : Nat) := by
  induction slots generalizing s with
  | nil => exact (Int.add_zero _).symm
  | cons x slots ih =>
    rw [pushMany_cons, ih, span_push, List.length_cons]
    omega

theorem span_execute (s : SymbolicStack) (index : Nat) (op : Op) :
    (s.execute index op).span = s.span - (op.operands : Nat) + (op.results : Nat) := by
  rw [execute_eq, span_pushMany, span_popMany, length_results]

/-- An operation raises the stack by at most one place. -/
theorem span_execute_le (s : SymbolicStack) (index : Nat) (op : Op) :
    (s.execute index op).span ≤ s.span + 1 := by
  have := op.results_le
  rw [span_execute]
  omega

theorem reached_popMany_le (s : SymbolicStack) (n : Nat) :
    (s.popMany n).reached ≤ s.reached + n := by
  induction n generalizing s with
  | zero => exact Nat.le_refl _
  | succ n ih =>
    have := ih s.pop.2
    have := s.reached_pop_le
    rw [popMany]
    omega

@[simp] theorem reached_pushMany (s : SymbolicStack) (slots : List ExprSet) :
    (s.pushMany slots).reached = s.reached := by
  induction slots generalizing s with
  | nil => rfl
  | cons x slots ih => exact (ih (s.push x)).trans (reached_push s x)

@[simp] theorem bottomRefs_pushMany (s : SymbolicStack) (slots : List ExprSet) :
    (s.pushMany slots).bottomRefs = s.bottomRefs := by
  induction slots generalizing s with
  | nil => rfl
  | cons x slots ih => rw [pushMany_cons, ih, bottomRefs_push]

/-- An operation takes no more values from below than it has operands. -/
theorem reached_execute_le (s : SymbolicStack) (index : Nat) (op : Op) :
    (s.execute index op).reached ≤ s.reached + op.operands := by
  rw [execute_eq, reached_pushMany]
  exact reached_popMany_le s op.operands

/-! ## The invariant -/

/-- Every push of the operation finds a height that fits into a signed 64-bit integer. -/
def PushesFit (s : SymbolicStack) (op : Op) : Prop :=
  ∀ i < op.results, Text.FitsInt64 (s.span - (op.operands : Nat) + (i : Nat))

instance (s : SymbolicStack) (op : Op) : Decidable (s.PushesFit op) :=
  inferInstanceAs (Decidable (∀ i < op.results, _))

theorem InRange.pushesFit {index : Nat} {op : Op} (h : (s.execute index op).InRange) :
    s.PushesFit op := by
  obtain ⟨hspan, hreached⟩ := h
  rw [span_execute] at hspan
  rw [execute_eq, reached_pushMany] at hreached
  have hlow := neg_reached_le_span (s.popMany op.operands)
  rw [span_popMany] at hlow
  exact fun i hi => ⟨by omega, by omega⟩

namespace WellFormed

theorem popMany (h : s.WellFormed) (n : Nat) : (s.popMany n).WellFormed := by
  induction n generalizing s with
  | zero => exact h
  | succ n ih => exact ih h.pop

theorem pushMany {slots : List ExprSet} (h : s.WellFormed)
    (hfit : ∀ i < slots.length, Text.FitsInt64 (s.span + (i : Nat))) :
    (s.pushMany slots).WellFormed := by
  induction slots generalizing s with
  | nil => exact h
  | cons x slots ih =>
    have hfirst : Text.FitsInt64 s.span := by
      simpa only [Int.natCast_zero, Int.add_zero] using hfit 0 (Nat.zero_lt_succ _)
    refine ih (h.push_of_height_eq (Text.wrapInt64_of_fits hfirst)) fun i hi => ?_
    have hnext := hfit (i + 1) (Nat.succ_lt_succ hi)
    rwa [span_push, Int.add_assoc, Int.add_comm 1, ← Int.natCast_succ]

/-- **Every operation keeps the invariant** whose pushes find heights that fit. -/
theorem execute {op : Op} (h : s.WellFormed) (hfit : s.PushesFit op) (index : Nat) :
    (s.execute index op).WellFormed := by
  rw [execute_eq]
  refine (h.popMany op.operands).pushMany fun i hi => ?_
  rw [length_results] at hi
  rw [span_popMany]
  exact hfit i hi

end WellFormed

/-! ## Stacks on the path of one run -/

/-- No slot is new after a pop. -/
theorem mem_topDown_of_pop {x : ExprSet} (h : x ∈ s.pop.2.topDown) : x ∈ s.topDown := by
  unfold topDown at h ⊢
  rcases pop_cases s with ⟨y, ys, hu, hp⟩ | ⟨-, -, hp⟩ | ⟨-, -, y, ys, hl, hp⟩ | ⟨-, -, -, hp⟩ <;>
    rw [hp] at h
  · rw [hu]
    exact List.mem_cons_of_mem y h
  · exact h
  · rw [hl]
    exact List.mem_append.2 ((List.mem_append.1 h).imp_right (List.mem_cons_of_mem y))
  · exact h

/-- On whichever side, a push adds one slot. -/
theorem mem_topDown_push {x y : ExprSet} : y ∈ (s.push x).topDown ↔ y = x ∨ y ∈ s.topDown := by
  unfold push topDown
  split
  · simp only [List.mem_append, List.mem_cons]
    exact or_left_comm
  · simp only [List.cons_append, List.mem_cons]

/-- What every stack on a path of an exploration with this origin satisfies, also where heights
wrap. -/
structure Unmerged (originDepth : Nat) (s : SymbolicStack) : Prop where
  originDepth_eq : s.originDepth = originDepth
  topRefs_le : s.topRefs ≤ s.originDepth
  /-- Values below the origin are reached only after all those above. -/
  topRefs_eq : 0 < s.bottomRefs → s.topRefs = s.originDepth
  shortfall_eq : s.shortfall = 0
  ragged_eq : s.ragged = false
  single : ∀ x ∈ s.topDown, ∃ e, x = .single e

namespace Unmerged

variable {originDepth : Nat}

theorem initial (originDepth : Nat) : Unmerged originDepth (.initial originDepth) where
  originDepth_eq := rfl
  topRefs_le := Nat.zero_le _
  topRefs_eq := fun h => absurd h (Nat.lt_irrefl 0)
  shortfall_eq := rfl
  ragged_eq := rfl
  single := fun _ hx => absurd hx List.not_mem_nil

theorem pop_single (h : s.Unmerged originDepth) : ∃ e, s.pop.1 = .single e := by
  rcases pop_cases s with ⟨x, xs, hu, hp⟩ | ⟨-, -, hp⟩ | ⟨-, -, x, xs, hl, hp⟩ | ⟨-, -, -, hp⟩ <;>
    rw [hp]
  · exact h.single x (List.mem_append_left _ (hu ▸ List.mem_cons_self))
  · exact ⟨_, rfl⟩
  · exact h.single x (List.mem_append_right _ (hl ▸ List.mem_cons_self))
  · exact ⟨_, rfl⟩

theorem pop (h : s.Unmerged originDepth) : s.pop.2.Unmerged originDepth where
  originDepth_eq := by rw [originDepth_pop, h.originDepth_eq]
  topRefs_le := topRefs_pop_le h.topRefs_le
  topRefs_eq := topRefs_pop_eq h.topRefs_le h.topRefs_eq
  shortfall_eq := by rw [shortfall_pop, h.shortfall_eq]
  ragged_eq := by rw [ragged_pop, h.ragged_eq]
  single := fun x hx => h.single x (mem_topDown_of_pop hx)

theorem push {e : Expr} (h : s.Unmerged originDepth) :
    (s.push (.single e)).Unmerged originDepth where
  originDepth_eq := by rw [originDepth_push, h.originDepth_eq]
  topRefs_le := by
    rw [topRefs_push, originDepth_push]
    exact h.topRefs_le
  topRefs_eq := by
    rw [bottomRefs_push, topRefs_push, originDepth_push]
    exact h.topRefs_eq
  shortfall_eq := by rw [shortfall_push, h.shortfall_eq]
  ragged_eq := by rw [ragged_push, h.ragged_eq]
  single := by
    intro x hx
    rcases mem_topDown_push.1 hx with rfl | hx
    · exact ⟨e, rfl⟩
    · exact h.single x hx

theorem popMany (h : s.Unmerged originDepth) (n : Nat) : (s.popMany n).Unmerged originDepth := by
  induction n generalizing s with
  | zero => exact h
  | succ n ih => exact ih h.pop

theorem pushMany (h : s.Unmerged originDepth) {slots : List ExprSet}
    (hx : ∀ x ∈ slots, ∃ e, x = .single e) : (s.pushMany slots).Unmerged originDepth := by
  induction slots generalizing s with
  | nil => exact h
  | cons x slots ih =>
    obtain ⟨⟨e, he⟩, hslots⟩ := List.forall_mem_cons.1 hx
    exact ih (he ▸ h.push) hslots

theorem results_single (h : s.Unmerged originDepth) (index : Nat) (op : Op) :
    ∀ x ∈ s.results index op, ∃ e, x = .single e := by
  obtain ⟨x, hx⟩ := h.pop_single
  obtain ⟨y, hy⟩ := h.pop.pop_single
  obtain ⟨z, hz⟩ := h.pop.pop.pop_single
  cases op <;>
    simp [SymbolicStack.results, hx, hy, hz, ExprSet.apply_single, exists_apply_eq_apply']

/-- **Every operation keeps it**, at whatever height. -/
theorem execute (h : s.Unmerged originDepth) (index : Nat) (op : Op) :
    (s.execute index op).Unmerged originDepth := by
  rw [execute_eq]
  exact (h.popMany op.operands).pushMany (h.results_single index op)

end Unmerged

end SymbolicStack

end StackSeq
