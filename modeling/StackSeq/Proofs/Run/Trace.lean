import Mathlib.Data.List.Nodup
import StackSeq.Run

/-!
# The points of a run

The boundaries of a run have ever fewer operations left (`pairwise_boundaries`), so the operations
left at a point tell which point it is, and the last boundary holds the final stack
(`getLast?_boundaries`). `Program.depthAt` looks up the depth that the run has at an operation.
-/

namespace StackSeq

/-! ## Fewer operations at every point -/

theorem length_remaining_le {ops : List Op} {slots : Nat} {s : Stack} {b : Boundary}
    (h : b ∈ boundaries ops slots s) : b.remaining.length ≤ ops.length := by
  fun_induction boundaries ops slots s with
  | case1 =>
    obtain rfl := List.mem_singleton.1 h
    exact Nat.le_refl _
  | case2 op rest slots s ih => exact Nat.le_succ_of_le (ih h)
  | case3 op rest s ih =>
    rcases List.mem_cons.1 h with rfl | h
    · exact Nat.le_refl _
    · exact Nat.le_succ_of_le (ih h)

/-- **Each point of a run has fewer operations left than those before it.** -/
theorem pairwise_boundaries (ops : List Op) (slots : Nat) (s : Stack) :
    (boundaries ops slots s).Pairwise fun a b => b.remaining.length < a.remaining.length := by
  fun_induction boundaries ops slots s with
  | case1 => exact List.pairwise_singleton _ _
  | case2 op rest slots s ih => exact ih
  | case3 op rest s ih =>
    exact List.pairwise_cons.2 ⟨fun b hb => Nat.lt_succ_of_le (length_remaining_le hb), ih⟩

theorem eq_of_length_remaining {ops : List Op} {slots : Nat} {s : Stack} {a b : Boundary}
    (ha : a ∈ boundaries ops slots s) (hb : b ∈ boundaries ops slots s)
    (h : a.remaining.length = b.remaining.length) : a = b := by
  -- Strictly fewer each time, so no number of operations left occurs twice.
  have hnodup : ((boundaries ops slots s).map (·.remaining.length)).Nodup :=
    List.pairwise_map.2 ((pairwise_boundaries ops slots s).imp Nat.ne_of_gt)
  exact List.inj_on_of_nodup_map hnodup ha hb h

/-- The last point of a run is its end. -/
theorem getLast?_boundaries (ops : List Op) (slots : Nat) (s : Stack) :
    (boundaries ops slots s).getLast? = some ⟨[], runOps ops slots s⟩ := by
  fun_induction boundaries ops slots s with
  | case1 s => rfl
  | case2 op rest slots s ih => rw [ih, runOps]
  | case3 op rest s ih => rw [List.getLast?_cons, ih, runOps]; rfl

/-! ## Depths on the way -/

namespace Program

/-- The depth of the stack when a run on these values comes to the operation with this index; zero
if the run skips it. -/
def depthAt (p : Program) (values : List Rational) (index : Nat) : Nat :=
  match (p.trace values).find? fun b => b.remaining.length + index == p.length with
  | some b => b.stack.depth
  | none => 0

theorem depthAt_of_mem {p : Program} {values : List Rational} {b : Boundary} {index : Nat}
    (h : b ∈ p.trace values) (hi : b.remaining.length + index = p.length) :
    p.depthAt values index = b.stack.depth := by
  unfold depthAt
  cases hf : (p.trace values).find? fun b => b.remaining.length + index == p.length with
  | none =>
    have := List.find?_eq_none.1 hf b h
    exact absurd hi (by simpa using this)
  | some c =>
    have hc : c.remaining.length + index = p.length := by simpa using List.find?_some hf
    rw [eq_of_length_remaining (List.mem_of_find?_eq_some hf) h (by omega)]

end Program

end StackSeq
