import Mathlib.Data.List.Iterate
import Mathlib.Order.Bounds.Defs
import StackSeq.Proofs.Program.Branch
import StackSeq.Proofs.Run.Trace

/-!
# Machines run as programs do

From any state a machine has the points and the result of a run of the operations that it has not
yet reached (`Machine.points`, `Machine.result`). One move takes the first of these points away and
keeps the result: `points_of_not_isHalted`, `result_step`. So both loops over moves end with that
result (`stack_finish`, `observe_eq`), the points are those of the states that the machine goes
through (`points_eq_map_iterate`), and it has halted when it comes to the last of them
(`isHalted_iterate_iff`). All ways of running a program are compared in
`Program.ways_of_running_agree`.
-/

namespace StackSeq

universe u

variable {ops : List Op} {slots : Nat} {s : Stack} {p : Program} {m : Machine}

/-! ## Points of a run -/

/-- To skip slots is to start behind the operations that are skipped. -/
theorem runOps_eq_drop (ops : List Op) (slots : Nat) (s : Stack) :
    runOps ops slots s = runOps (ops.drop (opsSkipped ops slots)) 0 s := by
  fun_induction opsSkipped ops slots with
  | case1 => rfl
  | case2 => rfl
  | case3 op rest slots ih => rw [runOps, ih, Nat.add_comm 1, List.drop_succ_cons]

theorem boundaries_eq_drop (ops : List Op) (slots : Nat) (s : Stack) :
    boundaries ops slots s = boundaries (ops.drop (opsSkipped ops slots)) 0 s := by
  fun_induction opsSkipped ops slots with
  | case1 => rfl
  | case2 => rfl
  | case3 op rest slots ih => rw [boundaries, ih, Nat.add_comm 1, List.drop_succ_cons]

theorem suffix_of_mem_boundaries {b : Boundary} (h : b ∈ boundaries ops slots s) :
    b.remaining <:+ ops := by
  fun_induction boundaries ops slots s with
  | case1 =>
    obtain rfl := List.mem_singleton.1 h
    exact List.suffix_rfl
  | case2 op rest slots s ih => exact (ih h).trans (List.suffix_cons op rest)
  | case3 op rest s ih =>
    rcases List.mem_cons.1 h with rfl | h
    · exact List.suffix_rfl
    · exact (ih h).trans (List.suffix_cons op rest)

theorem length_boundaries_le (ops : List Op) (slots : Nat) (s : Stack) :
    (boundaries ops slots s).length ≤ ops.length + 1 := by
  fun_induction boundaries ops slots s with
  | case1 => exact Nat.le_refl _
  | case2 op rest slots s ih => exact Nat.le_succ_of_le ih
  | case3 op rest s ih => exact Nat.succ_le_succ ih

namespace Program

/-- Points from the whole program to nothing left of it, each with less of it than those before. -/
structure IsDescent (p : Program) (points : List Boundary) : Prop where
  head : points.head?.map (·.remaining) = some p.code
  last : points.getLast?.map (·.remaining) = some []
  ne_nil : ∀ b ∈ points.dropLast, b.remaining ≠ []
  suffix : ∀ b ∈ points, b.remaining <:+ p.code
  shrinks : points.Pairwise fun a b =>
    b.remaining <:+ a.remaining ∧ b.remaining.length < a.remaining.length
  length_le : points.length ≤ p.length + 1

/-- **A run goes through ever less of the program.** -/
theorem isDescent_trace (p : Program) (values : List Rational) : p.IsDescent (p.trace values) where
  head := by
    rw [trace]
    cases p.code <;> rfl
  last := by rw [trace, getLast?_boundaries, Option.map_some]
  ne_nil := by
    intro b hb hnil
    -- The last point would have fewer than no operations left.
    obtain ⟨points, hpoints⟩ :=
      List.getLast?_eq_some_iff.1 (getLast?_boundaries p.code 0 (.ofList values))
    have hpairwise := pairwise_boundaries p.code 0 (.ofList values)
    rw [trace, hpoints, List.dropLast_concat] at hb
    rw [hpoints, List.pairwise_append] at hpairwise
    have hlt := hpairwise.2.2 b hb _ (List.mem_singleton_self _)
    rw [hnil] at hlt
    exact Nat.not_lt_zero _ hlt
  suffix := fun _ => suffix_of_mem_boundaries
  shrinks := by
    refine (pairwise_boundaries p.code 0 (.ofList values)).imp_of_mem fun ha hb hlt => ⟨?_, hlt⟩
    exact List.suffix_of_suffix_length_le (suffix_of_mem_boundaries hb)
      (suffix_of_mem_boundaries ha) (Nat.le_of_lt hlt)
  length_le := length_boundaries_le p.code 0 _

end Program

/-! ## One move -/

namespace Machine

theorem length_remaining (p : Program) (m : Machine) : (m.remaining p).length = p.length - m.pc :=
  List.length_drop

theorem remaining_eq_nil (h : m.isHalted p = true) : m.remaining p = [] := by
  rw [isHalted, decide_eq_true_eq] at h
  exact List.drop_eq_nil_of_le h

/-- A move carries out the first of the operations that are left, and skips those that it jumps
over. -/
theorem exists_move (h : ¬m.isHalted p = true) : ∃ op rest, m.remaining p = op :: rest ∧
    (m.step p).remaining p = rest.drop (opsSkipped rest (op.jump m.stack)) ∧
    (m.step p).stack = op.effect m.stack := by
  rw [isHalted, decide_eq_true_eq, Program.length, Nat.not_le] at h
  refine ⟨p.code[m.pc], p.code.drop (m.pc + 1), List.drop_eq_getElem_cons h, ?_, ?_⟩
  · rw [step, List.getElem?_eq_getElem h, remaining, Program.drop_branchTarget]
  · rw [step, List.getElem?_eq_getElem h]

/-- What holds of halted machines, and of a machine if it does after its next move, holds of all. -/
theorem induction_on_moves {motive : Machine → Prop} (p : Program)
    (halted : ∀ m, m.isHalted p = true → motive m)
    (move : ∀ m, ¬m.isHalted p = true → motive (m.step p) → motive m) (m : Machine) : motive m :=
  if h : m.isHalted p = true then halted m h
  else move m h (induction_on_moves p halted move (m.step p))
termination_by p.length - m.pc
decreasing_by exact sub_pc_step_lt h

/-- The points of the run that the machine has before it. -/
def points (p : Program) (m : Machine) : List Boundary := boundaries (m.remaining p) 0 m.stack

/-- The final stack of the run that the machine has before it. -/
def result (p : Program) (m : Machine) : Stack := runOps (m.remaining p) 0 m.stack

theorem length_points_pos (p : Program) (m : Machine) : 0 < (m.points p).length := by
  have hlast := getLast?_boundaries (m.remaining p) 0 m.stack
  exact List.length_pos_of_mem (List.mem_of_getLast? hlast)

theorem points_of_isHalted (h : m.isHalted p = true) : m.points p = [m.boundary p] := by
  rw [points, boundary, remaining_eq_nil h, boundaries]

/-- **A move leads from one point of the run to the next.** -/
theorem points_of_not_isHalted (h : ¬m.isHalted p = true) :
    m.points p = m.boundary p :: (m.step p).points p := by
  obtain ⟨op, rest, hremaining, hrest, hstack⟩ := exists_move h
  rw [points, boundary, hremaining, boundaries, points, hrest, hstack, ← boundaries_eq_drop]

theorem result_of_isHalted (h : m.isHalted p = true) : m.result p = m.stack := by
  rw [result, remaining_eq_nil h, runOps]

/-- **A move does not change what the run ends with.** -/
theorem result_step (p : Program) (m : Machine) : (m.step p).result p = m.result p := by
  by_cases h : m.isHalted p = true
  · rw [step_of_isHalted h]
  · obtain ⟨op, rest, hremaining, hrest, hstack⟩ := exists_move h
    rw [result, result, hremaining, runOps, hrest, hstack, ← runOps_eq_drop]

/-! ## Many moves -/

theorem result_iterate (p : Program) (m : Machine) (moves : Nat) :
    ((step p)^[moves] m).result p = m.result p := by
  induction moves generalizing m with
  | zero => rfl
  | succ moves ih => rw [Function.iterate_succ_apply, ih, result_step]

/-- **The points of the run are those of the machine's states.** -/
theorem points_eq_map_iterate (p : Program) (m : Machine) :
    m.points p = (List.iterate (step p) m (m.points p).length).map (boundary p) := by
  induction m using induction_on_moves p with
  | halted m h => rw [points_of_isHalted h]; rfl
  | move m h ih =>
    rw [points_of_not_isHalted h, List.length_cons, List.iterate, List.map_cons, ← ih]

/-- **The machine halts at the last point of its run.** -/
theorem isHalted_iterate_iff (p : Program) (m : Machine) (moves : Nat) :
    ((step p)^[moves] m).isHalted p = true ↔ (m.points p).length ≤ moves + 1 := by
  induction m using induction_on_moves p generalizing moves with
  | halted m h =>
    have hfixed : (step p)^[moves] m = m := Function.iterate_fixed (step_of_isHalted h) moves
    simp [hfixed, h, points_of_isHalted h]
  | move m h ih =>
    rw [points_of_not_isHalted h, List.length_cons, Nat.add_le_add_iff_right]
    cases moves with
    | zero => exact iff_of_false h (Nat.not_le_of_gt (length_points_pos p (m.step p)))
    | succ moves => rw [Function.iterate_succ_apply, ih]

/-- Each state that the machine comes to is further on in the program. -/
theorem pairwise_pc_iterate (p : Program) (m : Machine) :
    (List.iterate (step p) m (m.points p).length).Pairwise (·.pc < ·.pc) := by
  have hpairwise : (m.points p).Pairwise fun a b => b.remaining.length < a.remaining.length :=
    pairwise_boundaries (m.remaining p) 0 m.stack
  rw [points_eq_map_iterate, List.pairwise_map] at hpairwise
  refine hpairwise.imp fun {a b} hlt => ?_
  have hlt' : (b.remaining p).length < (a.remaining p).length := hlt
  rw [length_remaining, length_remaining] at hlt'
  omega

/-! ## Loops over moves -/

theorem stack_finish (p : Program) (m : Machine) : (m.finish p).stack = m.result p := by
  fun_induction finish p m with
  | case1 m h => rw [← result_of_isHalted h, result_step]
  | case2 m h ih => rw [ih, result_step]

theorem observe_eq {σ : Type u} (p : Program) (see : σ → Boundary → σ) (m : Machine) (seen : σ) :
    m.observe p see seen = ((m.points p).foldl see seen, m.result p) := by
  fun_induction observe p see m seen with
  | case1 m seen _ h => rw [points_of_isHalted h, result_of_isHalted h]; rfl
  | case2 m seen _ h ih => rw [ih, points_of_not_isHalted h, result_step]; rfl

end Machine

/-! ## All ways of running a program -/

namespace Program

theorem points_start (p : Program) (values : List Rational) :
    (Machine.start values).points p = p.trace values := rfl

theorem result_start (p : Program) (values : List Rational) :
    ((Machine.start values).result p).toList = p.evaluate values := rfl

theorem evaluateByMoves_eq (p : Program) (values : List Rational) :
    p.evaluateByMoves values = p.evaluate values := by
  rw [evaluateByMoves, Machine.stack_finish, result_start]

theorem evaluateObserved_eq {σ : Type u} (p : Program) (see : σ → Boundary → σ) (seen : σ)
    (values : List Rational) :
    p.evaluateObserved see seen values = ((p.trace values).foldl see seen, p.evaluate values) := by
  rw [evaluateObserved, Machine.observe_eq, points_start]
  rfl

/-- The trace is what an observer has gathered who keeps every point. -/
theorem evaluateObserved_keep (p : Program) (values : List Rational) :
    p.evaluateObserved (fun points b => points ++ [b]) [] values
      = (p.trace values, p.evaluate values) := by
  rw [evaluateObserved_eq, List.foldl_append_eq_append, List.nil_append, ← List.flatMap_def,
    List.flatMap_singleton']

/-- The first move that leaves the machine halted leaves it with the final values, and so does every
later one. -/
theorem exists_isLeast_halting_move (p : Program) (values : List Rational) :
    ∃ moves, IsLeast {n | 1 ≤ n ∧ ((Machine.step p)^[n] (.start values)).isHalted p = true} moves ∧
      ((Machine.step p)^[moves] (.start values)).stack.toList = p.evaluate values ∧
      ∀ more, (Machine.step p)^[more + moves] (.start values)
        = (Machine.step p)^[moves] (.start values) := by
  -- On an empty program the machine has halted before its first move.
  let moves := max 1 ((p.trace values).length - 1)
  have hiff : ∀ n, ((Machine.step p)^[n] (.start values)).isHalted p = true ↔
      (p.trace values).length ≤ n + 1 := Machine.isHalted_iterate_iff p (.start values)
  have hhalted : ((Machine.step p)^[moves] (.start values)).isHalted p = true := by
    rw [hiff]
    omega
  refine ⟨moves, ⟨⟨Nat.le_max_left _ _, hhalted⟩, ?_⟩, ?_, fun more => ?_⟩
  · rintro n ⟨hpos, hn⟩
    rw [hiff] at hn
    omega
  · rw [← Machine.result_of_isHalted hhalted, Machine.result_iterate, result_start]
  · rw [Function.iterate_add_apply]
    exact Function.iterate_fixed (Machine.step_of_isHalted hhalted) more

/-- **All ways of running a program agree, and every run is short.** The loop that asks after each
move whether the machine has halted, the loop that shows every point to an observer, the last point
of the run and the first move that leaves the machine halted all give the same final values, and
later moves change nothing. The points of the run are those of the states that the machine goes
through, each further on in the program than those before, so no operation is carried out twice. -/
theorem ways_of_running_agree {σ : Type u} (p : Program) (values : List Rational)
    (see : σ → Boundary → σ) (seen : σ) :
    let start := Machine.start values
    let states := List.iterate (Machine.step p) start (p.trace values).length
    p.evaluateByMoves values = p.evaluate values ∧
      p.evaluateObserved see seen values = ((p.trace values).foldl see seen, p.evaluate values) ∧
      p.evaluateObserved (fun points b => points ++ [b]) [] values
        = (p.trace values, p.evaluate values) ∧
      (p.trace values).getLast?.map (·.stack.toList) = some (p.evaluate values) ∧
      (∃ moves, IsLeast {n | 1 ≤ n ∧ ((Machine.step p)^[n] start).isHalted p = true} moves ∧
        ((Machine.step p)^[moves] start).stack.toList = p.evaluate values ∧
        ∀ more, (Machine.step p)^[more + moves] start = (Machine.step p)^[moves] start) ∧
      p.trace values = states.map (Machine.boundary p) ∧
      states.Pairwise (·.pc < ·.pc) ∧
      p.IsDescent (p.trace values) := by
  refine ⟨p.evaluateByMoves_eq values, p.evaluateObserved_eq see seen values,
    p.evaluateObserved_keep values, ?_, p.exists_isLeast_halting_move values,
    Machine.points_eq_map_iterate p (.start values), Machine.pairwise_pc_iterate p (.start values),
    p.isDescent_trace values⟩
  rw [trace, getLast?_boundaries]
  rfl

end Program

end StackSeq
