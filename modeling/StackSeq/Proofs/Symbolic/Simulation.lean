import StackSeq.Proofs.Run.Trace
import StackSeq.Proofs.Symbolic.Fold
import StackSeq.Proofs.Symbolic.Path

/-!
# The analysis follows every run

A run on known values gives values to all unknowns of an analysis (`Program.assignment`). Under
this assignment the run takes one path of the exploration, and at each of its points the stack of
the path describes the stack of the run exactly: `exists_path_describes_trace`.

The proof is a simulation. `Tracks` relates a stack of the run to one of the analysis in the form
in which both are worked on, topmost value first; `pop` and `push` keep it, so every operation
does, and so does a whole run.
-/

namespace StackSeq

/-- The values of the unknowns in a run on these values. References count down from the initial
top, those below the origin from there; a value that the stack lacks is zero. -/
def Program.assignment (p : Program) (originDepth : Nat) (values : List Rational) :
    Expr.Assignment where
  top i := values.reverse.getD i 0
  bottom i := values.reverse.getD (originDepth + i) 0
  len index := .ofCount (p.depthAt values index)

theorem Program.len_assignment (p : Program) (originDepth : Nat) (values : List Rational)
    (index : Nat) :
    (p.assignment originDepth values).len index = .ofCount (p.depthAt values index) := by
  simp only [assignment]

/-- The references of an analysis with this origin have the values that lie on `start`, zero below
its bottom. -/
def Expr.Assignment.Reads (env : Expr.Assignment) (originDepth : Nat) (start : Stack) : Prop :=
  ∀ n, (Expr.initial originDepth n).value env = start.topDown.getD n 0

theorem Program.reads_assignment (p : Program) (originDepth : Nat) (values : List Rational) :
    (p.assignment originDepth values).Reads originDepth (.ofList values) := by
  intro n
  unfold Expr.initial
  split
  · rfl
  · next h =>
    show values.reverse.getD (originDepth + (n - originDepth)) 0 = _
    rw [Nat.add_sub_cancel' (Nat.not_lt.1 h)]
    rfl

/-! ## One stack -/

/-- The stack `c` of a run that began on `start` is what the stack `s` of an analysis describes:
the slots of `s` hold single expressions, and below their values lies what is left of `start`. -/
structure Tracks (env : Expr.Assignment) (originDepth : Nat) (start c : Stack)
    (s : SymbolicStack) : Prop extends s.OnPath originDepth where
  reads : env.Reads originDepth start
  topDown_eq : ∃ exprs : List Expr, s.topDown = exprs.map .single ∧
    c.topDown = exprs.map (Expr.value env) ++ start.topDown.drop s.reached

namespace Tracks

variable {env : Expr.Assignment} {originDepth : Nat} {start c : Stack} {s : SymbolicStack}

theorem initial (h : env.Reads originDepth start) :
    Tracks env originDepth start start (.initial originDepth) where
  toOnPath := .initial originDepth
  reads := h
  topDown_eq := ⟨[], rfl, rfl⟩

theorem push {e : Expr} (h : Tracks env originDepth start c s)
    (hr : (s.push (.single e)).InRange) :
    Tracks env originDepth start (c.push (e.value env)) (s.push (.single e)) := by
  obtain ⟨exprs, hs, hc⟩ := h.topDown_eq
  refine ⟨h.toOnPath.push hr, h.reads, e :: exprs, ?_, ?_⟩
  · rw [h.topDown_push hr, hs]
    rfl
  · rw [SymbolicStack.reached_push, Stack.push, hc]
    rfl

/-- Popping takes an expression for the top, on an empty stack one for zero. -/
theorem pop (h : Tracks env originDepth start c s) :
    ∃ e, s.pop.1 = .single e ∧ e.value env = c.top ∧
      Tracks env originDepth start c.rest s.pop.2 := by
  obtain ⟨exprs, hs, hc⟩ := h.topDown_eq
  rcases h.pop_eq with ⟨x, xs, hx, hfst, htail, hreached⟩ | ⟨hnil, hfst, htail, hreached⟩
  · rw [hx] at hs
    cases exprs with
    | nil => exact absurd hs (List.cons_ne_nil _ _)
    | cons e es =>
      obtain ⟨rfl, rfl⟩ := List.cons.inj hs
      refine ⟨e, hfst, by rw [Stack.top, hc]; rfl, h.toOnPath.pop, h.reads, es, htail, ?_⟩
      rw [Stack.rest, hc, hreached]
      rfl
  · rw [hnil] at hs
    obtain rfl := List.map_eq_nil_iff.1 hs.symm
    refine ⟨_, hfst, ?_, h.toOnPath.pop, h.reads, [], htail, ?_⟩
    · rw [h.originDepth_eq, h.reads _, Stack.top, hc]
      simp [List.head?_drop]
    · rw [Stack.rest, hc, hreached]
      simp

/-- **Every operation keeps the description**, provided that the unknown of a `len` is the depth
that it pushes. -/
theorem execute {index : Nat} {op : Op} (h : Tracks env originDepth start c s)
    (hr : (s.execute index op).InRange) (hlen : env.len index = .ofCount c.depth) :
    Tracks env originDepth start (op.effect c) (s.execute index op) := by
  cases op with
  | push value => exact h.push hr
  | len =>
    have hpush : Tracks env originDepth start (c.push (env.len index))
        (s.push (.single (.len index))) := h.push hr
    rw [hlen] at hpush
    exact hpush
  | bgtz offset =>
    obtain ⟨-, -, -, hx⟩ := h.pop
    exact hx
  | dup =>
    obtain ⟨x, hxs, hxv, hx⟩ := h.pop
    rw [SymbolicStack.execute_dup, hxs] at hr ⊢
    show Tracks env originDepth start ((c.rest.push c.top).push c.top) _
    rw [← hxv]
    exact (hx.push hr.of_push).push hr
  | swap =>
    obtain ⟨x, hxs, hxv, hx⟩ := h.pop
    obtain ⟨y, hys, hyv, hy⟩ := hx.pop
    rw [SymbolicStack.execute_swap, hxs, hys] at hr ⊢
    show Tracks env originDepth start ((c.rest.rest.push c.top).push c.rest.top) _
    rw [← hxv, ← hyv]
    exact (hy.push hr.of_push).push hr
  | rot =>
    obtain ⟨z, hzs, hzv, hz⟩ := h.pop
    obtain ⟨y, hys, hyv, hy⟩ := hz.pop
    obtain ⟨x, hxs, hxv, hx⟩ := hy.pop
    rw [SymbolicStack.execute_rot, hxs, hys, hzs] at hr ⊢
    show Tracks env originDepth start
      (((c.rest.rest.rest.push c.rest.top).push c.top).push c.rest.rest.top) _
    rw [← hxv, ← hyv, ← hzv]
    exact ((hx.push hr.of_push.of_push).push hr.of_push).push hr
  | unrot =>
    obtain ⟨z, hzs, hzv, hz⟩ := h.pop
    obtain ⟨y, hys, hyv, hy⟩ := hz.pop
    obtain ⟨x, hxs, hxv, hx⟩ := hy.pop
    rw [SymbolicStack.execute_unrot, hxs, hys, hzs] at hr ⊢
    show Tracks env originDepth start
      (((c.rest.rest.rest.push c.top).push c.rest.rest.top).push c.rest.top) _
    rw [← hxv, ← hyv, ← hzv]
    exact ((hx.push hr.of_push.of_push).push hr.of_push).push hr
  | binary op =>
    obtain ⟨x, hxs, hxv, hx⟩ := h.pop
    obtain ⟨y, hys, hyv, hy⟩ := hx.pop
    rw [SymbolicStack.execute_binary, hxs, hys, ExprSet.apply_single] at hr ⊢
    show Tracks env originDepth start (c.rest.rest.push (op.apply c.rest.top c.top)) _
    rw [← hxv, ← hyv, ← Expr.value_fold]
    exact hy.push hr

/-- The run goes one of the ways that the exploration goes: where a branch is decided, its
decision; where not, the known value chooses between the two. -/
theorem exploreOps_cons (h : Tracks env originDepth start c s) (op : Op) (rest : List Op)
    (index : Nat) :
    let next := exploreOps rest (index + 1) (op.jump c) (s.execute index op)
    exploreOps (op :: rest) index 0 s = .step (op :: rest) s next ∨
      (∃ taken, exploreOps (op :: rest) index 0 s = .fork (op :: rest) s next taken) ∨
      ∃ fallThrough, exploreOps (op :: rest) index 0 s = .fork (op :: rest) s fallThrough next := by
  intro next
  cases op with
  | bgtz offset =>
    obtain ⟨e, hes, hev, -⟩ := h.pop
    have hjump : (Op.bgtz offset).jump c
        = if (e.value env).isPositive then offset.toNat else 0 := by
      rw [hev, Op.jump]
    have hnext : next
        = exploreOps rest (index + 1) (if (e.value env).isPositive then offset.toNat else 0)
            s.pop.2 := congrArg (exploreOps rest (index + 1) · s.pop.2) hjump
    rw [hnext, exploreOps, hes]
    split
    · next hd =>
      rw [ExprSet.isPositive_of_decidePositive_single hd]
      exact .inl rfl
    · next hd =>
      rw [ExprSet.isPositive_of_decidePositive_single hd]
      exact .inl rfl
    · -- Undecided: the known value chooses between the two continuations.
      by_cases hp : (e.value env).isPositive = true
      · rw [if_pos hp]
        exact .inr (.inr ⟨_, rfl⟩)
      · rw [if_neg hp]
        exact .inr (.inl ⟨_, rfl⟩)
  | _ => exact .inl rfl

/-! ## A whole run -/

/-- **The simulation**: from stacks that correspond, the run takes a path of the exploration and
corresponds to it all along. The unknowns of `len` are numbered from the first operation of the
program, of whose `length` operations `index` lie behind. -/
theorem follows_exploreOps {length : Nat} {ops : List Op} {index slots : Nat}
    (h : Tracks env originDepth start c s) (hr : (exploreOps ops index slots s).InRange)
    (hindex : index + ops.length = length)
    (hlen : ∀ b ∈ boundaries ops slots c,
      env.len (length - b.remaining.length) = .ofCount b.stack.depth) :
    (exploreOps ops index slots s).Follows (Tracks env originDepth start)
      (boundaries ops slots c) := by
  fun_induction boundaries ops slots c generalizing index s with
  | case1 slots c =>
    rw [exploreOps]
    exact .halt h
  | case2 op rest slots c ih =>
    rw [exploreOps] at hr ⊢
    exact ih h hr (by rw [← hindex, List.length_cons]; omega) hlen
  | case3 op rest c ih =>
    -- This point is the first of the run, so its `len` is the one numbered `index`.
    have hhere : env.len index = .ofCount c.depth := by
      have := hlen ⟨op :: rest, c⟩ List.mem_cons_self
      rwa [← hindex, Nat.add_sub_cancel] at this
    have hnext : (exploreOps rest (index + 1) (op.jump c) (s.execute index op)).InRange →
        (exploreOps rest (index + 1) (op.jump c) (s.execute index op)).Follows
          (Tracks env originDepth start) (boundaries rest (op.jump c) (op.effect c)) :=
      fun hr => ih (h.execute (Exploration.inRange_start hr) hhere) hr
        (by rw [← hindex, List.length_cons]; omega) (fun b hb => hlen b (List.mem_cons_of_mem _ hb))
    rcases h.exploreOps_cons op rest index with heq | ⟨taken, heq⟩ | ⟨fallThrough, heq⟩ <;>
      rw [heq] at hr ⊢
    · exact .step h (hnext (Exploration.inRange_step.1 hr).2)
    · exact .fallThrough h (hnext (Exploration.inRange_fork.1 hr).2.1)
    · exact .taken h (hnext (Exploration.inRange_fork.1 hr).2.2)

end Tracks

/-! ## The points of a run -/

/-- A point of an analysis describes a point of a run on these values: the same operations are
left, every slot holds a single expression, and the stack consists of the initial values without
those reached, and on them the values of the slots. -/
def SymbolicBoundary.Describes (env : Expr.Assignment) (values : List Rational)
    (b : SymbolicBoundary) (c : Boundary) : Prop :=
  b.remaining = c.remaining ∧ ∃ exprs : List Expr, b.stack.slots = exprs.map .single ∧
    c.stack.toList
      = values.take (values.length - (b.stack.topRefs + b.stack.bottomRefs))
        ++ exprs.map (Expr.value env)

namespace Tracks

variable {env : Expr.Assignment} {originDepth : Nat} {values : List Rational} {c : Stack}
  {s : SymbolicStack}

/-- The description from the bottom up. -/
theorem toList_eq (h : Tracks env originDepth (.ofList values) c s) :
    ∃ exprs : List Expr, s.slots = exprs.map .single ∧
      c.toList = values.take (values.length - s.reached) ++ exprs.map (Expr.value env) := by
  obtain ⟨exprs, hs, hc⟩ := h.topDown_eq
  refine ⟨exprs.reverse, ?_, ?_⟩
  · rw [SymbolicStack.slots_eq_reverse, hs, List.map_reverse]
  · rw [Stack.toList, hc, Stack.ofList, List.reverse_append, List.drop_reverse,
      List.reverse_reverse, List.map_reverse]

end Tracks

namespace Program

variable (p : Program) (originDepth : Nat) (values : List Rational)

/-- Every run takes a path of the exploration. -/
theorem follows_explore (hr : (p.explore originDepth).InRange) :
    (p.explore originDepth).Follows
      (Tracks (p.assignment originDepth values) originDepth (.ofList values))
      (p.trace values) := by
  refine Tracks.follows_exploreOps (.initial (p.reads_assignment originDepth values)) hr
    (Nat.zero_add p.length) fun b hb => ?_
  have hle : b.remaining.length ≤ p.length := length_remaining_le hb
  rw [len_assignment, depthAt_of_mem hb (Nat.add_sub_cancel' hle)]

/-- **The analysis follows every run.** Some path of the exploration, made of points reported in
this order, describes the run point by point. -/
theorem exists_path_describes_trace (hr : (p.explore originDepth).InRange) :
    ∃ path ∈ (p.explore originDepth).paths, path.Sublist (p.explore originDepth).points ∧
      List.Forall₂ (fun c b => b.Describes (p.assignment originDepth values) values c)
        (p.trace values) path := by
  obtain ⟨path, hpath, hall⟩ := (p.follows_explore originDepth values hr).exists_path
  refine ⟨path, hpath, Exploration.sublist_points hpath, hall.imp ?_⟩
  rintro c b ⟨hops, hstack⟩
  exact ⟨hops, hstack.toList_eq⟩

/-- A run that takes three values from a stack of one, past two branches that are not decided. -/
theorem exists_path_describes_trace_underflow :
    let p : Program := ⟨[.bgtz 3, .bgtz 1, .len, .push 1, .binary .add]⟩
    (p.explore 1).InRange ∧
      ∃ path ∈ (p.explore 1).paths, path.Sublist (p.explore 1).points ∧
        List.Forall₂ (fun c b => b.Describes (p.assignment 1 [0]) [0] c) (p.trace [0]) path := by
  intro p
  have hr : (p.explore 1).InRange := inRange_explore (by decide) (by decide)
  exact ⟨hr, exists_path_describes_trace p 1 [0] hr⟩

/-- Out of range, a second value is put below the first: after `0 1` the analysis has the two slots
in the wrong order, and the branches that follow read the wrong values. -/
theorem not_exists_path_describes_trace :
    let p : Program := ⟨[.push 0, .push 1, .bgtz 0, .bgtz 0]⟩
    let originDepth := 0x7fff_ffff_ffff_ffff
    ¬∃ path ∈ (p.explore originDepth).paths, path.Sublist (p.explore originDepth).points ∧
      List.Forall₂ (fun c b => b.Describes (p.assignment originDepth []) [] c)
        (p.trace []) path := by
  intro p originDepth
  rintro ⟨path, hpath, -, hall⟩
  -- The paths part only at the last branch; at the third point all of them have the same slots.
  have hthird : ∀ path ∈ (p.explore originDepth).paths, (path.map (·.stack.slots))[2]?
      = some [.single (.lit 1), .single (.lit 0)] := by decide +kernel
  have htrace : p.trace [] = [⟨p.code, ⟨[]⟩⟩, ⟨p.code.drop 1, ⟨[0]⟩⟩, ⟨p.code.drop 2, ⟨[1, 0]⟩⟩,
      ⟨p.code.drop 3, ⟨[0]⟩⟩, ⟨[], ⟨[]⟩⟩] := by decide +kernel
  have hslots := hthird path hpath
  rw [htrace] at hall
  rcases hall with _ | ⟨-, _ | ⟨-, _ | ⟨⟨-, exprs, hexprs, hlist⟩, -⟩⟩⟩
  have heq : exprs = [.lit 1, .lit 0] :=
    List.map_injective_iff.2 (fun _ _ => ExprSet.single_injective)
      (hexprs.symm.trans (Option.some.inj hslots))
  rw [heq, List.take_nil] at hlist
  exact absurd hlist (by decide +kernel)

end Program

end StackSeq
