import StackSeq.Proofs.Symbolic.Coverage
import StackSeq.Proofs.Symbolic.Simulation

/-!
# The analysis is sound

What the outcome of an analysis, merged from all paths, says about every run.

* `evaluate_within_analyze`: on a stack that is deep enough, the final stack lies slot by slot
  within the outcome, counted from the bottom.
* `evaluate_within_analyze_from_top`: if the outcome is level, the same holds counted from the top,
  on every stack.
* `lengthBound_analyze`: the final stack has at least the promised number of values.

All of it is about analyses whose counts fit into signed 64-bit integers. Each result comes with a
run that contradicts it where they do not.

A run tracks one of the ends of the exploration and the outcome covers that end; what is left is to
put the two together. The slots of the end, padded down to the lowest value that the outcome
reached, stand for the topmost values of the final stack (`Tracks.value_of_padded`).
-/

namespace StackSeq

namespace Tracks

variable {env : Expr.Assignment} {originDepth : Nat} {start c : Stack} {s : SymbolicStack}

theorem depth_eq (h : Tracks env originDepth start c s) :
    c.depth = s.slotCount + (start.depth - s.reached) := by
  obtain ⟨exprs, hs, hc⟩ := h.topDown_eq
  have hlen : s.slotCount = exprs.length := by
    rw [← SymbolicStack.length_topDown, hs, List.length_map]
  rw [Stack.depth, hc, List.length_append, List.length_map, List.length_drop, hlen, Stack.depth]

/-- **A padded slot stands for the value at the same place from the top.** Places that the stack
does not have, having run out of values, stand for nothing. -/
theorem value_of_padded (h : Tracks env originDepth start c s) {high j : Nat} {v : Rational}
    {x : ExprSet} (hv : c.topDown[j]? = some v)
    (hx : (s.paddedSlots high).reverse[j]? = some x) : ∃ e ∈ x, e.value env = v := by
  obtain ⟨exprs, hs, hc⟩ := h.topDown_eq
  rw [SymbolicStack.paddedSlots, List.reverse_append, SymbolicStack.slots_eq_reverse,
    List.reverse_reverse, hs, h.originDepth_eq] at hx
  rw [hc] at hv
  by_cases hj : j < exprs.length
  · rw [List.getElem?_append_left (by rwa [List.length_map]), List.getElem?_map] at hx hv
    obtain ⟨e, he, rfl⟩ := Option.map_eq_some_iff.1 hx
    rw [he] at hv
    exact ⟨e, ExprSet.mem_single.2 rfl, Option.some.inj hv⟩
  · -- Below the slots both sides go down the initial stack, from the value numbered `reached` on.
    rw [List.getElem?_append_right (by rw [List.length_map]; omega), List.length_map] at hx hv
    rw [SymbolicStack.refSlots, List.reverse_reverse, List.getElem?_map] at hx
    obtain ⟨n, hn, rfl⟩ := Option.map_eq_some_iff.1 hx
    obtain ⟨hlt, heq⟩ := List.getElem?_eq_some_iff.1 hn
    rw [List.getElem_range', Nat.one_mul] at heq
    rw [List.getElem?_drop] at hv
    refine ⟨_, ExprSet.mem_single.2 rfl, ?_⟩
    rw [h.reads _, ← heq, List.getD_eq_getElem?_getD, hv]
    rfl

end Tracks

/-! ## Counted from the bottom -/

namespace Tracks

variable {env : Expr.Assignment} {originDepth : Nat} {values : List Rational} {c : Stack}
  {s : SymbolicStack} (h : Tracks env originDepth (.ofList values) c s)

include h

theorem length_toList {high : Nat} (hr : s.reached ≤ high) (hh : high ≤ values.length) :
    c.toList.length = values.length - high + (s.paddedSlots high).length := by
  have hdepth := h.depth_eq
  rw [Stack.depth_ofList] at hdepth
  rw [Stack.length_toList, hdepth, SymbolicStack.length_paddedSlots]
  omega

/-- The values that were not reached stay at the bottom. -/
theorem take_toList {n : Nat} (hn : n ≤ values.length - s.reached) :
    c.toList.take n = values.take n := by
  obtain ⟨exprs, -, hc⟩ := h.toList_eq
  rw [hc, List.take_append_of_le_length (by rw [List.length_take]; omega), List.take_take,
    Nat.min_eq_left hn]

/-- The padded slots stand for the values above those that stay. -/
theorem getElem?_toList {high i : Nat} {v : Rational} (hr : s.reached ≤ high)
    (hh : high ≤ values.length) (hv : c.toList[values.length - high + i]? = some v) :
    ∃ x, (s.paddedSlots high)[i]? = some x ∧ ∃ e ∈ x, e.value env = v := by
  have hlen := h.length_toList hr hh
  have hlt := (List.getElem?_eq_some_iff.1 hv).1
  have hi : i < (s.paddedSlots high).length := by omega
  -- The place `i` from the bottom of the padded slots is this place from the top of the stack.
  have hv' : c.topDown[(s.paddedSlots high).length - 1 - i]? = some v := by
    have hdepth : c.topDown.length = values.length - high + (s.paddedSlots high).length := by
      rwa [Stack.length_toList] at hlen
    rwa [Stack.toList, List.getElem?_reverse' (j := (s.paddedSlots high).length - 1 - i)
      (by omega)] at hv
  have hx : (s.paddedSlots high).reverse[(s.paddedSlots high).length - 1 - i]?
      = some (s.paddedSlots high)[i] := by
    rw [List.getElem?_reverse' (j := i) (by omega), List.getElem?_eq_getElem hi]
  exact ⟨_, List.getElem?_eq_getElem hi, h.value_of_padded hv' hx⟩

end Tracks

/-- The height after the run, as a length. -/
theorem SymbolicStack.WellFormed.length_add_depthChange {s : SymbolicStack} (h : s.WellFormed)
    (hr : s.InRange) {length : Nat} (hl : s.reached ≤ length) :
    (length : Int) + s.depthChange = ((length - s.reached + s.slots.length : Nat) : Int) := by
  rw [h.depthChange_eq hr, SymbolicStack.length_slots]
  omega

/-- The top slot of a level stack is what popping takes. -/
theorem SymbolicStack.topOfStack?_eq_pop {s : SymbolicStack} (h : s.ragged = false) :
    s.topOfStack? = some s.pop.1 := by
  unfold topOfStack? pop
  rw [h, if_neg Bool.false_ne_true]
  split
  · rfl
  · split
    · rfl
    · split <;> rfl

namespace Program

variable (p : Program) (originDepth : Nat) (values : List Rational)

/-- Every run ends on a stack that one end of the exploration describes. -/
theorem exists_tracked_end (hr : (p.explore originDepth).InRange) :
    ∃ s ∈ (p.explore originDepth).ends,
      Tracks (p.assignment originDepth values) originDepth (.ofList values)
        (p.run (.ofList values)) s := by
  obtain ⟨c, hc, s, hs, hR⟩ := (p.follows_explore originDepth values hr).exists_end
  have hlast := getLast?_boundaries p.code 0 (.ofList values)
  obtain rfl : c = ⟨[], p.run (.ofList values)⟩ := Option.some.inj (hc.symm.trans hlast)
  exact ⟨s, hs, hR⟩

/-- **The outcome contains every run on a deep enough stack.** -/
theorem evaluate_within_analyze (hr : (p.explore originDepth).InRange)
    (h : (p.analyze originDepth).topRefs + (p.analyze originDepth).bottomRefs ≤ values.length) :
    let outcome := p.analyze originDepth
    let final := p.evaluate values
    let base := values.length - (outcome.topRefs + outcome.bottomRefs)
    final.take base = values.take base ∧
      final.length ≤ base + outcome.slots.length ∧
      (final.length : Int) ≤ values.length + outcome.depthChange ∧
      (outcome.ragged = false →
        final.length = base + outcome.slots.length ∧
        (final.length : Int) = values.length + outcome.depthChange) ∧
      ∀ (i : Nat) (v : Rational), final[base + i]? = some v →
        ∃ slot, outcome.slots[i]? = some slot ∧
          ∃ e ∈ slot, e.value (p.assignment originDepth values) = v := by
  intro outcome final base
  obtain ⟨s, hend, hs⟩ := p.exists_tracked_end originDepth values hr
  have hcov := covers_analyze hr s hend
  have hlen := hs.length_toList hcov.reached_le h
  have hle : final.length ≤ base + outcome.slots.length :=
    Nat.le_trans (Nat.le_of_eq hlen) (Nat.add_le_add_left hcov.within.length_le _)
  have hchange : (values.length : Int) + outcome.depthChange
      = ((base + outcome.slots.length : Nat) : Int) :=
    (wellFormed_analyze hr).length_add_depthChange (inRange_analyze hr) h
  refine ⟨hs.take_toList (Nat.sub_le_sub_left hcov.reached_le _), hle, ?_, ?_, ?_⟩
  · rw [hchange]
    exact Int.ofNat_le.2 hle
  · intro hlevel
    have heq : final.length = base + outcome.slots.length :=
      hlen.trans (congrArg _ (hcov.level hlevel).2)
    exact ⟨heq, by rw [hchange, heq]⟩
  · intro i v hv
    obtain ⟨x, hx, e, he, hev⟩ :=
      hs.getElem?_toList hcov.reached_le h hv
    obtain ⟨slot, hslot, hsub⟩ := hcov.within i x hx
    exact ⟨slot, hslot, e, hsub e he, hev⟩

/-- Two undecided branches, one within the other, on a stack of four: three values are reached, and
what stays is the lowest one. -/
theorem evaluate_within_analyze_nested :
    let p : Program := ⟨[.bgtz 3, .bgtz 1, .len, .push 1, .binary .add]⟩
    (p.explore 1).InRange ∧
      (p.analyze 1).topRefs + (p.analyze 1).bottomRefs ≤ [1, 1, 0, 0].length ∧
      (p.evaluate [1, 1, 0, 0]).take 1 = [1] ∧
      (p.evaluate [1, 1, 0, 0]).length ≤ 1 + (p.analyze 1).slots.length ∧
      ∃ slot, (p.analyze 1).slots[1]? = some slot ∧
        ∃ e ∈ slot, e.value (p.assignment 1 [1, 1, 0, 0]) = .ofCount 3 := by
  intro p
  have hr : (p.explore 1).InRange := inRange_explore (by decide) (by decide)
  have hreached : (p.analyze 1).topRefs + (p.analyze 1).bottomRefs ≤ [1, 1, 0, 0].length := by
    decide +kernel
  obtain ⟨htake, hlen, -, -, hslot⟩ := evaluate_within_analyze p 1 [1, 1, 0, 0] hr hreached
  have hbase : ([1, 1, 0, 0] : List Rational).length
      - ((p.analyze 1).topRefs + (p.analyze 1).bottomRefs) = 1 := by decide +kernel
  simp only [hbase] at htake hlen hslot
  exact ⟨hr, hreached, htake, hlen, hslot 1 _ (by decide +kernel)⟩

/-- Out of range, two values pushed and popped again leave the wrong one of them behind, in a slot
at the place of the top. -/
theorem not_evaluate_within_analyze :
    let p : Program := ⟨[.push 0, .push 1, .bgtz 0, .bgtz 0]⟩
    let originDepth := 0x7fff_ffff_ffff_ffff
    let outcome := p.analyze originDepth
    let base := [0].length - (outcome.topRefs + outcome.bottomRefs)
    outcome.topRefs + outcome.bottomRefs ≤ [0].length ∧
      ¬∀ (i : Nat) (v : Rational), (p.evaluate [0])[base + i]? = some v →
        ∃ slot, outcome.slots[i]? = some slot ∧
          ∃ e ∈ slot, e.value (p.assignment originDepth [0]) = v := by
  intro p originDepth outcome base
  refine ⟨by decide +kernel, fun hall => ?_⟩
  obtain ⟨slot, hslot, e, he, hev⟩ := hall 0 0 (by decide +kernel)
  have hone : outcome.slots[0]? = some (.single (.lit 1)) := by decide +kernel
  obtain rfl : slot = .single (.lit 1) := Option.some.inj (hslot.symm.trans hone)
  obtain rfl := ExprSet.mem_single.1 he
  exact absurd hev (by decide)

end Program

/-! ## Counted from the top -/

namespace Tracks

variable {env : Expr.Assignment} {originDepth : Nat} {start c : Stack} {r s : SymbolicStack}

/-- A level cover holds the values at their places from the top, of whatever stack the run began
on. -/
theorem exists_mem_of_level (h : Tracks env originDepth start c s)
    (hcov : r.Covers s) (hlevel : r.ragged = false) {j : Nat} {v : Rational} {slot : ExprSet}
    (hv : c.topDown[j]? = some v) (hslot : r.slots.reverse[j]? = some slot) :
    ∃ e ∈ slot, e.value env = v := by
  have hlen := (hcov.level hlevel).2
  have hj : j < r.slots.length := by
    have := (List.getElem?_eq_some_iff.1 hslot).1
    rwa [List.length_reverse] at this
  have hi : r.slots.length - 1 - j < (s.paddedSlots r.reached).length := by omega
  have hx : (s.paddedSlots r.reached).reverse[j]?
      = some (s.paddedSlots r.reached)[r.slots.length - 1 - j] := by
    rw [List.getElem?_reverse' (j := r.slots.length - 1 - j) (by omega),
      List.getElem?_eq_getElem hi]
  obtain ⟨slot', hslot', hsub⟩ := hcov.within _ _ (List.getElem?_eq_getElem hi)
  rw [List.getElem?_reverse hj, hslot'] at hslot
  obtain rfl := Option.some.inj hslot
  obtain ⟨e, he, hev⟩ := h.value_of_padded hv hx
  exact ⟨e, hsub e he, hev⟩

/-- The top of a level cover holds the top of the stack. Where the cover has no slot, both are the
next value of the initial stack. -/
theorem exists_mem_top_of_level (h : Tracks env originDepth start c s)
    (hcov : r.Covers s) (hr : r.WellFormed) (hlevel : r.ragged = false) {v : Rational}
    (hv : c.topDown[0]? = some v) :
    ∃ slot, r.topOfStack? = some slot ∧ ∃ e ∈ slot, e.value env = v := by
  refine ⟨r.pop.1, SymbolicStack.topOfStack?_eq_pop hlevel, ?_⟩
  rcases hr.pop_eq with ⟨x, xs, hx, hfst, -, -⟩ | ⟨hnil, hfst, -, -⟩
  · rw [hfst]
    refine h.exists_mem_of_level hcov hlevel hv ?_
    rw [SymbolicStack.slots_eq_reverse, List.reverse_reverse, hx]
    rfl
  · -- No slot is left in the cover, so the run gave back what it took and reached as far down.
    have hempty : r.slots.length = 0 := by
      rw [SymbolicStack.length_slots, ← SymbolicStack.length_topDown, hnil]
      rfl
    have hpad := (hcov.level hlevel).2
    rw [hempty, SymbolicStack.length_paddedSlots] at hpad
    have hreached : s.reached = r.reached := by
      have := hcov.reached_le
      omega
    have hslots : s.slots = [] := by
      rw [← List.length_eq_zero_iff, SymbolicStack.length_slots]
      omega
    have hx : (s.paddedSlots (s.reached + 1)).reverse[0]?
        = some (.single (.initial s.originDepth s.reached)) := by
      rw [SymbolicStack.paddedSlots, hslots, SymbolicStack.refSlots]
      simp
    rw [hfst, ← hcov.originDepth_eq, ← hreached]
    exact h.value_of_padded hv hx

end Tracks

namespace Program

variable (p : Program) (originDepth : Nat) (values : List Rational)

/-- **A level outcome contains every run from the top down**, also one that takes more values than
the stack has. -/
theorem evaluate_within_analyze_from_top (hr : (p.explore originDepth).InRange)
    (h : (p.analyze originDepth).ragged = false) :
    let outcome := p.analyze originDepth
    let final := p.evaluate values
    let env := p.assignment originDepth values
    (∀ (j : Nat) (v : Rational) (slot : ExprSet), final.reverse[j]? = some v →
        outcome.slots.reverse[j]? = some slot → ∃ e ∈ slot, e.value env = v) ∧
      ∀ v : Rational, final.getLast? = some v →
        ∃ slot, outcome.topOfStack? = some slot ∧ ∃ e ∈ slot, e.value env = v := by
  intro outcome final env
  obtain ⟨s, hend, hs⟩ := p.exists_tracked_end originDepth values hr
  have hcov := covers_analyze hr s hend
  have hfinal : final.reverse = (p.run (.ofList values)).topDown := List.reverse_reverse _
  constructor
  · intro j v slot hv hslot
    rw [hfinal] at hv
    exact hs.exists_mem_of_level hcov h hv hslot
  · intro v hv
    -- The last value is the top of the stack.
    rw [← List.head?_reverse, hfinal, List.head?_eq_getElem?] at hv
    exact hs.exists_mem_top_of_level hcov (wellFormed_analyze hr) h hv

/-- A run that takes three values from a stack of one, and then counts what is left. -/
theorem evaluate_within_analyze_from_top_underflow :
    let p : Program := ⟨[.bgtz 1, .swap, .len]⟩
    (p.explore 1).InRange ∧ (p.analyze 1).ragged = false ∧
      ∃ slot, (p.analyze 1).topOfStack? = some slot ∧
        ∃ e ∈ slot, e.value (p.assignment 1 [0]) = .ofCount 2 := by
  intro p
  have hr : (p.explore 1).InRange := inRange_explore (by decide) (by decide)
  have hlevel : (p.analyze 1).ragged = false := by decide +kernel
  exact ⟨hr, hlevel, (evaluate_within_analyze_from_top p 1 [0] hr hlevel).2 _ (by decide +kernel)⟩

/-- Out of range, the outcome of a program that changes nothing has a top slot of its own. -/
theorem not_evaluate_within_analyze_from_top :
    let p : Program := ⟨[.push 0, .push 1, .bgtz 0, .bgtz 0]⟩
    let originDepth := 0x7fff_ffff_ffff_ffff
    let outcome := p.analyze originDepth
    outcome.ragged = false ∧
      ¬∀ v : Rational, (p.evaluate [0]).getLast? = some v →
        ∃ slot, outcome.topOfStack? = some slot ∧
          ∃ e ∈ slot, e.value (p.assignment originDepth [0]) = v := by
  intro p originDepth outcome
  refine ⟨by decide +kernel, fun hall => ?_⟩
  obtain ⟨slot, hslot, e, he, hev⟩ := hall 0 (by decide +kernel)
  have hone : outcome.topOfStack? = some (.single (.lit 1)) := by decide +kernel
  obtain rfl : slot = .single (.lit 1) := Option.some.inj (hslot.symm.trans hone)
  obtain rfl := ExprSet.mem_single.1 he
  exact absurd hev (by decide)

end Program

/-! ## The length -/

/-- Whether the point is a branch where the exploration goes both ways. -/
def SymbolicBoundary.isUndecided (b : SymbolicBoundary) : Bool :=
  match b.remaining with
  | .bgtz _ :: _ => b.stack.pop.1.decidePositive.isNone
  | _ => false

/-- An exploration that meets no undecided branch has one end, its outcome. -/
theorem ends_exploreOps_of_decided {ops : List Op} {index slots : Nat} {s : SymbolicStack}
    (h : ∀ b ∈ (exploreOps ops index slots s).points, b.isUndecided = false) :
    (exploreOps ops index slots s).ends = [(exploreOps ops index slots s).outcome] := by
  induction ops generalizing index slots s with
  | nil => rfl
  | cons op rest ih =>
    cases slots with
    | succ slots => exact ih h
    | zero =>
      rcases exploreOps_cons op rest index s with ⟨slots, heq⟩ | ⟨offset, rfl, hd, heq⟩ <;>
        rw [heq] at h ⊢
      · exact ih fun b hb => h b (List.mem_cons_of_mem _ hb)
      · have hno := h _ List.mem_cons_self
        rw [SymbolicBoundary.isUndecided, hd] at hno
        cases hno

namespace Program

/-- **The promised length is sound and exact where nothing is undecided.** Every run ends with at
least that many values, and the run on the empty stack with just that many if the analysis meets
no undecided branch. -/
theorem lengthBound_analyze (p : Program) (originDepth : Nat)
    (hr : (p.explore originDepth).InRange) :
    (∀ values, (p.analyze originDepth).lengthBound ≤ (p.evaluate values).length) ∧
      ((∀ b ∈ (p.explore originDepth).points, b.isUndecided = false) →
        (p.analyze originDepth).lengthBound = (p.evaluate []).length) := by
  constructor
  · intro values
    obtain ⟨s, hend, hs⟩ := p.exists_tracked_end originDepth values hr
    have hcov := covers_analyze hr s hend
    calc (p.analyze originDepth).lengthBound ≤ s.lengthBound := hcov.bound
      _ ≤ s.slotCount := Nat.sub_le _ _
      _ ≤ (p.run (.ofList values)).depth := by rw [hs.depth_eq]; exact Nat.le_add_right _ _
      _ = (p.evaluate values).length := (Stack.length_toList _).symm
  · intro hdecided
    obtain ⟨s, hend, hs⟩ := p.exists_tracked_end originDepth [] hr
    rw [explore, ends_exploreOps_of_decided hdecided] at hend
    obtain rfl : s = p.analyze originDepth := List.mem_singleton.1 hend
    calc (p.analyze originDepth).lengthBound
        = (p.analyze originDepth).slotCount := by
          rw [SymbolicStack.lengthBound, hs.shortfall_eq, Nat.sub_zero]
      _ = (p.run (.ofList [])).depth := by
          rw [hs.depth_eq, Stack.depth_ofList, List.length_nil, Nat.zero_sub, Nat.add_zero]
      _ = (p.evaluate []).length := (Stack.length_toList _).symm

/-- A branch that is decided skips a push; the value left is the one that is promised. -/
theorem lengthBound_analyze_decided :
    let p : Program := ⟨[.push 1, .bgtz 1, .dup, .push 0, .binary .add]⟩
    (p.explore 1).InRange ∧ (∀ b ∈ (p.explore 1).points, b.isUndecided = false) ∧
      (p.analyze 1).lengthBound = (p.evaluate []).length ∧ (p.analyze 1).lengthBound = 1 := by
  intro p
  have hr : (p.explore 1).InRange := inRange_explore (by decide) (by decide)
  have hdecided : ∀ b ∈ (p.explore 1).points, b.isUndecided = false := by decide +kernel
  exact ⟨hr, hdecided, (lengthBound_analyze p 1 hr).2 hdecided, by decide +kernel⟩

/-- Out of range, a value is promised that no run leaves behind. -/
theorem not_lengthBound_analyze :
    let p : Program := ⟨[.push 0, .push 1, .bgtz 0, .bgtz 0]⟩
    ¬(p.analyze 0x7fff_ffff_ffff_ffff).lengthBound ≤ (p.evaluate []).length := by
  decide +kernel

end Program

end StackSeq
