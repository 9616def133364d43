import StackSeq.Symbolic.Exploration

/-!
# The invariant of stacks over an unknown stack

A `SymbolicStack` keeps its slots in two lists and counts the values it took from the unknown stack
in two counters. The invariant `WellFormed` ties them together, and under it both splits disappear:

* the slots are one list, `topDown`, and `pop` and `push` are head, tail and cons on it;
* the values from before the run are numbered in one row (`Expr.initial`), and `pop` on a stack
  without slots takes the next one, number `reached`.

A push goes to the wrong side of the origin when the height wraps, so what is said of `push` is
about stacks whose counts fit (`InRange`).
-/

namespace StackSeq

/-- The value `n` places below the initial top, by the name that an analysis with this origin
gives to it. -/
def Expr.initial (originDepth n : Nat) : Expr :=
  if n < originDepth then .top n else .bottom (n - originDepth)

namespace SymbolicStack

variable {s : SymbolicStack}

/-! ## One list of slots, one row of references -/

/-- The modelled slots, topmost first. -/
def topDown (s : SymbolicStack) : List ExprSet := s.upper ++ s.lower

/-- How many values from before the run were reached. -/
def reached (s : SymbolicStack) : Nat := s.topRefs + s.bottomRefs

/-- The counts of the stack fit into signed 64-bit integers. -/
def InRange (s : SymbolicStack) : Prop :=
  s.span < 0x8000_0000_0000_0000 ∧ s.reached ≤ 0x8000_0000_0000_0000

instance (s : SymbolicStack) : Decidable s.InRange :=
  inferInstanceAs (Decidable (_ ∧ _))

theorem slots_eq_reverse (s : SymbolicStack) : s.slots = s.topDown.reverse := by
  rw [slots, bottom, top, topDown, List.reverse_append]

@[simp] theorem length_topDown (s : SymbolicStack) : s.topDown.length = s.slotCount := by
  rw [topDown, List.length_append, slotCount]

@[simp] theorem length_slots (s : SymbolicStack) : s.slots.length = s.slotCount := by
  rw [slots_eq_reverse, List.length_reverse, length_topDown]

/-- What every stack of an analysis satisfies. -/
structure WellFormed (s : SymbolicStack) : Prop where
  topRefs_le : s.topRefs ≤ s.originDepth
  /-- Values below the origin are reached only after all those above. -/
  topRefs_eq : 0 < s.bottomRefs → s.topRefs = s.originDepth
  lower_le : s.lower.length ≤ s.bottomRefs
  /-- Slots lie above the origin only once all places below it are filled. -/
  lower_eq : s.upper ≠ [] → s.lower.length = s.bottomRefs

namespace WellFormed

theorem initial (originDepth : Nat) : (SymbolicStack.initial originDepth).WellFormed where
  topRefs_le := Nat.zero_le _
  topRefs_eq := fun h => absurd h (Nat.lt_irrefl 0)
  lower_le := Nat.le_refl _
  lower_eq := fun h => absurd rfl h

theorem bottomRefs_eq_zero (h : s.WellFormed) (ht : s.topRefs < s.originDepth) :
    s.bottomRefs = 0 := by
  rcases Nat.eq_zero_or_pos s.bottomRefs with hb | hb
  · exact hb
  · exact absurd (h.topRefs_eq hb) (Nat.ne_of_lt ht)

/-- Slots below the origin exist only after all values above it were reached. -/
theorem lower_eq_nil (h : s.WellFormed) (ht : s.topRefs < s.originDepth) : s.lower = [] := by
  have hlow := h.lower_le
  rw [h.bottomRefs_eq_zero ht] at hlow
  exact List.length_eq_zero_iff.1 (Nat.le_zero.1 hlow)

/-- The next value of the unknown stack, as long as some above the origin were not reached. -/
theorem initial_reached_of_lt (h : s.WellFormed) (ht : s.topRefs < s.originDepth) :
    Expr.initial s.originDepth s.reached = .top s.topRefs := by
  rw [Expr.initial, reached, h.bottomRefs_eq_zero ht, Nat.add_zero, if_pos ht]

/-- The next value of the unknown stack once all values above the origin were reached. -/
theorem initial_reached_of_not_lt (h : s.WellFormed) (ht : ¬s.topRefs < s.originDepth) :
    Expr.initial s.originDepth s.reached = .bottom s.bottomRefs := by
  have he : s.topRefs = s.originDepth := Nat.le_antisymm h.topRefs_le (Nat.not_lt.1 ht)
  rw [Expr.initial, reached, he, if_neg (by omega), Nat.add_sub_cancel_left]

/-- The stack rises above the origin by what it rose in the run and the depth of the origin. -/
theorem span_eq (h : s.WellFormed) :
    s.span = (s.slotCount : Int) - (s.reached : Nat) + (s.originDepth : Nat) := by
  have := h.topRefs_le
  unfold span unreached slotCount reached
  omega

/-- How the depth changed, in terms of slots and references. -/
theorem depthChange_eq (h : s.WellFormed) (hr : s.InRange) :
    s.depthChange = (s.slotCount : Int) - (s.reached : Nat) := by
  obtain ⟨hspan, hreached⟩ := hr
  have heq := h.span_eq
  have hfits : Text.FitsInt64 ((s.slotCount : Int) - (s.reached : Nat)) :=
    ⟨by omega, by omega⟩
  rw [depthChange, height, Text.wrapInt64, Text.wrapInt64, Int.bmod_sub_bmod, heq,
    Int.add_sub_cancel]
  exact Text.wrapInt64_of_fits hfits

end WellFormed

/-- A stack lies no further below its origin than values were reached. -/
theorem neg_reached_le_span (s : SymbolicStack) : -(s.reached : Int) ≤ s.span := by
  unfold reached span
  omega

/-- In range the height does not wrap. -/
theorem InRange.height_eq (h : s.InRange) : s.height = s.span := by
  obtain ⟨hspan, hreached⟩ := h
  have hlow := s.neg_reached_le_span
  exact Text.wrapInt64_of_fits ⟨by omega, hspan⟩

/-! ## Popping -/

/-- The four ways to pop: a slot above the origin, the next value above the origin, a slot below
the origin, the next value below the origin. -/
theorem pop_cases (s : SymbolicStack) :
    (∃ x xs, s.upper = x :: xs ∧ s.pop = (x, { s with upper := xs })) ∨
    (s.upper = [] ∧ s.topRefs < s.originDepth ∧
      s.pop = (.single (.top s.topRefs), { s with topRefs := s.topRefs + 1 })) ∨
    (s.upper = [] ∧ ¬s.topRefs < s.originDepth ∧
      ∃ x xs, s.lower = x :: xs ∧ s.pop = (x, { s with lower := xs })) ∨
    (s.upper = [] ∧ ¬s.topRefs < s.originDepth ∧ s.lower = [] ∧
      s.pop = (.single (.bottom s.bottomRefs), { s with bottomRefs := s.bottomRefs + 1 })) := by
  unfold pop
  cases hu : s.upper with
  | cons x xs => exact .inl ⟨x, xs, rfl, rfl⟩
  | nil =>
    refine .inr ?_
    by_cases ht : s.topRefs < s.originDepth
    · exact .inl ⟨rfl, ht, if_pos ht⟩
    · refine .inr ?_
      simp only [if_neg ht]
      cases hl : s.lower with
      | cons x xs => exact .inl ⟨trivial, ht, x, xs, rfl, rfl⟩
      | nil => exact .inr ⟨trivial, ht, rfl, rfl⟩

@[simp] theorem originDepth_pop (s : SymbolicStack) : s.pop.2.originDepth = s.originDepth := by
  rcases pop_cases s with ⟨x, xs, -, h⟩ | ⟨-, -, h⟩ | ⟨-, -, x, xs, -, h⟩ | ⟨-, -, -, h⟩ <;> rw [h]

@[simp] theorem shortfall_pop (s : SymbolicStack) : s.pop.2.shortfall = s.shortfall := by
  rcases pop_cases s with ⟨x, xs, -, h⟩ | ⟨-, -, h⟩ | ⟨-, -, x, xs, -, h⟩ | ⟨-, -, -, h⟩ <;> rw [h]

@[simp] theorem ragged_pop (s : SymbolicStack) : s.pop.2.ragged = s.ragged := by
  rcases pop_cases s with ⟨x, xs, -, h⟩ | ⟨-, -, h⟩ | ⟨-, -, x, xs, -, h⟩ | ⟨-, -, -, h⟩ <;> rw [h]

theorem span_pop (s : SymbolicStack) : s.pop.2.span = s.span - 1 := by
  unfold span unreached
  rcases pop_cases s with ⟨x, xs, hu, hp⟩ | ⟨hu, ht, hp⟩ | ⟨hu, -, x, xs, hl, hp⟩ |
    ⟨hu, -, hl, hp⟩
  · simp only [hp, hu, List.length_cons]
    omega
  · simp only [hp]
    omega
  · simp only [hp, hl, List.length_cons]
    omega
  · simp only [hp]
    omega

theorem reached_pop_le (s : SymbolicStack) : s.pop.2.reached ≤ s.reached + 1 := by
  unfold reached
  rcases pop_cases s with ⟨x, xs, -, h⟩ | ⟨-, -, h⟩ | ⟨-, -, x, xs, -, h⟩ | ⟨-, -, -, h⟩ <;> rw [h]
  · exact Nat.le_succ _
  · exact Nat.le_of_eq (Nat.succ_add _ _)
  · exact Nat.le_succ _
  · exact Nat.le_refl _

theorem topRefs_pop_le (h : s.topRefs ≤ s.originDepth) :
    s.pop.2.topRefs ≤ s.pop.2.originDepth := by
  rcases pop_cases s with ⟨x, xs, -, hp⟩ | ⟨-, ht, hp⟩ | ⟨-, -, x, xs, -, hp⟩ | ⟨-, -, -, hp⟩ <;>
    rw [hp]
  · exact h
  · exact ht
  · exact h
  · exact h

/-- Values below the origin are popped only after all those above. -/
theorem topRefs_pop_eq (hle : s.topRefs ≤ s.originDepth)
    (heq : 0 < s.bottomRefs → s.topRefs = s.originDepth) (h : 0 < s.pop.2.bottomRefs) :
    s.pop.2.topRefs = s.pop.2.originDepth := by
  rcases pop_cases s with ⟨x, xs, -, hp⟩ | ⟨-, ht, hp⟩ | ⟨-, -, x, xs, -, hp⟩ | ⟨-, ht, -, hp⟩ <;>
    rw [hp] at h ⊢
  · exact heq h
  · exact absurd (heq h) (Nat.ne_of_lt ht)
  · exact heq h
  · exact Nat.le_antisymm hle (Nat.not_lt.1 ht)

theorem WellFormed.pop (h : s.WellFormed) : s.pop.2.WellFormed := by
  have hlow := h.lower_le
  refine ⟨topRefs_pop_le h.topRefs_le, topRefs_pop_eq h.topRefs_le h.topRefs_eq, ?_, ?_⟩
  · rcases pop_cases s with ⟨x, xs, -, hp⟩ | ⟨-, -, hp⟩ | ⟨-, -, x, xs, hl, hp⟩ | ⟨-, -, -, hp⟩ <;>
      rw [hp]
    · exact hlow
    · exact hlow
    · rw [hl, List.length_cons] at hlow
      exact Nat.le_of_succ_le hlow
    · exact Nat.le_succ_of_le hlow
  · intro hne
    rcases pop_cases s with ⟨x, xs, hu, hp⟩ | ⟨hu, -, hp⟩ | ⟨hu, -, x, xs, -, hp⟩ |
      ⟨hu, -, -, hp⟩ <;> rw [hp] at hne ⊢
    · exact h.lower_eq (by rw [hu]; exact List.cons_ne_nil _ _)
    · exact absurd hu hne
    · exact absurd hu hne
    · exact absurd hu hne

/-- **Popping takes the topmost slot**, and the next value of the unknown stack if no slot is
left. -/
theorem WellFormed.pop_eq (h : s.WellFormed) :
    (∃ x xs, s.topDown = x :: xs ∧
      s.pop.1 = x ∧ s.pop.2.topDown = xs ∧ s.pop.2.reached = s.reached) ∨
    (s.topDown = [] ∧ s.pop.1 = .single (.initial s.originDepth s.reached) ∧
      s.pop.2.topDown = [] ∧ s.pop.2.reached = s.reached + 1) := by
  unfold topDown reached
  rcases pop_cases s with ⟨x, xs, hu, hp⟩ | ⟨hu, ht, hp⟩ | ⟨hu, ht, x, xs, hl, hp⟩ |
    ⟨hu, ht, hl, hp⟩ <;> rw [hp, hu]
  · exact .inl ⟨x, xs ++ s.lower, rfl, rfl, rfl, rfl⟩
  · have hl : s.lower = [] := h.lower_eq_nil ht
    rw [hl]
    exact .inr ⟨rfl, by rw [← h.initial_reached_of_lt ht, reached], rfl, Nat.succ_add _ _⟩
  · rw [hl]
    exact .inl ⟨x, xs, rfl, rfl, rfl, rfl⟩
  · rw [hl]
    exact .inr ⟨rfl, by rw [← h.initial_reached_of_not_lt ht, reached], rfl, rfl⟩

/-! ## Pushing -/

@[simp] theorem originDepth_push (s : SymbolicStack) (x : ExprSet) :
    (s.push x).originDepth = s.originDepth := by
  unfold push
  split <;> rfl

@[simp] theorem topRefs_push (s : SymbolicStack) (x : ExprSet) :
    (s.push x).topRefs = s.topRefs := by
  unfold push
  split <;> rfl

@[simp] theorem bottomRefs_push (s : SymbolicStack) (x : ExprSet) :
    (s.push x).bottomRefs = s.bottomRefs := by
  unfold push
  split <;> rfl

@[simp] theorem shortfall_push (s : SymbolicStack) (x : ExprSet) :
    (s.push x).shortfall = s.shortfall := by
  unfold push
  split <;> rfl

@[simp] theorem ragged_push (s : SymbolicStack) (x : ExprSet) :
    (s.push x).ragged = s.ragged := by
  unfold push
  split <;> rfl

@[simp] theorem reached_push (s : SymbolicStack) (x : ExprSet) :
    (s.push x).reached = s.reached := by
  unfold push
  split <;> rfl

@[simp] theorem span_push (s : SymbolicStack) (x : ExprSet) : (s.push x).span = s.span + 1 := by
  unfold push
  split <;>
    · simp only [span, unreached, List.length_cons]
      omega

/-- The counts fit before a push if they do after it. -/
theorem InRange.of_push {x : ExprSet} (h : (s.push x).InRange) : s.InRange := by
  obtain ⟨hspan, hreached⟩ := h
  rw [span_push] at hspan
  rw [reached_push] at hreached
  exact ⟨by omega, hreached⟩

/-- Below the origin nothing lies above it. -/
theorem WellFormed.upper_eq_nil (h : s.WellFormed) (hs : s.span < 0) : s.upper = [] := by
  by_cases hu : s.upper = []
  · exact hu
  · have := h.lower_eq hu
    unfold span at hs
    omega

/-- At the origin or above it, the places below it are filled. -/
theorem WellFormed.length_lower (h : s.WellFormed) (hs : ¬s.span < 0) :
    s.lower.length = s.bottomRefs := by
  by_cases hu : s.upper = []
  · have hlow := h.lower_le
    have htop := h.topRefs_eq
    unfold span unreached at hs
    rw [hu, List.length_nil] at hs
    omega
  · exact h.lower_eq hu

theorem WellFormed.push_of_height_eq {x : ExprSet} (h : s.WellFormed)
    (hheight : s.height = s.span) : (s.push x).WellFormed := by
  by_cases hs : s.span < 0
  · have hu := h.upper_eq_nil hs
    rw [SymbolicStack.push, hheight, if_pos hs]
    refine ⟨h.topRefs_le, h.topRefs_eq, ?_, fun hne => absurd hu hne⟩
    show s.lower.length + 1 ≤ s.bottomRefs
    unfold span at hs
    omega
  · rw [SymbolicStack.push, hheight, if_neg hs]
    exact ⟨h.topRefs_le, h.topRefs_eq, h.lower_le, fun _ => h.length_lower hs⟩

theorem WellFormed.push {x : ExprSet} (h : s.WellFormed) (hr : (s.push x).InRange) :
    (s.push x).WellFormed :=
  h.push_of_height_eq hr.of_push.height_eq

/-- **Pushing puts a slot on top.** -/
theorem WellFormed.topDown_push {x : ExprSet} (h : s.WellFormed) (hr : (s.push x).InRange) :
    (s.push x).topDown = x :: s.topDown := by
  have hheight := hr.of_push.height_eq
  unfold SymbolicStack.push
  rw [hheight]
  split
  · next hs => rw [topDown, topDown, h.upper_eq_nil hs]; rfl
  · rfl

/-! ## Merging -/

/-- Place by place the union of the slots, and the slot itself where only one stack has one. -/
theorem getElem?_unionSlots (left right : List ExprSet) (i : Nat) :
    (unionSlots left right)[i]? = Option.merge ExprSet.union left[i]? right[i]? := by
  fun_induction unionSlots left right generalizing i with
  | case1 right => cases right[i]? <;> rfl
  | case2 left => cases left[i]? <;> rfl
  | case3 l left r right ih =>
    cases i with
    | zero => rfl
    | succ i => exact ih i

@[simp] theorem length_unionSlots (left right : List ExprSet) :
    (unionSlots left right).length = max left.length right.length := by
  fun_induction unionSlots left right with
  | case1 right => rw [List.length_nil, Nat.zero_max]
  | case2 left => rw [List.length_nil, Nat.max_zero]
  | case3 l left r right ih =>
    simp only [List.length_cons, ih]
    omega

@[simp] theorem length_refSlots (ref : Nat → Expr) (low high : Nat) :
    (refSlots ref low high).length = high - low := by
  simp [refSlots]

theorem refSlots_self (ref : Nat → Expr) (n : Nat) : refSlots ref n n = [] := by
  simp [refSlots]

theorem refSlots_append (ref : Nat → Expr) {low mid high : Nat} (hl : low ≤ mid)
    (hh : mid ≤ high) : refSlots ref mid high ++ refSlots ref low mid = refSlots ref low high := by
  have hsplit : List.range' low (mid - low) ++ List.range' mid (high - mid)
      = List.range' low (high - low) := by
    have := @List.range'_append_1 low (mid - low) (high - mid)
    rwa [Nat.add_sub_cancel' hl, show mid - low + (high - mid) = high - low by omega] at this
  rw [refSlots, refSlots, refSlots, ← List.reverse_append, ← List.map_append, hsplit]

theorem refSlots_initial_top {originDepth high : Nat} (low : Nat) (h : high ≤ originDepth) :
    refSlots (.initial originDepth) low high = refSlots .top low high := by
  unfold refSlots
  congr 1
  refine List.map_congr_left fun n hn => ?_
  rw [List.mem_range'_1] at hn
  rw [Expr.initial, if_pos (by omega)]

theorem refSlots_initial_bottom (originDepth low high : Nat) :
    refSlots (.initial originDepth) (originDepth + low) (originDepth + high)
      = refSlots .bottom low high := by
  unfold refSlots
  rw [Nat.add_sub_add_left, List.range'_eq_map_range, List.range'_eq_map_range, List.map_map,
    List.map_map]
  congr 1
  refine List.map_congr_left fun n _ => ?_
  show ExprSet.single (Expr.initial originDepth (originDepth + low + n)) = _
  rw [Expr.initial, if_neg (by omega), Nat.add_assoc, Nat.add_sub_cancel_left]
  rfl

/-- The slots from the bottom up, on top of the values from before the run with numbers up to
`high`, the end excluded, that the stack did not reach. -/
def paddedSlots (s : SymbolicStack) (high : Nat) : List ExprSet :=
  refSlots (.initial s.originDepth) s.reached high ++ s.slots

@[simp] theorem length_paddedSlots (s : SymbolicStack) (high : Nat) :
    (s.paddedSlots high).length = high - s.reached + s.slotCount := by
  rw [paddedSlots, List.length_append, length_refSlots, length_slots]

theorem paddedSlots_reached (s : SymbolicStack) : s.paddedSlots s.reached = s.slots := by
  rw [paddedSlots, refSlots_self, List.nil_append]

theorem paddedSlots_of_le {mid high : Nat} (hm : s.reached ≤ mid) (hh : mid ≤ high) :
    s.paddedSlots high = refSlots (.initial s.originDepth) mid high ++ s.paddedSlots mid := by
  rw [paddedSlots, paddedSlots, ← List.append_assoc, refSlots_append _ hm hh]

/-- **Alignment pads a stack.** Both places where `alignedSlots` fills in references make up one
stretch of the unknown stack. -/
theorem WellFormed.alignedSlots_eq (h : s.WellFormed) {topRefs bottomRefs : Nat}
    (ht : s.topRefs ≤ topRefs) (hto : topRefs ≤ s.originDepth)
    (hbt : 0 < bottomRefs → topRefs = s.originDepth) :
    s.alignedSlots topRefs bottomRefs = s.paddedSlots (topRefs + bottomRefs) := by
  -- Values below the origin are asked for only when all above it are, so the numbers continue.
  have hbelow : ∀ low, refSlots (.initial s.originDepth) (topRefs + low) (topRefs + bottomRefs)
      = refSlots .bottom low bottomRefs := by
    intro low
    rcases Nat.eq_zero_or_pos bottomRefs with h0 | hpos
    · rw [h0]
      simp [refSlots]
    · rw [hbt hpos, refSlots_initial_bottom]
  by_cases hlt : s.topRefs < topRefs
  · -- Values above the origin are missing: nothing below it was reached yet.
    have htop : s.topRefs < s.originDepth := Nat.lt_of_lt_of_le hlt hto
    have hlow : s.lower = [] := h.lower_eq_nil htop
    have hb0 : s.bottomRefs = 0 := h.bottomRefs_eq_zero htop
    rw [paddedSlots, alignedSlots, slots, bottom, hlow, hb0, ← hbelow,
      ← refSlots_initial_top _ hto, reached, hb0, List.reverse_nil, List.append_nil,
      List.nil_append, Nat.add_zero, Nat.add_zero, refSlots_append _ ht (Nat.le_add_right _ _)]
  · have hte : topRefs = s.topRefs := by omega
    rw [paddedSlots, alignedSlots, slots, reached, ← hbelow, hte, refSlots_self, List.append_nil,
      List.append_assoc]

variable {a b : SymbolicStack}

/-- A merge reached values below the origin only if one of the stacks did, and that one reached all
above it. -/
theorem topRefs_merge_eq {originDepth : Nat} (hla : a.topRefs ≤ originDepth)
    (hlb : b.topRefs ≤ originDepth) (ha : 0 < a.bottomRefs → a.topRefs = originDepth)
    (hb : 0 < b.bottomRefs → b.topRefs = originDepth) (h : 0 < (a.merge b).bottomRefs) :
    (a.merge b).topRefs = originDepth := by
  simp only [SymbolicStack.merge] at h ⊢
  omega

/-- A shortfall is stored, not a bound: it counts the slots above the smaller of both bounds. -/
theorem shortfall_merge (a b : SymbolicStack) :
    (a.merge b).shortfall = (a.merge b).slotCount - min a.lengthBound b.lengthBound := by
  rw [← length_slots]
  simp only [slots, bottom, top, merge, List.reverse_reverse, List.take_append_drop]

theorem WellFormed.merge (ha : a.WellFormed) (hb : b.WellFormed)
    (hab : a.originDepth = b.originDepth) : (a.merge b).WellFormed where
  topRefs_le := Nat.max_le.2 ⟨ha.topRefs_le, hab ▸ hb.topRefs_le⟩
  topRefs_eq :=
    topRefs_merge_eq ha.topRefs_le (hab ▸ hb.topRefs_le) ha.topRefs_eq (hab ▸ hb.topRefs_eq)
  lower_le := by
    simp only [SymbolicStack.merge, List.length_reverse, List.length_take]
    exact Nat.min_le_left _ _
  lower_eq := by
    intro hne
    simp only [SymbolicStack.merge, ne_eq, List.reverse_eq_nil_iff, List.drop_eq_nil_iff] at hne
    simp only [SymbolicStack.merge, List.length_reverse, List.length_take]
    omega

/-- What a merge joins: both stacks padded down to the lowest value that one of them reached. -/
theorem WellFormed.alignedSlots_merge (ha : a.WellFormed) (hb : b.WellFormed)
    (hab : a.originDepth = b.originDepth) :
    a.alignedSlots (max a.topRefs b.topRefs) (max a.bottomRefs b.bottomRefs)
        = a.paddedSlots (a.merge b).reached ∧
      b.alignedSlots (max a.topRefs b.topRefs) (max a.bottomRefs b.bottomRefs)
        = b.paddedSlots (a.merge b).reached := by
  have hm := ha.merge hb hab
  exact ⟨ha.alignedSlots_eq (Nat.le_max_left _ _) hm.topRefs_le hm.topRefs_eq,
    hb.alignedSlots_eq (Nat.le_max_right _ _) (hab ▸ hm.topRefs_le) (hab ▸ hm.topRefs_eq)⟩

/-- **The slots of a merge** are the unions, place by place, of the padded slots. -/
theorem WellFormed.slots_merge (ha : a.WellFormed) (hb : b.WellFormed)
    (hab : a.originDepth = b.originDepth) :
    (a.merge b).slots
      = unionSlots (a.paddedSlots (a.merge b).reached) (b.paddedSlots (a.merge b).reached) := by
  obtain ⟨hl, hr⟩ := ha.alignedSlots_merge hb hab
  rw [← hl, ← hr]
  simp only [slots, bottom, top, SymbolicStack.merge, List.reverse_reverse, List.take_append_drop]

/-- A merge is level if both stacks are and reach the same height. -/
theorem WellFormed.ragged_merge_eq_false (ha : a.WellFormed) (hb : b.WellFormed)
    (hab : a.originDepth = b.originDepth) :
    (a.merge b).ragged = false ↔ a.ragged = false ∧ b.ragged = false ∧
      (a.paddedSlots (a.merge b).reached).length
        = (b.paddedSlots (a.merge b).reached).length := by
  obtain ⟨hl, hr⟩ := ha.alignedSlots_merge hb hab
  rw [← hl, ← hr]
  simp only [SymbolicStack.merge, Bool.or_eq_false_iff, bne_eq_false_iff_eq, and_assoc]

theorem reached_le_merge_left (a b : SymbolicStack) : a.reached ≤ (a.merge b).reached :=
  Nat.add_le_add (Nat.le_max_left _ _) (Nat.le_max_left _ _)

theorem reached_le_merge_right (a b : SymbolicStack) : b.reached ≤ (a.merge b).reached :=
  Nat.add_le_add (Nat.le_max_right _ _) (Nat.le_max_right _ _)

theorem WellFormed.slotCount_merge (ha : a.WellFormed) (hb : b.WellFormed)
    (hab : a.originDepth = b.originDepth) :
    (a.merge b).slotCount = max ((a.merge b).reached - a.reached + a.slotCount)
      ((a.merge b).reached - b.reached + b.slotCount) := by
  rw [← length_slots, ha.slots_merge hb hab, length_unionSlots, length_paddedSlots,
    length_paddedSlots]

/-- **The bound of a merge is the smaller of both bounds.** -/
theorem WellFormed.lengthBound_merge (ha : a.WellFormed) (hb : b.WellFormed)
    (hab : a.originDepth = b.originDepth) :
    (a.merge b).lengthBound = min a.lengthBound b.lengthBound := by
  have hslots := ha.slotCount_merge hb hab
  have hle : a.lengthBound ≤ a.slotCount := Nat.sub_le _ _
  rw [lengthBound, shortfall_merge]
  omega

theorem WellFormed.reached_merge (ha : a.WellFormed) (hb : b.WellFormed)
    (hab : a.originDepth = b.originDepth) :
    (a.merge b).reached = max a.reached b.reached := by
  have hta := ha.topRefs_le
  have htb := hb.topRefs_le
  have hba := ha.topRefs_eq
  have hbb := hb.topRefs_eq
  show max a.topRefs b.topRefs + max a.bottomRefs b.bottomRefs = max a.reached b.reached
  unfold reached
  omega

/-- The counts of a merge are the larger ones of both stacks. -/
theorem WellFormed.inRange_merge (ha : a.WellFormed) (hb : b.WellFormed)
    (hab : a.originDepth = b.originDepth) (hra : a.InRange) (hrb : b.InRange) :
    (a.merge b).InRange := by
  -- Padding leaves the span as it is, so the span of the merge is that of the taller stack.
  have hslots := ha.slotCount_merge hb hab
  have hreached := ha.reached_merge hb hab
  have horigin : (a.merge b).originDepth = a.originDepth := rfl
  obtain ⟨hsa, hna⟩ := hra
  obtain ⟨hsb, hnb⟩ := hrb
  rw [ha.span_eq] at hsa
  rw [hb.span_eq] at hsb
  refine ⟨?_, by omega⟩
  rw [(ha.merge hb hab).span_eq]
  omega

end SymbolicStack

end StackSeq
