import StackSeq.Proofs.Symbolic.Path

/-!
# What keeps the representation

The counters of a stack agree with each other and no slot is missing that is not there, at every
point of every exploration and in everything that is merged from such stacks (`Obtained`):
`Counted`. With that no difference of two counters is ever negative. `execute?` and `merge?` fail
where one would be, and they never do (`execute?_eq`, `merge?_eq`).

That the slots lie on their sides of the origin is another matter. A push decides it by the height,
and from `2 ^ 63` on the height has the wrong sign. As long as every push finds a height that fits
(`Exploration.PushesFit`) the sides are kept, and where one does not, some point of the exploration
has more slots below its origin than places: `pushesFit_iff`.
-/

namespace StackSeq

open SymbolicStack

/-! ## Pushes that fit -/

/-- Every push of the operation that is next finds a height that fits. -/
def SymbolicBoundary.PushesFit (b : SymbolicBoundary) : Prop :=
  ∀ op ∈ b.remaining.head?, b.stack.PushesFit op

instance (b : SymbolicBoundary) : Decidable b.PushesFit :=
  inferInstanceAs (Decidable (∀ op ∈ b.remaining.head?, b.stack.PushesFit op))

/-- Every push of the exploration finds a height that fits into a signed 64-bit integer. -/
def Exploration.PushesFit (t : Exploration) : Prop :=
  ∀ b ∈ t.points, b.PushesFit

instance (t : Exploration) : Decidable t.PushesFit :=
  inferInstanceAs (Decidable (∀ b ∈ t.points, b.PushesFit))

namespace SymbolicStack

variable {s : SymbolicStack}

theorem length_lower_push_le (s : SymbolicStack) (x : ExprSet) :
    s.lower.length ≤ (s.push x).lower.length := by
  unfold push
  split
  · exact Nat.le_succ _
  · exact Nat.le_refl _

/-- Pushes take nothing from below the origin. -/
theorem length_lower_pushMany_le (s : SymbolicStack) (slots : List ExprSet) :
    s.lower.length ≤ (s.pushMany slots).lower.length := by
  induction slots generalizing s with
  | nil => exact Nat.le_refl _
  | cons x slots ih => exact Nat.le_trans (s.length_lower_push_le x) (ih (s.push x))

namespace WellFormed

/-- **A push at a height that wraps fills a place below the origin that is not there**, and it stays
filled. -/
theorem fitsInt64_of_pushMany {slots : List ExprSet} (h : s.WellFormed)
    (hlow : -0x8000_0000_0000_0000 ≤ s.span)
    (hhigh : s.span + (slots.length : Nat) ≤ 0x1_0000_0000_0000_0000)
    (hle : (s.pushMany slots).lower.length ≤ s.bottomRefs) :
    ∀ i < slots.length, Text.FitsInt64 (s.span + (i : Nat)) := by
  induction slots generalizing s with
  | nil => exact fun i hi => absurd hi (Nat.not_lt_zero i)
  | cons x slots ih =>
    rw [List.length_cons] at hhigh ⊢
    have hfirst : Text.FitsInt64 s.span := by
      refine ⟨hlow, ?_⟩
      by_contra hge
      have hneg : s.height < 0 := Text.wrapInt64_neg (by omega) (by omega)
      have hfull : s.lower.length = s.bottomRefs := h.length_lower (by omega)
      have hover : s.lower.length + 1 = (s.push x).lower.length := by
        rw [SymbolicStack.push, if_pos hneg, List.length_cons]
      have hkept := (s.push x).length_lower_pushMany_le slots
      rw [pushMany_cons] at hle
      omega
    have hrest := ih (h.push_of_height_eq (x := x) (Text.wrapInt64_of_fits hfirst))
      (by rw [span_push]; omega) (by rw [span_push]; omega) (by rw [bottomRefs_push]; exact hle)
    rintro (_ | i) hi
    · rwa [Int.natCast_zero, Int.add_zero]
    · have hnext := hrest i (Nat.lt_of_succ_lt_succ hi)
      rwa [span_push, Int.add_assoc, Int.add_comm 1, ← Int.natCast_succ] at hnext

/-- The pushes of an operation fit if it leaves no more slots below the origin than places. -/
theorem pushesFit {index : Nat} {op : Op} (h : s.WellFormed)
    (hspan : s.span < 0x1_0000_0000_0000_0000)
    (hreached : (s.execute index op).reached ≤ 0x8000_0000_0000_0000)
    (hle : (s.execute index op).lower.length ≤ (s.execute index op).bottomRefs) :
    s.PushesFit op := by
  rw [execute_eq] at hreached hle
  rw [reached_pushMany] at hreached
  rw [bottomRefs_pushMany] at hle
  have hlow := neg_reached_le_span (s.popMany op.operands)
  have hresults := op.results_le
  have hfit := (h.popMany op.operands).fitsInt64_of_pushMany (by omega)
    (by rw [span_popMany, length_results]; omega) hle
  rwa [span_popMany, length_results] at hfit

end WellFormed

/-- The height stays below `2 ^ 64` over an operation whose pushes fit: it ends at `2 ^ 63` or lower
if it pushes anything. -/
theorem PushesFit.span_execute_lt {op : Op} (h : s.PushesFit op) (index : Nat)
    (hspan : s.span < 0x1_0000_0000_0000_0000) :
    (s.execute index op).span < 0x1_0000_0000_0000_0000 := by
  rw [span_execute]
  rcases Nat.eq_zero_or_pos op.results with hzero | hpos
  · rw [hzero]
    omega
  · have hlast := (h (op.results - 1) (by omega)).2
    omega

end SymbolicStack

namespace Program

variable {p : Program} {originDepth : Nat}

theorem wellFormed_of_mem_points (hfit : (p.explore originDepth).PushesFit) {b : SymbolicBoundary}
    (h : b ∈ (p.explore originDepth).points) : b.stack.WellFormed := by
  refine forall_points_exploreOps (P := fun _ s => s.WellFormed) (Q := SymbolicBoundary.PushesFit)
    (fun _ _ _ hs => hs) ?_ hfit (.initial originDepth) b h
  intro op rest index s hs hnow _
  exact hs.execute (hnow op rfl) index

/-- **The condition is exact**: a push at a height that does not fit shows at some point, as a slot
below the origin that has no place there. -/
theorem pushesFit_iff (ho : originDepth < 0x1_0000_0000_0000_0000)
    (hp : 3 * p.length ≤ 0x8000_0000_0000_0000) :
    (p.explore originDepth).PushesFit ↔
      ∀ b ∈ (p.explore originDepth).points, b.stack.lower.length ≤ b.stack.bottomRefs := by
  constructor
  · intro hfit b hb
    exact (wellFormed_of_mem_points hfit hb).lower_le
  · intro hle
    have hnear : ∀ b ∈ (p.explore originDepth).points,
        b.stack.lower.length ≤ b.stack.bottomRefs ∧
          b.stack.reached ≤ 0x8000_0000_0000_0000 := by
      intro b hb
      have hreached := (counts_of_mem_points hb).2
      exact ⟨hle b hb, by omega⟩
    have hinv : ∀ b ∈ (p.explore originDepth).points,
        b.stack.WellFormed ∧ b.stack.span < 0x1_0000_0000_0000_0000 := by
      refine forall_points_exploreOps
        (P := fun _ s => s.WellFormed ∧ s.span < 0x1_0000_0000_0000_0000)
        (Q := fun b => b.stack.lower.length ≤ b.stack.bottomRefs ∧
          b.stack.reached ≤ 0x8000_0000_0000_0000)
        (fun _ _ _ hs => hs) ?_ hnear ⟨.initial originDepth, Int.ofNat_lt.2 ho⟩
      rintro op rest index s ⟨hs, hspan⟩ - ⟨remaining, hlow, hreached⟩
      have hfit := hs.pushesFit hspan hreached hlow
      exact ⟨hs.execute hfit index, hfit.span_execute_lt index hspan⟩
    rintro ⟨remaining, s⟩ hb op hop
    obtain ⟨rest, rfl⟩ := List.head?_eq_some_iff.1 hop
    obtain ⟨hs, hspan⟩ := hinv _ hb
    obtain ⟨index, next, hnext, heq⟩ := exists_next_point hb rfl
    obtain ⟨hlow, hreached⟩ := hnear next hnext
    rw [heq] at hlow hreached
    exact hs.pushesFit hspan hreached hlow

/-- **A bound for the depth of the origin** under which every push fits. -/
theorem pushesFit_explore (ho : originDepth + p.length ≤ 0x8000_0000_0000_0000)
    (hp : 3 * p.length ≤ 0x8000_0000_0000_0000) : (p.explore originDepth).PushesFit := by
  rintro ⟨remaining, s⟩ hb op hop i hi
  obtain ⟨rest, rfl⟩ := List.head?_eq_some_iff.1 hop
  obtain ⟨hspan, hreached⟩ := counts_of_mem_points hb
  have hlow := s.neg_reached_le_span
  have := op.operands_le
  have := op.results_le
  simp only [List.length_cons] at hspan hreached
  show Text.FitsInt64 (s.span - (op.operands : Nat) + (i : Nat))
  exact ⟨by omega, by omega⟩

/-- The bound is sharp for a program that pushes only. -/
example : let p : Program := ⟨[.push 0, .push 1]⟩
    (p.explore 0x7fff_ffff_ffff_fffe).PushesFit ∧ ¬(p.explore 0x7fff_ffff_ffff_ffff).PushesFit := by
  decide +kernel

theorem unmerged_of_mem_points {b : SymbolicBoundary} (h : b ∈ (p.explore originDepth).points) :
    b.stack.Unmerged originDepth := by
  refine forall_points_exploreOps (P := fun _ s => s.Unmerged originDepth) (Q := fun _ => True)
    (fun _ _ _ hs => hs) ?_ (fun _ _ => trivial) (.initial originDepth) b h
  intro op rest index s hs _ _
  exact hs.execute index op

end Program

/-! ## Counters -/

namespace SymbolicStack

variable {originDepth : Nat} {s a b : SymbolicStack} {P : Exploration → Prop}

/-- What the counters of every stack satisfy that an analysis with this origin reports or that is
merged from such, also where heights wrap. -/
structure Counted (originDepth : Nat) (s : SymbolicStack) : Prop where
  originDepth_eq : s.originDepth = originDepth
  topRefs_le : s.topRefs ≤ s.originDepth
  /-- Values below the origin are reached only after all those above. -/
  topRefs_eq : 0 < s.bottomRefs → s.topRefs = s.originDepth
  /-- No more slots may be missing than there are. -/
  shortfall_le : s.shortfall ≤ s.slotCount

theorem Unmerged.counted (h : s.Unmerged originDepth) : s.Counted originDepth where
  originDepth_eq := h.originDepth_eq
  topRefs_le := h.topRefs_le
  topRefs_eq := h.topRefs_eq
  shortfall_le := h.shortfall_eq ▸ Nat.zero_le _

theorem Counted.merge (ha : a.Counted originDepth) (hb : b.Counted originDepth) :
    (a.merge b).Counted originDepth := by
  have hab : b.originDepth = a.originDepth := hb.originDepth_eq.trans ha.originDepth_eq.symm
  have hla := ha.topRefs_le
  have hlb := hab ▸ hb.topRefs_le
  exact
    { originDepth_eq := ha.originDepth_eq
      topRefs_le := Nat.max_le.2 ⟨hla, hlb⟩
      topRefs_eq := topRefs_merge_eq hla hlb ha.topRefs_eq (hab ▸ hb.topRefs_eq)
      shortfall_le := shortfall_merge a b ▸ Nat.sub_le _ _ }

/-- The stacks that analyses with this origin report whose explorations have a property, and what is
merged from such. -/
inductive Obtained (originDepth : Nat) (P : Exploration → Prop) : SymbolicStack → Prop where
  | reported {p : Program} {b : SymbolicBoundary} (hp : P (p.explore originDepth))
      (hb : b ∈ (p.explore originDepth).points) : Obtained originDepth P b.stack
  | merge {a b : SymbolicStack} (ha : Obtained originDepth P a) (hb : Obtained originDepth P b) :
      Obtained originDepth P (a.merge b)

namespace Obtained

theorem counted (h : s.Obtained originDepth P) : s.Counted originDepth := by
  induction h with
  | reported _ hb => exact (Program.unmerged_of_mem_points hb).counted
  | merge _ _ iha ihb => exact iha.merge ihb

theorem wellFormed (h : s.Obtained originDepth Exploration.PushesFit) : s.WellFormed := by
  induction h with
  | reported hp hb => exact Program.wellFormed_of_mem_points hp hb
  | merge ha hb iha ihb =>
    exact iha.merge ihb (ha.counted.originDepth_eq.trans hb.counted.originDepth_eq.symm)

theorem outcome {t : Exploration} (h : ∀ s ∈ t.ends, s.Obtained originDepth P) :
    t.outcome.Obtained originDepth P := by
  induction t with
  | halt s => exact h s (List.mem_singleton_self s)
  | step remaining s next ih => exact ih h
  | fork remaining s fallThrough taken ihf iht =>
    rw [Exploration.ends, List.forall_mem_append] at h
    exact .merge (ihf h.1) (iht h.2)

/-- What an analysis returns is merged from the ends of its runs. -/
theorem analyze {p : Program} (hp : P (p.explore originDepth)) :
    (p.analyze originDepth).Obtained originDepth P :=
  outcome fun _ hs => .reported hp (Exploration.mem_points_of_mem_ends hs)

end Obtained

/-! ## Checked differences -/

/-- The difference of two counters, if it is not negative. -/
def difference? (m n : Nat) : Option Nat :=
  if n ≤ m then some (m - n) else none

theorem difference?_eq {m n : Nat} (h : n ≤ m) : difference? m n = some (m - n) :=
  if_pos h

/-- The slots below a place and those from it on, if there are as many. -/
def cut? (slots : List ExprSet) (n : Nat) : Option (List ExprSet × List ExprSet) :=
  if n ≤ slots.length then some (slots.take n, slots.drop n) else none

theorem cut?_min (slots : List ExprSet) (n : Nat) :
    cut? slots (min n slots.length) = some (slots.take n, slots.drop n) := by
  rw [cut?, if_pos (Nat.min_le_right _ _)]
  rcases Nat.le_total n slots.length with h | h
  · rw [Nat.min_eq_left h]
  · rw [Nat.min_eq_right h, List.take_length, List.drop_length, List.take_of_length_le h,
      List.drop_of_length_le h]

/-- The height, computed with checked differences. -/
def height? (s : SymbolicStack) : Option Int := do
  let unreached ← difference? s.originDepth s.topRefs
  let above := unreached + s.upper.length + s.lower.length
  some (Text.wrapInt64 ((above : Nat) - (s.bottomRefs : Nat)))

/-- A push, computed with checked differences. -/
def push? (s : SymbolicStack) (x : ExprSet) : Option SymbolicStack := do
  let height ← s.height?
  some (if height < 0 then { s with lower := x :: s.lower } else { s with upper := x :: s.upper })

/-- An operation, computed with checked differences. -/
def execute? (s : SymbolicStack) (index : Nat) (op : Op) : Option SymbolicStack :=
  (s.results index op).foldlM push? (s.popMany op.operands)

/-- The single slot of the value above the origin at this place, counted from the origin up. -/
def refSlot? (s : SymbolicStack) (place : Nat) : Option ExprSet := do
  let highest ← difference? s.originDepth 1
  let i ← difference? highest place
  some (.single (.top i))

/-- The aligned slots, computed with checked differences: the values above the origin are those from
one place to another. -/
def alignedSlots? (s : SymbolicStack) (topRefs bottomRefs : Nat) : Option (List ExprSet) := do
  let low ← difference? s.originDepth topRefs
  let high ← difference? s.originDepth s.topRefs
  let refs ← (List.range' low (high - low)).mapM s.refSlot?
  some (refSlots .bottom s.bottomRefs bottomRefs ++ s.bottom ++ refs ++ s.top)

/-- A merge, computed with checked differences and a checked cut. -/
def merge? (a b : SymbolicStack) : Option SymbolicStack := do
  let topRefs := max a.topRefs b.topRefs
  let bottomRefs := max a.bottomRefs b.bottomRefs
  let left ← a.alignedSlots? topRefs bottomRefs
  let right ← b.alignedSlots? topRefs bottomRefs
  let slots := unionSlots left right
  let (lower, upper) ← cut? slots (min bottomRefs slots.length)
  some
    { upper := upper.reverse
      lower := lower.reverse
      originDepth := a.originDepth
      topRefs
      bottomRefs
      shortfall := slots.length - min a.lengthBound b.lengthBound
      ragged := a.ragged || b.ragged || left.length != right.length }

theorem height?_eq (h : s.topRefs ≤ s.originDepth) : s.height? = some s.height := by
  rw [height?, difference?_eq h]
  rfl

theorem push?_eq (h : s.topRefs ≤ s.originDepth) (x : ExprSet) : s.push? x = some (s.push x) := by
  rw [push?, height?_eq h]
  rfl

theorem foldlM_push?_eq (h : s.topRefs ≤ s.originDepth) (slots : List ExprSet) :
    slots.foldlM push? s = some (s.pushMany slots) := by
  induction slots generalizing s with
  | nil => rfl
  | cons x slots ih =>
    rw [List.foldlM_cons, push?_eq h x]
    exact ih (by rwa [topRefs_push, originDepth_push])

/-- **No operation takes the difference of two counters the wrong way.** -/
theorem execute?_eq (h : s.Unmerged originDepth) (index : Nat) (op : Op) :
    s.execute? index op = some (s.execute index op) := by
  rw [execute_eq]
  exact foldlM_push?_eq (h.popMany op.operands).topRefs_le (s.results index op)

theorem refSlot?_eq {place : Nat} (h : place < s.originDepth) :
    s.refSlot? place = some (.single (.top (s.originDepth - 1 - place))) := by
  rw [refSlot?, difference?_eq (Nat.one_le_of_lt h)]
  show (difference? (s.originDepth - 1) place).bind _ = _
  rw [difference?_eq (Nat.le_sub_one_of_lt h)]
  rfl

/-- Counting places up from the origin is counting values down from the initial top. -/
theorem map_places_eq_refSlots {originDepth topRefs : Nat} (low : Nat) (h : topRefs ≤ originDepth) :
    (List.range' (originDepth - topRefs) (originDepth - low - (originDepth - topRefs))).map
        (fun place => ExprSet.single (.top (originDepth - 1 - place)))
      = refSlots .top low topRefs := by
  refine List.ext_getElem ?_ fun i hi hi' => ?_
  · rw [List.length_map, List.length_range', length_refSlots]
    omega
  · rw [length_refSlots] at hi'
    simp only [refSlots, List.getElem_map, List.getElem_range', List.getElem_reverse,
      List.length_map, List.length_range']
    congr 2
    omega

theorem alignedSlots?_eq {topRefs : Nat} (h : topRefs ≤ s.originDepth)
    (hs : s.topRefs ≤ s.originDepth) (bottomRefs : Nat) :
    s.alignedSlots? topRefs bottomRefs = some (s.alignedSlots topRefs bottomRefs) := by
  have hrefs : (List.range' (s.originDepth - topRefs)
      (s.originDepth - s.topRefs - (s.originDepth - topRefs))).mapM s.refSlot?
        = some (refSlots .top s.topRefs topRefs) := by
    rw [mapM_eq_some_iff, ← map_places_eq_refSlots s.topRefs h, List.map_map]
    refine List.map_congr_left fun place hplace => ?_
    rw [List.mem_range'_1] at hplace
    exact (refSlot?_eq (by omega)).symm
  rw [alignedSlots?, difference?_eq h, difference?_eq hs]
  show (List.mapM s.refSlot? _).bind _ = _
  rw [hrefs]
  rfl

/-- **No merge takes the difference of two counters the wrong way**, and none cuts beyond its
slots. -/
theorem merge?_eq (ha : a.Counted originDepth) (hb : b.Counted originDepth) :
    a.merge? b = some (a.merge b) := by
  have hab : b.originDepth = a.originDepth := hb.originDepth_eq.trans ha.originDepth_eq.symm
  have hla : max a.topRefs b.topRefs ≤ a.originDepth := (ha.merge hb).topRefs_le
  have hlb : max a.topRefs b.topRefs ≤ b.originDepth := hab ▸ hla
  rw [merge?, alignedSlots?_eq hla ha.topRefs_le, alignedSlots?_eq hlb hb.topRefs_le]
  simp only [Option.bind_eq_bind, Option.bind_some, cut?_min]
  rfl

end SymbolicStack

/-! ## The representation -/

/-- **What keeps the representation.** Of every stack that an analysis with this origin reports and
of everything merged from such, the counters agree, no slot is empty and no more are missing than
there are; before a merge every slot is a single expression. So no difference of counters is
negative, in any operation and in any merge. The slots lie on their sides of the origin if every
push finds a height that fits, and on the stacks of an exploration only then. -/
theorem keeps_representation (originDepth : Nat) :
    (∀ s : SymbolicStack, s.Obtained originDepth (fun _ => True) →
      s.originDepth = originDepth ∧ s.topRefs ≤ s.originDepth ∧
      (0 < s.bottomRefs → s.topRefs = s.originDepth) ∧ s.shortfall ≤ s.slots.length ∧
      (∀ x ∈ s.slots, x.exprs ≠ []) ∧ s.height? = some s.height ∧
      ∀ t : SymbolicStack, t.Obtained originDepth (fun _ => True) →
        s.merge? t = some (s.merge t)) ∧
    (∀ s : SymbolicStack, s.Obtained originDepth Exploration.PushesFit →
      s.bottom.length ≤ s.bottomRefs ∧ (s.top ≠ [] → s.bottom.length = s.bottomRefs)) ∧
    ∀ p : Program,
      (∀ P, P (p.explore originDepth) → (p.analyze originDepth).Obtained originDepth P) ∧
      (∀ b ∈ (p.explore originDepth).points,
        (∀ x ∈ b.stack.slots, x.exprs.length = 1) ∧
        ∀ index op, b.stack.execute? index op = some (b.stack.execute index op)) ∧
      (originDepth < 0x1_0000_0000_0000_0000 → 3 * p.length ≤ 0x8000_0000_0000_0000 →
        ((p.explore originDepth).PushesFit ↔
          ∀ b ∈ (p.explore originDepth).points, b.stack.bottom.length ≤ b.stack.bottomRefs)) := by
  refine ⟨?_, ?_, fun p => ⟨fun P hp => .analyze hp, ?_, ?_⟩⟩
  · intro s hs
    have h := hs.counted
    exact ⟨h.originDepth_eq, h.topRefs_le, h.topRefs_eq, (length_slots s).symm ▸ h.shortfall_le,
      fun x _ => x.nonempty, height?_eq h.topRefs_le, fun t ht => merge?_eq h ht.counted⟩
  · intro s hs
    have h := hs.wellFormed
    rw [bottom, top, List.length_reverse]
    exact ⟨h.lower_le, fun hne => h.lower_eq (mt List.reverse_eq_nil_iff.2 hne)⟩
  · intro b hb
    have h := Program.unmerged_of_mem_points hb
    refine ⟨fun x hx => ?_, execute?_eq h⟩
    rw [slots_eq_reverse, List.mem_reverse] at hx
    obtain ⟨e, rfl⟩ := h.single x hx
    rfl
  · intro ho hp
    simp only [bottom, List.length_reverse]
    exact Program.pushesFit_iff ho hp

/-- Slots on both sides of an origin from below which a value was taken, and one that the run may
lack that takes the branch. -/
theorem keeps_representation_branching :
    let p : Program := ⟨[.binary .add, .len, .bgtz 1, .push 0, .push 1]⟩
    let s := p.analyze 1
    0 < s.bottomRefs ∧ s.topRefs = s.originDepth ∧ s.top ≠ [] ∧ s.bottom.length = s.bottomRefs ∧
      0 < s.shortfall ∧ s.shortfall ≤ s.slots.length ∧ s.merge? s = some (s.merge s) ∧
      (p.explore 1).PushesFit ∧
      ∀ b ∈ (p.explore 1).points, b.stack.bottom.length ≤ b.stack.bottomRefs := by
  intro p s
  have hbelow : 0 < s.bottomRefs := by decide +kernel
  have hmissing : 0 < s.shortfall := by decide +kernel
  have htop : s.top ≠ [] := by decide +kernel
  have hfit : (p.explore 1).PushesFit := Program.pushesFit_explore (by decide) (by decide)
  obtain ⟨hall, hsides, hprogram⟩ := keeps_representation 1
  obtain ⟨hanalyze, -, hexact⟩ := hprogram p
  obtain ⟨-, -, htopRefs, hshortfall, -, -, hmerge⟩ := hall s (hanalyze _ trivial)
  exact ⟨hbelow, htopRefs hbelow, htop, (hsides s (hanalyze _ hfit)).2 htop, hmissing, hshortfall,
    hmerge s (hanalyze _ trivial), hfit, (hexact (by decide) (by decide)).1 hfit⟩

/-- Where a push finds a height that does not fit, a slot lies below an origin below which nothing
was reached. -/
theorem not_keeps_representation :
    let p : Program := ⟨[.push 0, .push 1, .binary .add, .binary .add]⟩
    let s := p.analyze 0x7fff_ffff_ffff_ffff
    s.bottomRefs = 0 ∧ ¬s.bottom.length ≤ s.bottomRefs := by
  decide +kernel

end StackSeq
