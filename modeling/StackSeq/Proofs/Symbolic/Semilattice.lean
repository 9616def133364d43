import StackSeq.Proofs.Symbolic.Coverage
import StackSeq.Proofs.Symbolic.Order

/-!
# Merging is a semilattice

On the stacks that analyses with one origin report, and on what is merged from those, `merge` is
commutative, associative and idempotent: `merge_laws`. So the outcome of an analysis is the merge of
the stacks at which its runs end, in any order, in any groups and each as often as one likes.

It is not so on all values of the type: a merge puts as many slots below the origin as values below
it were reached, and counts anew what some run may lack. `Mergeable` is what it takes for a merge to
leave a stack as it is. Such a stack is known by four things (`Mergeable.ext`), its slots, how many
values it reached, its bound and whether it is ragged, and each of them has its law:

* slots are united place by place, and padding a merge is merging what is padded
  (`paddedSlots_merge`);
* of the values reached the larger number counts (`reached_merge`), of the bounds the smaller
  (`lengthBound_merge`);
* a merge is level if both stacks are and rose by the same height (`level_merge_iff`).
-/

namespace StackSeq

/-! ## Sets and lists of sets -/

namespace ExprSet

theorem union_comm (a b : ExprSet) : a.union b = b.union a :=
  ext_of_mem_iff fun e => by rw [mem_union, mem_union, or_comm]

theorem union_assoc (a b c : ExprSet) : (a.union b).union c = a.union (b.union c) :=
  ext_of_mem_iff fun e => by simp only [mem_union, or_assoc]

theorem union_self (a : ExprSet) : a.union a = a :=
  ext_of_mem_iff fun e => by rw [mem_union, or_self]

instance : Std.Commutative union := ⟨union_comm⟩

instance : Std.Associative union := ⟨union_assoc⟩

instance : Std.IdempotentOp union := ⟨union_self⟩

end ExprSet

namespace SymbolicStack

section

variable (xs ys zs : List ExprSet)

theorem unionSlots_comm : unionSlots xs ys = unionSlots ys xs :=
  List.ext_getElem? fun i => by
    rw [getElem?_unionSlots, getElem?_unionSlots]
    exact Std.Commutative.comm _ _

theorem unionSlots_assoc :
    unionSlots (unionSlots xs ys) zs = unionSlots xs (unionSlots ys zs) :=
  List.ext_getElem? fun i => by
    simp only [getElem?_unionSlots]
    exact Std.Associative.assoc _ _ _

theorem unionSlots_self : unionSlots xs xs = xs :=
  List.ext_getElem? fun i => by
    rw [getElem?_unionSlots]
    exact Std.IdempotentOp.idempotent _

theorem unionSlots_append_left :
    unionSlots (xs ++ ys) (xs ++ zs) = xs ++ unionSlots ys zs := by
  induction xs with
  | nil => rfl
  | cons x xs ih =>
    rw [List.cons_append, List.cons_append, unionSlots, ih, ExprSet.union_self]
    rfl

end

/-! ## What a stack is known by -/

/-- How far the stack rose in the run. -/
def rise (s : SymbolicStack) : Int := (s.slotCount : Int) - (s.reached : Nat)

/-- What every stack satisfies that an analysis with this origin reports or that is merged from
such. -/
structure Mergeable (originDepth : Nat) (s : SymbolicStack) : Prop extends s.WellFormed where
  originDepth_eq : s.originDepth = originDepth
  /-- No more slots may be missing than there are. -/
  shortfall_le : s.shortfall ≤ s.slotCount

theorem OnPath.mergeable {originDepth : Nat} {s : SymbolicStack} (h : s.OnPath originDepth) :
    s.Mergeable originDepth where
  toWellFormed := h.toWellFormed
  originDepth_eq := h.originDepth_eq
  shortfall_le := h.shortfall_eq ▸ Nat.zero_le _

variable {originDepth : Nat} {a b c : SymbolicStack}

namespace WellFormed

theorem topRefs_eq_min (h : a.WellFormed) : a.topRefs = min a.reached a.originDepth := by
  have hle := h.topRefs_le
  have hall := h.topRefs_eq
  unfold reached
  omega

/-- Below the origin lie as many slots as there are places. -/
theorem length_lower_eq_min (h : a.WellFormed) :
    a.lower.length = min a.bottomRefs a.slotCount := by
  have hle := h.lower_le
  by_cases hupper : a.upper = []
  · rw [slotCount, hupper, List.length_nil]
    omega
  · have heq := h.lower_eq hupper
    rw [slotCount]
    omega

end WellFormed

/-- **A mergeable stack is known by its slots, the number of values it reached, its bound and
whether it is ragged.** -/
theorem Mergeable.ext (ha : a.Mergeable originDepth) (hb : b.Mergeable originDepth)
    (hreached : a.reached = b.reached) (hslots : a.slots = b.slots)
    (hbound : a.lengthBound = b.lengthBound) (hragged : a.ragged = b.ragged) : a = b := by
  have horigin : a.originDepth = b.originDepth := ha.originDepth_eq.trans hb.originDepth_eq.symm
  have htop : a.topRefs = b.topRefs := by
    rw [ha.topRefs_eq_min, hb.topRefs_eq_min, hreached, horigin]
  have hbottom : a.bottomRefs = b.bottomRefs := by
    unfold reached at hreached
    omega
  have hcount : a.slotCount = b.slotCount := by rw [← length_slots, hslots, length_slots]
  have hshort : a.shortfall = b.shortfall := by
    have hsa := ha.shortfall_le
    have hsb := hb.shortfall_le
    unfold lengthBound at hbound
    omega
  have hlower : a.lower.reverse.length = b.lower.reverse.length := by
    rw [List.length_reverse, List.length_reverse, ha.length_lower_eq_min, hb.length_lower_eq_min,
      hbottom, hcount]
  obtain ⟨hl, hu⟩ := List.append_inj hslots hlower
  cases a
  cases b
  simp_all [bottom, top]

/-! ## The merge of two -/

namespace Mergeable

theorem originDepths_eq (ha : a.Mergeable originDepth) (hb : b.Mergeable originDepth) :
    a.originDepth = b.originDepth :=
  ha.originDepth_eq.trans hb.originDepth_eq.symm

theorem merge (ha : a.Mergeable originDepth) (hb : b.Mergeable originDepth) :
    (a.merge b).Mergeable originDepth where
  toWellFormed := ha.toWellFormed.merge hb.toWellFormed (ha.originDepths_eq hb)
  originDepth_eq := ha.originDepth_eq
  shortfall_le := by
    rw [shortfall_merge]
    exact Nat.sub_le _ _

variable (ha : a.Mergeable originDepth) (hb : b.Mergeable originDepth)

include ha hb

theorem reached_merge : (a.merge b).reached = max a.reached b.reached :=
  ha.toWellFormed.reached_merge hb.toWellFormed (ha.originDepths_eq hb)

theorem lengthBound_merge : (a.merge b).lengthBound = min a.lengthBound b.lengthBound :=
  ha.toWellFormed.lengthBound_merge hb.toWellFormed (ha.originDepths_eq hb)

theorem slots_merge : (a.merge b).slots
    = unionSlots (a.paddedSlots (a.merge b).reached) (b.paddedSlots (a.merge b).reached) :=
  ha.toWellFormed.slots_merge hb.toWellFormed (ha.originDepths_eq hb)

/-- **Padding a merge is merging what is padded.** -/
theorem paddedSlots_merge {high : Nat} (h : (a.merge b).reached ≤ high) :
    (a.merge b).paddedSlots high = unionSlots (a.paddedSlots high) (b.paddedSlots high) := by
  have hla := reached_le_merge_left a b
  have hlb := reached_le_merge_right a b
  rw [paddedSlots_of_le hla h, paddedSlots_of_le hlb h, ← ha.originDepths_eq hb,
    unionSlots_append_left, ← ha.slots_merge hb]
  rfl

/-- A merge rises as far as the taller stack. -/
theorem rise_merge : (a.merge b).rise = max a.rise b.rise := by
  have hcount := ha.toWellFormed.slotCount_merge hb.toWellFormed (ha.originDepths_eq hb)
  have hreached := ha.reached_merge hb
  unfold rise
  omega

/-- A merge is level if both stacks are and rose by the same height. -/
theorem level_merge_iff :
    (a.merge b).ragged = false ↔ a.ragged = false ∧ b.ragged = false ∧ a.rise = b.rise := by
  have hla := reached_le_merge_left a b
  have hlb := reached_le_merge_right a b
  rw [ha.toWellFormed.ragged_merge_eq_false hb.toWellFormed (ha.originDepths_eq hb),
    length_paddedSlots, length_paddedSlots]
  refine and_congr_right fun _ => and_congr_right fun _ => ?_
  unfold rise
  omega

end Mergeable

/-- Stacks are ragged alike if they are level alike. -/
theorem ragged_eq_of_level_iff (h : a.ragged = false ↔ b.ragged = false) : a.ragged = b.ragged := by
  cases hb : b.ragged with
  | false => exact h.2 hb
  | true =>
    rw [hb] at h
    simpa using h

/-! ## The laws -/

namespace Mergeable

theorem merge_comm (ha : a.Mergeable originDepth) (hb : b.Mergeable originDepth) :
    a.merge b = b.merge a := by
  have hreached : (a.merge b).reached = (b.merge a).reached := by
    rw [ha.reached_merge hb, hb.reached_merge ha, Nat.max_comm]
  refine (ha.merge hb).ext (hb.merge ha) hreached ?_ ?_ (ragged_eq_of_level_iff ?_)
  · rw [ha.slots_merge hb, hb.slots_merge ha, hreached, unionSlots_comm]
  · rw [ha.lengthBound_merge hb, hb.lengthBound_merge ha, Nat.min_comm]
  · rw [ha.level_merge_iff hb, hb.level_merge_iff ha]
    exact ⟨fun ⟨h, h', heq⟩ => ⟨h', h, heq.symm⟩, fun ⟨h, h', heq⟩ => ⟨h', h, heq.symm⟩⟩

theorem merge_assoc (ha : a.Mergeable originDepth) (hb : b.Mergeable originDepth)
    (hc : c.Mergeable originDepth) : (a.merge b).merge c = a.merge (b.merge c) := by
  have hab := ha.merge hb
  have hbc := hb.merge hc
  have hreached : ((a.merge b).merge c).reached = (a.merge (b.merge c)).reached := by
    rw [hab.reached_merge hc, ha.reached_merge hb, ha.reached_merge hbc, hb.reached_merge hc,
      Nat.max_assoc]
  refine (hab.merge hc).ext (ha.merge hbc) hreached ?_ ?_ (ragged_eq_of_level_iff ?_)
  · -- All three are padded down to the lowest value that one of them reached.
    have hleft : (a.merge b).reached ≤ ((a.merge b).merge c).reached := reached_le_merge_left _ _
    have hright : (b.merge c).reached ≤ ((a.merge b).merge c).reached :=
      hreached ▸ reached_le_merge_right _ _
    rw [hab.slots_merge hc, ha.paddedSlots_merge hb hleft, ha.slots_merge hbc, ← hreached,
      hb.paddedSlots_merge hc hright, unionSlots_assoc]
  · rw [hab.lengthBound_merge hc, ha.lengthBound_merge hb, ha.lengthBound_merge hbc,
      hb.lengthBound_merge hc, Nat.min_assoc]
  · rw [hab.level_merge_iff hc, ha.level_merge_iff hb, ha.level_merge_iff hbc,
      hb.level_merge_iff hc, ha.rise_merge hb, hb.rise_merge hc]
    constructor
    · rintro ⟨⟨hla, hlb, hrise⟩, hlc, hrise'⟩
      exact ⟨hla, ⟨hlb, hlc, by omega⟩, by omega⟩
    · rintro ⟨hla, ⟨hlb, hlc, hrise⟩, hrise'⟩
      exact ⟨⟨hla, hlb, by omega⟩, hlc, by omega⟩

theorem merge_self (ha : a.Mergeable originDepth) : a.merge a = a := by
  have hreached : (a.merge a).reached = a.reached := by
    rw [ha.reached_merge ha, Nat.max_self]
  refine (ha.merge ha).ext ha hreached ?_ ?_ (ragged_eq_of_level_iff ?_)
  · rw [ha.slots_merge ha, hreached, paddedSlots_reached, unionSlots_self]
  · rw [ha.lengthBound_merge ha, Nat.min_self]
  · rw [ha.level_merge_iff ha]
    exact ⟨fun ⟨h, _⟩ => h, fun h => ⟨h, h, rfl⟩⟩

end Mergeable

/-- A stack absorbs a merge exactly if it absorbs both parts. -/
theorem Mergeable.merge_merge_eq_iff (ha : a.Mergeable originDepth) (hb : b.Mergeable originDepth)
    (hc : c.Mergeable originDepth) :
    (a.merge b).merge c = c ↔ a.merge c = c ∧ b.merge c = c := by
  constructor
  · intro h
    constructor
    · calc a.merge c = (a.merge (a.merge b)).merge c := by
            rw [ha.merge_assoc (ha.merge hb) hc, h]
        _ = (a.merge b).merge c := by rw [← ha.merge_assoc ha hb, ha.merge_self]
        _ = c := h
    · calc b.merge c = (b.merge (a.merge b)).merge c := by
            rw [hb.merge_assoc (ha.merge hb) hc, h]
        _ = (a.merge b).merge c := by
            rw [ha.merge_comm hb, ← hb.merge_assoc hb ha, hb.merge_self]
        _ = c := h
  · rintro ⟨hac, hbc⟩
    rw [ha.merge_assoc hb hc, hbc, hac]

/-- The stacks that analyses with this origin report, and what is merged from such. -/
inductive Arises (originDepth : Nat) : SymbolicStack → Prop where
  | reported {p : Program} {b : SymbolicBoundary} (hr : (p.explore originDepth).InRange)
      (hb : b ∈ (p.explore originDepth).points) : Arises originDepth b.stack
  | merge {a b : SymbolicStack} (ha : Arises originDepth a) (hb : Arises originDepth b) :
      Arises originDepth (a.merge b)

theorem Arises.mergeable (h : Arises originDepth a) : a.Mergeable originDepth := by
  induction h with
  | reported hr hb => exact (Program.onPath_of_mem_points hr hb).mergeable
  | merge _ _ iha ihb => exact iha.merge ihb

end SymbolicStack

/-! ## Merges of many -/

/-- An order in which stacks are merged, two at a time. -/
inductive Grouping where
  | single (s : SymbolicStack)
  | pair (a b : Grouping)

namespace Grouping

/-- The stacks that are merged. -/
def members : Grouping → List SymbolicStack
  | single s => [s]
  | pair a b => a.members ++ b.members

/-- What they are merged into. -/
def result : Grouping → SymbolicStack
  | single s => s
  | pair a b => a.result.merge b.result

variable {originDepth : Nat} {g g' : Grouping}

theorem mergeable_result (h : ∀ s ∈ g.members, s.Mergeable originDepth) :
    g.result.Mergeable originDepth := by
  induction g with
  | single s => exact h s (List.mem_singleton_self s)
  | pair a b iha ihb =>
    obtain ⟨ha, hb⟩ := List.forall_mem_append.1 h
    exact (iha ha).merge (ihb hb)

/-- A stack absorbs what is merged exactly if it absorbs every member. -/
theorem result_merge_eq_iff {s : SymbolicStack} (h : ∀ s ∈ g.members, s.Mergeable originDepth)
    (hs : s.Mergeable originDepth) : g.result.merge s = s ↔ ∀ m ∈ g.members, m.merge s = s := by
  induction g with
  | single m => simp [result, members]
  | pair a b iha ihb =>
    obtain ⟨ha, hb⟩ := List.forall_mem_append.1 h
    rw [result, members, List.forall_mem_append,
      (mergeable_result ha).merge_merge_eq_iff (mergeable_result hb) hs, iha ha, ihb hb]

/-- **The order of merging does not matter**, nor how often a stack is merged. -/
theorem result_eq_of_mem_iff (h : ∀ s ∈ g.members, s.Mergeable originDepth)
    (hmem : ∀ s, s ∈ g.members ↔ s ∈ g'.members) : g.result = g'.result := by
  have h' : ∀ s ∈ g'.members, s.Mergeable originDepth := fun s hs => h s ((hmem s).2 hs)
  have hg := mergeable_result h
  have hg' := mergeable_result h'
  -- Each result absorbs its own members, so it absorbs the other result.
  have hself := (result_merge_eq_iff h hg).1 hg.merge_self
  have hself' := (result_merge_eq_iff h' hg').1 hg'.merge_self
  calc g.result = g'.result.merge g.result :=
        ((result_merge_eq_iff h' hg).2 fun m hm => hself m ((hmem m).2 hm)).symm
    _ = g.result.merge g'.result := hg'.merge_comm hg
    _ = g'.result := (result_merge_eq_iff h hg').2 fun m hm => hself' m ((hmem m).1 hm)

end Grouping

/-! ## The outcome of an exploration -/

/-- How an exploration merges its ends: the runs from each fork are merged first. -/
def Exploration.grouping : Exploration → Grouping
  | halt stack => .single stack
  | step _ _ next => next.grouping
  | fork _ _ fallThrough taken => .pair fallThrough.grouping taken.grouping

theorem Exploration.members_grouping (t : Exploration) : t.grouping.members = t.ends := by
  induction t with
  | halt s => rfl
  | step remaining s next ih => exact ih
  | fork remaining s fallThrough taken ihf iht =>
    rw [grouping, Grouping.members, ihf, iht, ends]

theorem Exploration.result_grouping (t : Exploration) : t.grouping.result = t.outcome := by
  induction t with
  | halt s => rfl
  | step remaining s next ih => exact ih
  | fork remaining s fallThrough taken ihf iht =>
    rw [grouping, Grouping.result, ihf, iht, outcome]

/-- A run is over where no operations remain. -/
theorem mem_ends_exploreOps {ops : List Op} {index slots : Nat} {s e : SymbolicStack}
    (h : ⟨[], e⟩ ∈ (exploreOps ops index slots s).points) :
    e ∈ (exploreOps ops index slots s).ends := by
  induction ops generalizing index slots s with
  | nil =>
    cases List.mem_singleton.1 h
    exact List.mem_singleton_self _
  | cons op rest ih =>
    cases slots with
    | succ slots => exact ih h
    | zero =>
      rcases exploreOps_cons op rest index s with ⟨slots, heq⟩ | ⟨offset, -, -, heq⟩ <;>
        rw [heq] at h ⊢
      · rcases List.mem_cons.1 h with h | h
        · cases h
        · exact ih h
      · rcases List.mem_cons.1 h with h | h
        · cases h
        · rcases List.mem_append.1 h with h | h
          · exact List.mem_append_left _ (ih h)
          · exact List.mem_append_right _ (ih h)

open SymbolicStack

/-- **Merging is a semilattice** on all stacks that analyses with one origin report or that are
merged from such, and the bound of a merge is the smaller of both bounds. So the outcome of an
analysis is what the stacks without remaining operations are merged into in any order and any
groups. -/
theorem merge_laws (originDepth : Nat) :
    (∀ a b c, Arises originDepth a → Arises originDepth b → Arises originDepth c →
      a.merge b = b.merge a ∧ (a.merge b).merge c = a.merge (b.merge c) ∧ a.merge a = a ∧
        (a.merge b).lengthBound = min a.lengthBound b.lengthBound) ∧
    ∀ p : Program, (p.explore originDepth).InRange →
      ∀ g : Grouping, (∀ s, s ∈ g.members ↔ ⟨[], s⟩ ∈ (p.explore originDepth).points) →
        g.result = p.analyze originDepth := by
  constructor
  · intro a b c ha hb hc
    have ha := ha.mergeable
    have hb := hb.mergeable
    exact ⟨ha.merge_comm hb, ha.merge_assoc hb hc.mergeable, ha.merge_self,
      ha.lengthBound_merge hb⟩
  · intro p hr g hg
    have hends : ∀ s, s ∈ g.members ↔ s ∈ (p.explore originDepth).grouping.members := by
      intro s
      rw [hg, Exploration.members_grouping]
      exact ⟨mem_ends_exploreOps, Exploration.mem_points_of_mem_ends⟩
    have hmergeable : ∀ s ∈ g.members, s.Mergeable originDepth :=
      fun s hs => (Arises.reported hr ((hg s).1 hs)).mergeable
    rw [Grouping.result_eq_of_mem_iff hmergeable hends, Exploration.result_grouping]
    rfl

/-- Two undecided branches, one within the other, and runs that reach down to different values,
merged from the last to the first. -/
theorem merge_laws_nested :
    let p : Program := ⟨[.bgtz 3, .bgtz 1, .len, .push 1, .binary .add]⟩
    let slot (e : Expr) : ExprSet := .single (.apply .add e (.lit 1))
    let a : SymbolicStack :=
      { lower := [slot (.len 2)], originDepth := 1, topRefs := 1, bottomRefs := 1 }
    let b : SymbolicStack :=
      { lower := [slot (.bottom 1)], originDepth := 1, topRefs := 1, bottomRefs := 2 }
    let c : SymbolicStack :=
      { lower := [slot (.bottom 0)], originDepth := 1, topRefs := 1, bottomRefs := 1 }
    Arises 1 a ∧ Arises 1 b ∧ Arises 1 c ∧ a.merge b = b.merge a ∧
      (a.merge b).merge c = a.merge (b.merge c) ∧
      (Grouping.pair (.pair (.single c) (.single b)) (.single a)).result = p.analyze 1 := by
  intro p slot a b c
  have hr : (p.explore 1).InRange := Program.inRange_explore (by decide) (by decide)
  have hends : (p.explore 1).ends = [a, b, c] := by decide +kernel
  have hpoints : ∀ s, s ∈ [a, b, c] → ⟨[], s⟩ ∈ (p.explore 1).points :=
    fun s hs => Exploration.mem_points_of_mem_ends (hends ▸ hs)
  have harises : ∀ s ∈ [a, b, c], Arises 1 s := fun s hs => .reported hr (hpoints s hs)
  have ha := harises a (by simp)
  have hb := harises b (by simp)
  have hc := harises c (by simp)
  obtain ⟨hcomm, hassoc, -, -⟩ := (merge_laws 1).1 a b c ha hb hc
  refine ⟨ha, hb, hc, hcomm, hassoc, (merge_laws 1).2 p hr _ fun s => ?_⟩
  constructor
  · intro hs
    have hs : s ∈ [c, b, a] := hs
    exact hpoints s (List.mem_reverse.1 hs)
  · intro hs
    have hs : s ∈ [a, b, c] := hends ▸ mem_ends_exploreOps hs
    exact List.mem_reverse.1 (show s ∈ [c, b, a].reverse from hs)

/-- Out of range, a slot lies below an origin below which nothing was reached, and merging the stack
with itself moves it. -/
theorem not_merge_laws :
    let p : Program := ⟨[.push 0, .push 1, .binary .add, .binary .add]⟩
    ∃ b ∈ (p.explore 0x7fff_ffff_ffff_ffff).points,
      b.remaining = [] ∧ b.stack.merge b.stack ≠ b.stack := by
  decide +kernel

end StackSeq
