import StackSeq.Proofs.Symbolic.Constancy
import StackSeq.Proofs.Symbolic.Semilattice

/-!
# The origin only names references

An analysis splits the values from before the run at its origin and names those above and those
below apart. Counted in one row from the initial top (`Expr.renumber`), two analyses of a program
with different origins say the same: `analyze_of_origin`.

Renumbering goes through every operation on expressions and sets of them, provided that names are
not confused: the number of a `top` has to lie above the origin (`NamedFrom`), or a `bottom` could
come to the same number. So it goes through folding, which compares expressions
(`Expr.renumber_fold`), and through the decision of a branch, which looks for a literal
(`ExprSet.Renamed.decidePositive_eq`).

`SymbolicStack.Renamed` relates the stacks of the two analyses. Which of its two lists of slots a
stack works on depends on the origin, but what is popped and pushed does not, so all operations keep
the relation, and merging keeps it as well. The points of the two explorations correspond one to
one (`Exploration.Renamed`).
-/

namespace StackSeq

/-! ## Expressions -/

namespace Expr

/-- The expression with all values from before the run counted down from the initial top. -/
def renumber (originDepth : Nat) : Expr → Expr
  | lit value => lit value
  | top i => top i
  | bottom i => top (originDepth + i)
  | len index => len index
  | apply op lhs rhs => apply op (lhs.renumber originDepth) (rhs.renumber originDepth)

/-- The names are those of an analysis with this origin. -/
def NamedFrom (originDepth : Nat) : Expr → Prop
  | top i => i < originDepth
  | apply _ lhs rhs => lhs.NamedFrom originDepth ∧ rhs.NamedFrom originDepth
  | _ => True

variable {originDepth : Nat} {a b : Expr}

theorem namedFrom_initial (originDepth n : Nat) :
    (initial originDepth n).NamedFrom originDepth := by
  unfold initial
  split
  · next h => exact h
  · trivial

@[simp] theorem renumber_initial (originDepth n : Nat) :
    (initial originDepth n).renumber originDepth = top n := by
  unfold initial
  split
  · rfl
  · next h => exact congrArg top (Nat.add_sub_cancel' (Nat.not_lt.1 h))

@[simp] theorem renumber_eq_lit_iff {r : Rational} :
    a.renumber originDepth = lit r ↔ a = lit r := by
  cases a <;> simp [renumber]

@[simp] theorem literal?_renumber (a : Expr) : (a.renumber originDepth).literal? = a.literal? := by
  cases a <;> rfl

/-- **Different expressions keep different numbers.** -/
theorem renumber_inj (ha : a.NamedFrom originDepth) (hb : b.NamedFrom originDepth) :
    a.renumber originDepth = b.renumber originDepth ↔ a = b := by
  refine ⟨fun h => ?_, fun h => h ▸ rfl⟩
  induction a generalizing b with
  | lit r => exact (renumber_eq_lit_iff.1 h.symm).symm
  | top i =>
    cases b with
    | top j => exact h
    | bottom j =>
      have hi : i < originDepth := ha
      have hij : i = originDepth + j := top.inj h
      omega
    | _ => cases h
  | bottom i =>
    cases b with
    | top j =>
      have hj : j < originDepth := hb
      have hij : originDepth + i = j := top.inj h
      omega
    | bottom j => exact congrArg bottom (Nat.add_left_cancel (top.inj h))
    | _ => cases h
  | len i =>
    cases b with
    | len j => exact h
    | _ => cases h
  | apply op l r hl hr =>
    cases b with
    | apply op' l' r' =>
      obtain ⟨rfl, hll, hrr⟩ := apply.inj h
      rw [hl ha.1 hb.1 hll, hr ha.2 hb.2 hrr]
    | _ => cases h

theorem simplify_renumber (op : BinOp) (ha : a.NamedFrom originDepth)
    (hb : b.NamedFrom originDepth) :
    (simplify op a b).renumber originDepth
      = simplify op (a.renumber originDepth) (b.renumber originDepth) := by
  cases op <;>
    simp only [simplify, renumber_eq_lit_iff, renumber_inj ha hb,
      apply_ite (renumber originDepth)] <;> rfl

/-- **Folding does not look at names.** -/
theorem renumber_fold (op : BinOp) (ha : a.NamedFrom originDepth) (hb : b.NamedFrom originDepth) :
    (fold op a b).renumber originDepth
      = fold op (a.renumber originDepth) (b.renumber originDepth) := by
  rw [fold, fold, literal?_renumber, literal?_renumber, ← simplify_renumber op ha hb]
  split <;> rfl

/-- Simplifying leaves an operand, zero or the operation. -/
theorem simplify_cases (op : BinOp) (a b : Expr) :
    simplify op a b = a ∨ simplify op a b = b ∨ simplify op a b = lit 0 ∨
      simplify op a b = apply op a b := by
  cases op <;> rw [simplify] <;> split_ifs <;> simp

theorem namedFrom_fold (op : BinOp) (ha : a.NamedFrom originDepth) (hb : b.NamedFrom originDepth) :
    (fold op a b).NamedFrom originDepth := by
  unfold fold
  split
  · trivial
  · rcases simplify_cases op a b with h | h | h | h <;> rw [h]
    · exact ha
    · exact hb
    · trivial
    · exact ⟨ha, hb⟩

end Expr

/-! ## Sets -/

namespace ExprSet

/-- The set with all values from before the run counted down from the initial top. -/
def renumber (originDepth : Nat) (x : ExprSet) : ExprSet :=
  ofList (x.exprs.map (Expr.renumber originDepth)) (by simpa using x.nonempty)

/-- All members are named as in an analysis with this origin. -/
def NamedFrom (originDepth : Nat) (x : ExprSet) : Prop := ∀ e ∈ x, e.NamedFrom originDepth

variable {originDepth : Nat} {x y : ExprSet}

@[simp] theorem mem_renumber {e : Expr} :
    e ∈ x.renumber originDepth ↔ ∃ m ∈ x, m.renumber originDepth = e := by
  rw [renumber, mem_ofList, List.mem_map]
  rfl

theorem renumber_single (e : Expr) :
    (single e).renumber originDepth = single (e.renumber originDepth) := rfl

theorem renumber_union (x y : ExprSet) :
    (x.union y).renumber originDepth = (x.renumber originDepth).union (y.renumber originDepth) :=
  ext_of_mem_iff fun e => by simp only [mem_renumber, mem_union, or_and_right, exists_or]

theorem renumber_apply (op : BinOp) (hx : x.NamedFrom originDepth) (hy : y.NamedFrom originDepth) :
    (apply op x y).renumber originDepth
      = apply op (x.renumber originDepth) (y.renumber originDepth) := by
  refine ext_of_mem_iff fun e => ?_
  simp only [mem_renumber, mem_apply]
  constructor
  · rintro ⟨m, ⟨l, hl, r, hr, rfl⟩, rfl⟩
    exact ⟨_, ⟨l, hl, rfl⟩, _, ⟨r, hr, rfl⟩, (Expr.renumber_fold op (hx l hl) (hy r hr)).symm⟩
  · rintro ⟨_, ⟨l, hl, rfl⟩, _, ⟨r, hr, rfl⟩, rfl⟩
    exact ⟨_, ⟨l, hl, r, hr, rfl⟩, Expr.renumber_fold op (hx l hl) (hy r hr)⟩

theorem namedFrom_single {e : Expr} (h : e.NamedFrom originDepth) :
    (single e).NamedFrom originDepth :=
  fun _ he => mem_single.1 he ▸ h

theorem NamedFrom.union (hx : x.NamedFrom originDepth) (hy : y.NamedFrom originDepth) :
    (x.union y).NamedFrom originDepth :=
  fun e he => (mem_union.1 he).elim (hx e) (hy e)

theorem NamedFrom.apply (op : BinOp) (hx : x.NamedFrom originDepth)
    (hy : y.NamedFrom originDepth) : (ExprSet.apply op x y).NamedFrom originDepth := by
  intro e he
  obtain ⟨l, hl, r, hr, rfl⟩ := mem_apply.1 he
  exact Expr.namedFrom_fold op (hx l hl) (hy r hr)

theorem single?_eq_some_iff_eq_single {e : Expr} : x.single? = some e ↔ x = single e := by
  rw [single?_eq_some_iff]
  refine ⟨fun h => ext_of_mem_iff fun e' => ?_, fun h => h ▸ exprs_single e⟩
  rw [mem_single, ← List.mem_singleton, ← h]
  rfl

/-- **A set has a single member under any numbering.** -/
theorem single?_renumber (h : x.NamedFrom originDepth) :
    (x.renumber originDepth).single? = x.single?.map (Expr.renumber originDepth) := by
  cases hx : x.single? with
  | some e =>
    obtain rfl := single?_eq_some_iff_eq_single.1 hx
    rfl
  | none =>
    rw [Option.map_none, Option.eq_none_iff_forall_ne_some]
    intro e he
    have hsingle := single?_eq_some_iff_eq_single.1 he
    obtain ⟨m, hm⟩ := List.exists_mem_of_ne_nil _ x.nonempty
    have hall : ∀ e' ∈ x, e'.renumber originDepth = e := fun e' he' =>
      mem_single.1 (hsingle ▸ mem_renumber.2 ⟨e', he', rfl⟩)
    -- All members have the same number, so they are the same.
    have hone : x = single m := ext_of_mem_iff fun e' => by
      rw [mem_single]
      constructor
      · intro he'
        exact (Expr.renumber_inj (h e' he') (h m hm)).1 ((hall e' he').trans (hall m hm).symm)
      · rintro rfl
        exact hm
    rw [single?_eq_some_iff_eq_single.2 hone] at hx
    cases hx

theorem decidePositive_single (e : Expr) :
    (single e).decidePositive = e.literal?.map Rational.isPositive := by
  cases e with
  | lit r => cases hr : r.isPositive <;> simp [decidePositive, exprs_single, Expr.literal?, hr]
  | _ => rfl

/-- The one set is the other one with the names of another origin. -/
structure Renamed (originDepth originDepth' : Nat) (x x' : ExprSet) : Prop where
  named : x.NamedFrom originDepth
  named' : x'.NamedFrom originDepth'
  renumber_eq : x.renumber originDepth = x'.renumber originDepth'

namespace Renamed

variable {originDepth' : Nat} {x' y' : ExprSet}

theorem single {e e' : Expr} (he : e.NamedFrom originDepth) (he' : e'.NamedFrom originDepth')
    (h : e.renumber originDepth = e'.renumber originDepth') :
    Renamed originDepth originDepth' (.single e) (.single e') :=
  ⟨namedFrom_single he, namedFrom_single he', by rw [renumber_single, renumber_single, h]⟩

theorem initial (n : Nat) : Renamed originDepth originDepth' (.single (.initial originDepth n))
    (.single (.initial originDepth' n)) :=
  .single (Expr.namedFrom_initial _ n) (Expr.namedFrom_initial _ n)
    (by rw [Expr.renumber_initial, Expr.renumber_initial])

theorem union (hx : Renamed originDepth originDepth' x x')
    (hy : Renamed originDepth originDepth' y y') :
    Renamed originDepth originDepth' (x.union y) (x'.union y') where
  named := hx.named.union hy.named
  named' := hx.named'.union hy.named'
  renumber_eq := by rw [renumber_union, renumber_union, hx.renumber_eq, hy.renumber_eq]

theorem apply (op : BinOp) (hx : Renamed originDepth originDepth' x x')
    (hy : Renamed originDepth originDepth' y y') :
    Renamed originDepth originDepth' (.apply op x y) (.apply op x' y') where
  named := hx.named.apply op hy.named
  named' := hx.named'.apply op hy.named'
  renumber_eq := by
    rw [renumber_apply op hx.named hy.named, renumber_apply op hx.named' hy.named',
      hx.renumber_eq, hy.renumber_eq]

/-- **Single expressions decide a branch alike**, for a literal has no names. -/
theorem decidePositive_eq {e e' : Expr}
    (h : Renamed originDepth originDepth' (.single e) (.single e')) :
    (ExprSet.single e).decidePositive = (ExprSet.single e').decidePositive := by
  have he : e.renumber originDepth = e'.renumber originDepth' := single_injective h.renumber_eq
  rw [decidePositive_single, decidePositive_single, ← Expr.literal?_renumber e, he,
    Expr.literal?_renumber]

end Renamed

end ExprSet

/-! ## Stacks -/

namespace SymbolicStack

/-- The stacks of two analyses with different origins differ in their names only. -/
structure Renamed (originDepth originDepth' : Nat) (s s' : SymbolicStack) : Prop where
  wellFormed : s.WellFormed
  wellFormed' : s'.WellFormed
  originDepth_eq : s.originDepth = originDepth
  originDepth_eq' : s'.originDepth = originDepth'
  reached_eq : s.reached = s'.reached
  shortfall_eq : s.shortfall = s'.shortfall
  ragged_eq : s.ragged = s'.ragged
  topDown : List.Forall₂ (ExprSet.Renamed originDepth originDepth') s.topDown s'.topDown

variable {originDepth originDepth' : Nat}

namespace Renamed

variable {s s' : SymbolicStack} {x x' : ExprSet}

theorem initial (originDepth originDepth' : Nat) :
    Renamed originDepth originDepth' (.initial originDepth) (.initial originDepth') where
  wellFormed := .initial originDepth
  wellFormed' := .initial originDepth'
  originDepth_eq := rfl
  originDepth_eq' := rfl
  reached_eq := rfl
  shortfall_eq := rfl
  ragged_eq := rfl
  topDown := .nil

/-- **Popping takes the same value from both**: a slot from both, or the next value from before the
run. -/
theorem pop (h : Renamed originDepth originDepth' s s') :
    ExprSet.Renamed originDepth originDepth' s.pop.1 s'.pop.1 ∧
      Renamed originDepth originDepth' s.pop.2 s'.pop.2 := by
  -- What popping does to slots and references decides the rest.
  have hrest (hreached : s.pop.2.reached = s'.pop.2.reached)
      (htail : List.Forall₂ (ExprSet.Renamed originDepth originDepth') s.pop.2.topDown
        s'.pop.2.topDown) : Renamed originDepth originDepth' s.pop.2 s'.pop.2 :=
    { wellFormed := h.wellFormed.pop
      wellFormed' := h.wellFormed'.pop
      originDepth_eq := by rw [originDepth_pop, h.originDepth_eq]
      originDepth_eq' := by rw [originDepth_pop, h.originDepth_eq']
      reached_eq := hreached
      shortfall_eq := by rw [shortfall_pop, shortfall_pop, h.shortfall_eq]
      ragged_eq := by rw [ragged_pop, ragged_pop, h.ragged_eq]
      topDown := htail }
  have hslots := h.topDown
  rcases h.wellFormed.pop_eq with ⟨x, xs, hx, hfst, htail, hreached⟩ | ⟨hnil, hfst, htail, hreached⟩
  · rw [hx] at hslots
    obtain ⟨x', xs', hhead, hxs, hx'⟩ := List.forall₂_cons_left_iff.1 hslots
    rcases h.wellFormed'.pop_eq with ⟨_, _, hcons, hfst', htail', hreached'⟩ | ⟨hnil', -⟩
    · obtain ⟨rfl, rfl⟩ := List.cons.inj (hx'.symm.trans hcons)
      refine ⟨by rwa [hfst, hfst'], hrest ?_ (by rwa [htail, htail'])⟩
      rw [hreached, hreached', h.reached_eq]
    · rw [hnil'] at hx'
      cases hx'
  · rw [hnil] at hslots
    have hnil' : s'.topDown = [] := List.forall₂_nil_left_iff.1 hslots
    rcases h.wellFormed'.pop_eq with ⟨_, _, hcons, -⟩ | ⟨-, hfst', htail', hreached'⟩
    · rw [hnil'] at hcons
      cases hcons
    · refine ⟨?_, hrest ?_ (by rw [htail, htail']; exact .nil)⟩
      · rw [hfst, hfst', h.originDepth_eq, h.originDepth_eq', h.reached_eq]
        exact .initial _
      · rw [hreached, hreached', h.reached_eq]

theorem push (h : Renamed originDepth originDepth' s s')
    (hx : ExprSet.Renamed originDepth originDepth' x x') (hr : (s.push x).InRange)
    (hr' : (s'.push x').InRange) : Renamed originDepth originDepth' (s.push x) (s'.push x') where
  wellFormed := h.wellFormed.push hr
  wellFormed' := h.wellFormed'.push hr'
  originDepth_eq := by rw [originDepth_push, h.originDepth_eq]
  originDepth_eq' := by rw [originDepth_push, h.originDepth_eq']
  reached_eq := by rw [reached_push, reached_push, h.reached_eq]
  shortfall_eq := by rw [shortfall_push, shortfall_push, h.shortfall_eq]
  ragged_eq := by rw [ragged_push, ragged_push, h.ragged_eq]
  topDown := by
    rw [h.wellFormed.topDown_push hr, h.wellFormed'.topDown_push hr']
    exact .cons hx h.topDown

/-- **Every operation keeps the relation.** -/
theorem execute (h : Renamed originDepth originDepth' s s') {index : Nat} {op : Op}
    (hr : (s.execute index op).InRange) (hr' : (s'.execute index op).InRange) :
    Renamed originDepth originDepth' (s.execute index op) (s'.execute index op) := by
  cases op with
  | push value => exact h.push (.single trivial trivial rfl) hr hr'
  | len => exact h.push (.single trivial trivial rfl) hr hr'
  | bgtz offset => exact h.pop.2
  | dup =>
    obtain ⟨hx, h⟩ := h.pop
    exact (h.push hx hr.of_push hr'.of_push).push hx hr hr'
  | swap =>
    obtain ⟨hx, h⟩ := h.pop
    obtain ⟨hy, h⟩ := h.pop
    exact (h.push hx hr.of_push hr'.of_push).push hy hr hr'
  | rot =>
    obtain ⟨hz, h⟩ := h.pop
    obtain ⟨hy, h⟩ := h.pop
    obtain ⟨hx, h⟩ := h.pop
    exact ((h.push hy hr.of_push.of_push hr'.of_push.of_push).push hz hr.of_push hr'.of_push).push
      hx hr hr'
  | unrot =>
    obtain ⟨hz, h⟩ := h.pop
    obtain ⟨hy, h⟩ := h.pop
    obtain ⟨hx, h⟩ := h.pop
    exact ((h.push hz hr.of_push.of_push hr'.of_push.of_push).push hx hr.of_push hr'.of_push).push
      hy hr hr'
  | binary op =>
    obtain ⟨hx, h⟩ := h.pop
    obtain ⟨hy, h⟩ := h.pop
    exact h.push (hy.apply op hx) hr hr'

/-! ### Merging -/

theorem refSlots (low high : Nat) :
    List.Forall₂ (ExprSet.Renamed originDepth originDepth')
      (SymbolicStack.refSlots (.initial originDepth) low high)
      (SymbolicStack.refSlots (.initial originDepth') low high) := by
  unfold SymbolicStack.refSlots
  rw [List.forall₂_reverse_iff, List.forall₂_map_left_iff, List.forall₂_map_right_iff,
    List.forall₂_same]
  exact fun n _ => .initial n

theorem unionSlots {xs xs' ys ys' : List ExprSet}
    (hx : List.Forall₂ (ExprSet.Renamed originDepth originDepth') xs xs')
    (hy : List.Forall₂ (ExprSet.Renamed originDepth originDepth') ys ys') :
    List.Forall₂ (ExprSet.Renamed originDepth originDepth') (SymbolicStack.unionSlots xs ys)
      (SymbolicStack.unionSlots xs' ys') := by
  induction hx generalizing ys ys' with
  | nil => exact hy
  | cons hhead htail ih =>
    cases hy with
    | nil => exact .cons hhead htail
    | cons hhead' htail' => exact .cons (hhead.union hhead') (ih htail')

section

variable (h : Renamed originDepth originDepth' s s')

include h

theorem slots : List.Forall₂ (ExprSet.Renamed originDepth originDepth') s.slots s'.slots := by
  rw [slots_eq_reverse, slots_eq_reverse, List.forall₂_reverse_iff]
  exact h.topDown

theorem slotCount_eq : s.slotCount = s'.slotCount := by
  rw [← length_topDown, ← length_topDown, h.topDown.length_eq]

theorem lengthBound_eq : s.lengthBound = s'.lengthBound := by
  rw [lengthBound, lengthBound, h.slotCount_eq, h.shortfall_eq]

theorem paddedSlots (high : Nat) : List.Forall₂ (ExprSet.Renamed originDepth originDepth')
    (s.paddedSlots high) (s'.paddedSlots high) := by
  rw [SymbolicStack.paddedSlots, SymbolicStack.paddedSlots, h.originDepth_eq, h.originDepth_eq',
    h.reached_eq]
  exact List.rel_append (refSlots _ _) h.slots

end

/-- **Merging keeps the relation.** Both merges pad down to the same value. -/
theorem merge {a a' b b' : SymbolicStack} (ha : Renamed originDepth originDepth' a a')
    (hb : Renamed originDepth originDepth' b b') :
    Renamed originDepth originDepth' (a.merge b) (a'.merge b') := by
  have hab : a.originDepth = b.originDepth := ha.originDepth_eq.trans hb.originDepth_eq.symm
  have hab' : a'.originDepth = b'.originDepth := ha.originDepth_eq'.trans hb.originDepth_eq'.symm
  have hreached : (a.merge b).reached = (a'.merge b').reached := by
    rw [ha.wellFormed.reached_merge hb.wellFormed hab,
      ha.wellFormed'.reached_merge hb.wellFormed' hab', ha.reached_eq, hb.reached_eq]
  have hslots : List.Forall₂ (ExprSet.Renamed originDepth originDepth') (a.merge b).slots
      (a'.merge b').slots := by
    rw [ha.wellFormed.slots_merge hb.wellFormed hab, ha.wellFormed'.slots_merge hb.wellFormed' hab',
      hreached]
    exact unionSlots (ha.paddedSlots _) (hb.paddedSlots _)
  refine ⟨ha.wellFormed.merge hb.wellFormed hab, ha.wellFormed'.merge hb.wellFormed' hab',
    ha.originDepth_eq, ha.originDepth_eq', hreached, ?_, ragged_eq_of_level_iff ?_, ?_⟩
  · rw [shortfall_merge, shortfall_merge, ha.lengthBound_eq, hb.lengthBound_eq, ← length_slots,
      hslots.length_eq, length_slots]
  · rw [ha.wellFormed.ragged_merge_eq_false hb.wellFormed hab,
      ha.wellFormed'.ragged_merge_eq_false hb.wellFormed' hab', hreached, ha.ragged_eq,
      hb.ragged_eq, (ha.paddedSlots _).length_eq, (hb.paddedSlots _).length_eq]
  · rwa [slots_eq_reverse, slots_eq_reverse, List.forall₂_reverse_iff] at hslots

end Renamed

end SymbolicStack

/-! ## Explorations -/

variable {originDepth originDepth' : Nat}

/-- Two explorations go the same ways, with stacks that differ in their names only. -/
inductive Exploration.Renamed (originDepth originDepth' : Nat) : Exploration → Exploration → Prop
  | halt {s s' : SymbolicStack} (h : s.Renamed originDepth originDepth' s') :
      Renamed originDepth originDepth' (.halt s) (.halt s')
  | step {ops : List Op} {s s' : SymbolicStack} {next next' : Exploration}
      (h : s.Renamed originDepth originDepth' s')
      (hnext : Renamed originDepth originDepth' next next') :
      Renamed originDepth originDepth' (.step ops s next) (.step ops s' next')
  | fork {ops : List Op} {s s' : SymbolicStack} {f f' t t' : Exploration}
      (h : s.Renamed originDepth originDepth' s') (hf : Renamed originDepth originDepth' f f')
      (ht : Renamed originDepth originDepth' t t') :
      Renamed originDepth originDepth' (.fork ops s f t) (.fork ops s' f' t')

namespace Exploration.Renamed

variable {t t' : Exploration}

theorem outcome (h : t.Renamed originDepth originDepth' t') :
    t.outcome.Renamed originDepth originDepth' t'.outcome := by
  induction h with
  | halt h => exact h
  | step _ _ ih => exact ih
  | fork _ _ _ ihf iht => exact ihf.merge iht

theorem remaining_points (h : t.Renamed originDepth originDepth' t') :
    t.points.map SymbolicBoundary.remaining = t'.points.map SymbolicBoundary.remaining := by
  induction h with
  | halt => rfl
  | step _ _ ih => rw [points, points, List.map_cons, List.map_cons, ih]
  | fork _ _ _ ihf iht =>
    rw [points, points, List.map_cons, List.map_cons, List.map_append, List.map_append, ihf, iht]

end Exploration.Renamed

/-- Where the conditions of a branch are decided alike, two explorations go the same ways. -/
theorem exploreOps_cons_of_decidePositive_eq {s s' : SymbolicStack} (op : Op) (rest : List Op)
    (index : Nat) (hd : s.pop.1.decidePositive = s'.pop.1.decidePositive) :
    (∃ slots, (exploreOps (op :: rest) index 0 s
          = .step (op :: rest) s (exploreOps rest (index + 1) slots (s.execute index op))) ∧
        exploreOps (op :: rest) index 0 s'
          = .step (op :: rest) s' (exploreOps rest (index + 1) slots (s'.execute index op))) ∨
    (∃ slots, (exploreOps (op :: rest) index 0 s
          = .fork (op :: rest) s (exploreOps rest (index + 1) 0 (s.execute index op))
              (exploreOps rest (index + 1) slots (s.execute index op))) ∧
        exploreOps (op :: rest) index 0 s'
          = .fork (op :: rest) s' (exploreOps rest (index + 1) 0 (s'.execute index op))
              (exploreOps rest (index + 1) slots (s'.execute index op))) := by
  cases op with
  | bgtz offset =>
    simp only [exploreOps, ← hd]
    cases s.pop.1.decidePositive with
    | none => exact .inr ⟨offset.toNat, rfl, rfl⟩
    | some b =>
      cases b with
      | true => exact .inl ⟨offset.toNat, rfl, rfl⟩
      | false => exact .inl ⟨0, rfl, rfl⟩
  | _ => exact .inl ⟨0, rfl, rfl⟩

namespace SymbolicStack

variable {s s' : SymbolicStack}

theorem Renamed.decidePositive_pop_eq (h : s.Renamed originDepth originDepth' s')
    (hs : s.OnPath originDepth) (hs' : s'.OnPath originDepth') :
    s.pop.1.decidePositive = s'.pop.1.decidePositive := by
  obtain ⟨e, he⟩ := hs.pop_single
  obtain ⟨e', he'⟩ := hs'.pop_single
  have hx := h.pop.1
  rw [he, he'] at hx ⊢
  exact hx.decidePositive_eq

/-- **Explorations from stacks that differ in names only do so themselves.** -/
theorem Renamed.exploreOps {ops : List Op} {index slots : Nat}
    (h : s.Renamed originDepth originDepth' s') (hs : s.OnPath originDepth)
    (hs' : s'.OnPath originDepth') (hr : (exploreOps ops index slots s).InRange)
    (hr' : (StackSeq.exploreOps ops index slots s').InRange) :
    (StackSeq.exploreOps ops index slots s).Renamed originDepth originDepth'
      (StackSeq.exploreOps ops index slots s') := by
  induction ops generalizing index slots s s' with
  | nil => exact .halt h
  | cons op rest ih =>
    cases slots with
    | succ slots => exact ih h hs hs' hr hr'
    | zero =>
      -- Whatever is skipped next, the stacks after the operation are related.
      have hnext : ∀ slots,
          (StackSeq.exploreOps rest (index + 1) slots (s.execute index op)).InRange →
          (StackSeq.exploreOps rest (index + 1) slots (s'.execute index op)).InRange →
          (StackSeq.exploreOps rest (index + 1) slots (s.execute index op)).Renamed originDepth
            originDepth' (StackSeq.exploreOps rest (index + 1) slots (s'.execute index op)) := by
        intro slots hr hr'
        have hexec := Exploration.inRange_start hr
        have hexec' := Exploration.inRange_start hr'
        exact ih (h.execute hexec hexec') (hs.execute hexec) (hs'.execute hexec') hr hr'
      have hd := h.decidePositive_pop_eq hs hs'
      rcases exploreOps_cons_of_decidePositive_eq op rest index hd with
        ⟨slots, heq, heq'⟩ | ⟨slots, heq, heq'⟩ <;>
        rw [heq] at hr ⊢ <;>
        rw [heq'] at hr' ⊢
      · obtain ⟨-, hr⟩ := Exploration.inRange_step.1 hr
        obtain ⟨-, hr'⟩ := Exploration.inRange_step.1 hr'
        exact .step h (hnext slots hr hr')
      · obtain ⟨-, hf, ht⟩ := Exploration.inRange_fork.1 hr
        obtain ⟨-, hf', ht'⟩ := Exploration.inRange_fork.1 hr'
        exact .fork h (hnext 0 hf hf') (hnext slots ht ht')

/-! ## What can be seen of a stack -/

/-- The slots are the same under their numbers. -/
theorem Renamed.map_slots (h : s.Renamed originDepth originDepth' s') :
    s.slots.map (ExprSet.renumber originDepth) = s'.slots.map (ExprSet.renumber originDepth') := by
  rw [← List.forall₂_eq_eq_eq, List.forall₂_map_left_iff, List.forall₂_map_right_iff]
  exact h.slots.imp fun _ _ hx => hx.renumber_eq

/-- The top is unknown in both, or it is what popping takes. -/
theorem Renamed.topOfStack? (h : s.Renamed originDepth originDepth' s') :
    (s.topOfStack? = none ∧ s'.topOfStack? = none) ∨
      ∃ x x', s.topOfStack? = some x ∧ s'.topOfStack? = some x' ∧
        ExprSet.Renamed originDepth originDepth' x x' := by
  cases hragged : s.ragged with
  | true =>
    have hragged' := h.ragged_eq.symm.trans hragged
    exact .inl ⟨if_pos hragged, if_pos hragged'⟩
  | false =>
    have hragged' := h.ragged_eq.symm.trans hragged
    exact .inr ⟨_, _, topOfStack?_eq_pop hragged, topOfStack?_eq_pop hragged', h.pop.1⟩

theorem Renamed.map_topOfStack? (h : s.Renamed originDepth originDepth' s') :
    s.topOfStack?.map (ExprSet.renumber originDepth)
      = s'.topOfStack?.map (ExprSet.renumber originDepth') := by
  rcases h.topOfStack? with ⟨hnone, hnone'⟩ | ⟨x, x', hsome, hsome', hx⟩
  · rw [hnone, hnone']
    rfl
  · rw [hsome, hsome', Option.map_some, Option.map_some, hx.renumber_eq]

/-- If the top is a single expression, its number is the same. -/
theorem Renamed.map_single?_topOfStack? (h : s.Renamed originDepth originDepth' s') :
    (s.topOfStack?.bind ExprSet.single?).map (Expr.renumber originDepth)
      = (s'.topOfStack?.bind ExprSet.single?).map (Expr.renumber originDepth') := by
  rcases h.topOfStack? with ⟨hnone, hnone'⟩ | ⟨x, x', hsome, hsome', hx⟩
  · rw [hnone, hnone']
    rfl
  · rw [hsome, hsome', Option.bind_some, Option.bind_some, ← ExprSet.single?_renumber hx.named,
      hx.renumber_eq, ExprSet.single?_renumber hx.named']

end SymbolicStack

namespace Program

variable {p : Program}

theorem renamed_explore (hr : (p.explore originDepth).InRange)
    (hr' : (p.explore originDepth').InRange) :
    (p.explore originDepth).Renamed originDepth originDepth' (p.explore originDepth') :=
  (SymbolicStack.Renamed.initial originDepth originDepth').exploreOps (.initial originDepth)
    (.initial originDepth') hr hr'

/-- With a value above the origin, the verdict rests on the number of the top slot's expression: a
literal, or the former top. -/
theorem isProvablyConstant_iff (hpos : 0 < originDepth) :
    p.isProvablyConstant originDepth = true ↔
      ∃ e, ((p.analyze originDepth).topOfStack?.bind ExprSet.single?).map
          (Expr.renumber originDepth) = some e ∧ ((∃ r, e = .lit r) ∨ e = .top 0) := by
  have htop {e : Expr} : e.renumber originDepth = .top 0 ↔ e = .top 0 := by
    cases e with
    | bottom i => simp [Expr.renumber]; omega
    | _ => simp [Expr.renumber]
  simp only [Option.map_eq_some_iff, exists_exists_and_eq_and, Expr.renumber_eq_lit_iff, htop]
  unfold isProvablyConstant
  split
  · next r heq => simp [heq]
  · next heq => simp [heq, hpos]
  · next hlit htop =>
    simp only [Bool.false_eq_true, false_iff]
    rintro ⟨e, heq, ⟨r, rfl⟩ | rfl⟩
    · exact hlit r heq
    · exact htop heq

/-- **The origin depth only names references.** Two analyses of a program have the same slots and
the same top of stack once values from before the run are numbered from the initial top; they reach
as many values, are ragged alike, and give the same change of depth and the same bound; they come to
the same remaining operations in the same order. So the verdict on constancy does not depend on the
origin, provided that the initial top lies above it. -/
theorem analyze_of_origin (p : Program) (originDepth originDepth' : Nat)
    (hr : (p.explore originDepth).InRange) (hr' : (p.explore originDepth').InRange) :
    let s := p.analyze originDepth
    let s' := p.analyze originDepth'
    s.slots.map (ExprSet.renumber originDepth) = s'.slots.map (ExprSet.renumber originDepth') ∧
      s.topOfStack?.map (ExprSet.renumber originDepth)
        = s'.topOfStack?.map (ExprSet.renumber originDepth') ∧
      s.topRefs + s.bottomRefs = s'.topRefs + s'.bottomRefs ∧
      s.ragged = s'.ragged ∧ s.depthChange = s'.depthChange ∧ s.lengthBound = s'.lengthBound ∧
      (p.explore originDepth).points.map SymbolicBoundary.remaining
        = (p.explore originDepth').points.map SymbolicBoundary.remaining ∧
      (0 < originDepth → 0 < originDepth' →
        p.isProvablyConstant originDepth = p.isProvablyConstant originDepth') := by
  intro s s'
  have hexplore := renamed_explore hr hr'
  have h : s.Renamed originDepth originDepth' s' := hexplore.outcome
  refine ⟨h.map_slots, h.map_topOfStack?, h.reached_eq, h.ragged_eq, ?_, h.lengthBound_eq,
    hexplore.remaining_points, fun hpos hpos' => ?_⟩
  · rw [h.wellFormed.depthChange_eq (inRange_analyze hr),
      h.wellFormed'.depthChange_eq (inRange_analyze hr'), h.slotCount_eq, h.reached_eq]
  · rw [Bool.eq_iff_iff, isProvablyConstant_iff hpos, isProvablyConstant_iff hpos',
      h.map_single?_topOfStack?]

/-- Two undecided branches and a difference that one way cancels: with one value above the origin
the slots come from below it, with three from above. -/
theorem analyze_of_origin_nested :
    let p : Program := ⟨[.bgtz 3, .bgtz 1, .dup, .binary .sub]⟩
    let s := p.analyze 1
    let s' := p.analyze 3
    (p.explore 1).InRange ∧ (p.explore 3).InRange ∧ s.slots ≠ s'.slots ∧
      s.slots.map (ExprSet.renumber 1) = s'.slots.map (ExprSet.renumber 3) ∧
      s.topRefs + s.bottomRefs = s'.topRefs + s'.bottomRefs ∧
      (p.explore 1).points.map SymbolicBoundary.remaining
        = (p.explore 3).points.map SymbolicBoundary.remaining ∧
      p.isProvablyConstant 1 = p.isProvablyConstant 3 := by
  intro p s s'
  have hr : (p.explore 1).InRange := inRange_explore (by decide) (by decide)
  have hr' : (p.explore 3).InRange := inRange_explore (by decide) (by decide)
  obtain ⟨hslots, -, hreached, -, -, -, hpoints, hconstant⟩ := analyze_of_origin p 1 3 hr hr'
  exact ⟨hr, hr', by decide +kernel, hslots, hreached, hpoints, hconstant (by decide) (by decide)⟩

/-- Out of range, the second of two values is put below the origin, and what is popped depends on
the depth: one analysis is left with a slot where the other has none, and a growing sequence is
taken for a constant one. -/
theorem not_analyze_of_origin :
    let p : Program := ⟨[.push 0, .push 1, .bgtz 0, .bgtz 0]⟩
    let growing : Program := ⟨[.push 0, .len, .binary .add]⟩
    (p.analyze 0x7fff_ffff_ffff_ffff).slots.map (ExprSet.renumber 0x7fff_ffff_ffff_ffff)
        ≠ (p.analyze 1).slots.map (ExprSet.renumber 1) ∧
      growing.isProvablyConstant 0x7fff_ffff_ffff_ffff ≠ growing.isProvablyConstant 1 := by
  decide +kernel

end Program

end StackSeq
