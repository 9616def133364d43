import Mathlib.Data.List.Sort
import Mathlib.Data.Set.NAry
import StackSeq.Proofs.Rational.Order
import StackSeq.Symbolic.ExprSet

/-!
# The order of expressions

Expressions are ordered by kind first and within a kind by what they hold. `Precedes` says so rule
by rule, and the comparison decides it (`compare_eq_lt_iff`); it is a total order whose equality is
that of expressions. With that, a list in increasing order is known by its members
(`eq_of_mem_iff`), and so is a set. The set operations are those on the members, and an ordered
search finds just the members (`search_eq_true_iff`). Main statement: `order_agrees_with_equality`.
-/

namespace StackSeq

/-! ## Comparisons -/

/-- The comparison is a total order, and what compares equal is equal. -/
structure IsTotalComparison {α : Type} (cmp : α → α → Ordering) : Prop where
  total : ∀ a b, (cmp a b).isLE = true ∨ (cmp b a).isLE = true
  antisymm : ∀ a b, (cmp a b).isLE = true → (cmp b a).isLE = true → a = b
  trans : ∀ a b c, (cmp a b).isLE = true → (cmp b c).isLE = true → (cmp a c).isLE = true
  eq_iff : ∀ a b, cmp a b = .eq ↔ a = b

theorem IsTotalComparison.of_lawful {α : Type} (cmp : α → α → Ordering) [Std.TransCmp cmp]
    [Std.LawfulEqCmp cmp] : IsTotalComparison cmp where
  total a b := by
    have hswap : cmp b a = (cmp a b).swap := Std.OrientedCmp.eq_swap
    rw [hswap]
    cases cmp a b <;> decide
  antisymm a b hab hba :=
    Std.LawfulEqCmp.eq_of_compare (Std.OrientedCmp.isLE_antisymm hab hba)
  trans _ _ _ := Std.TransCmp.isLE_trans
  eq_iff _ _ := Std.LawfulEqCmp.compare_eq_iff_eq

/-! ## Expressions -/

namespace Expr

/-- The place of an expression's kind among the kinds. -/
def kind : Expr → Nat
  | lit _ => 0
  | top _ => 1
  | bottom _ => 2
  | len _ => 3
  | apply .. => 4

/-- The order of expressions: by kind, literals by their numbers, unknowns of one kind by index, and
operations by symbol, by left operand and by right operand. -/
inductive Precedes : Expr → Expr → Prop
  | kind {a b : Expr} (h : a.kind < b.kind) : Precedes a b
  | lit {r s : Rational} (h : r.toRat < s.toRat) : Precedes (.lit r) (.lit s)
  | top {i j : Nat} (h : i < j) : Precedes (.top i) (.top j)
  | bottom {i j : Nat} (h : i < j) : Precedes (.bottom i) (.bottom j)
  | len {i j : Nat} (h : i < j) : Precedes (.len i) (.len j)
  | op {f g : BinOp} {a b c d : Expr} (h : f.rank < g.rank) :
      Precedes (.apply f a b) (.apply g c d)
  | lhs {f : BinOp} {a b c d : Expr} (h : Precedes a c) : Precedes (.apply f a b) (.apply f c d)
  | rhs {f : BinOp} {a b d : Expr} (h : Precedes b d) : Precedes (.apply f a b) (.apply f a d)

variable {a b : Expr}

/-- Expressions of different kinds are compared by kind. -/
theorem compare_of_kind_ne (h : a.kind ≠ b.kind) : a.compare b = Ord.compare a.kind b.kind := by
  cases a <;> cases b <;> first | rfl | exact absurd rfl h

theorem precedes_of_kind_ne (hkind : a.kind ≠ b.kind) (h : a.compare b = .lt) :
    a.Precedes b := by
  rw [compare_of_kind_ne hkind, Nat.compare_eq_lt] at h
  exact .kind h

theorem precedes_of_compare_lt (h : a.compare b = .lt) : a.Precedes b := by
  induction a generalizing b with
  | lit r =>
    cases b with
    | lit s =>
      rw [compare, Rational.compare_eq_cmp, cmp_eq_lt_iff] at h
      exact .lit h
    | _ => exact precedes_of_kind_ne (by simp [kind]) h
  | top i =>
    cases b with
    | top j => exact .top (Nat.compare_eq_lt.1 h)
    | _ => exact precedes_of_kind_ne (by simp [kind]) h
  | bottom i =>
    cases b with
    | bottom j => exact .bottom (Nat.compare_eq_lt.1 h)
    | _ => exact precedes_of_kind_ne (by simp [kind]) h
  | len i =>
    cases b with
    | len j => exact .len (Nat.compare_eq_lt.1 h)
    | _ => exact precedes_of_kind_ne (by simp [kind]) h
  | apply f l r ihl ihr =>
    cases b with
    | apply g c d =>
      simp only [compare, Ordering.then_eq_lt, Nat.compare_eq_lt, Nat.compare_eq_eq,
        compare_eq_iff] at h
      rcases h with hop | ⟨hop, hlhs | ⟨rfl, hrhs⟩⟩
      · exact .op hop
      · rw [BinOp.rank_injective hop]
        exact .lhs (ihl hlhs)
      · rw [BinOp.rank_injective hop]
        exact .rhs (ihr hrhs)
    | _ => exact precedes_of_kind_ne (by simp [kind]) h

theorem compare_lt_of_precedes (h : a.Precedes b) : a.compare b = .lt := by
  induction h with
  | kind h =>
    rw [compare_of_kind_ne (Nat.ne_of_lt h)]
    exact Nat.compare_eq_lt.2 h
  | lit h =>
    rw [compare, Rational.compare_eq_cmp, cmp_eq_lt_iff]
    exact h
  | top h => exact Nat.compare_eq_lt.2 h
  | bottom h => exact Nat.compare_eq_lt.2 h
  | len h => exact Nat.compare_eq_lt.2 h
  | op h => rw [compare, Nat.compare_eq_lt.2 h, Ordering.lt_then]
  | lhs h ih => rw [compare, Nat.compare_eq_eq.2 rfl, ih, Ordering.eq_then, Ordering.lt_then]
  | rhs h ih =>
    rw [compare, Nat.compare_eq_eq.2 rfl, compare_eq_iff.2 rfl, ih, Ordering.eq_then,
      Ordering.eq_then]

/-- **The comparison decides the order.** -/
theorem compare_eq_lt_iff : a.compare b = .lt ↔ a.Precedes b :=
  ⟨precedes_of_compare_lt, compare_lt_of_precedes⟩

theorem compare_eq_gt_iff : a.compare b = .gt ↔ b.Precedes a := by
  rw [← compare_eq_lt_iff, ← compare_swap b a]
  cases b.compare a <;> simp

theorem Precedes.irrefl (a : Expr) : ¬a.Precedes a := by
  rw [← compare_eq_lt_iff, compare_eq_iff.2 rfl]
  exact nofun

end Expr

/-! ## Sets -/

namespace ExprSet

instance : Std.Irrefl fun a b : Expr => a.compare b = .lt where
  irrefl a h := by
    rw [Expr.compare_eq_iff.2 rfl] at h
    cases h

instance : Std.Antisymm fun a b : Expr => a.compare b = .lt where
  antisymm a b hab hba := by
    have haa := Expr.compare_lt_trans hab hba
    rw [Expr.compare_eq_iff.2 rfl] at haa
    cases haa

variable {a b s : ExprSet} {e : Expr} {es : List Expr}

/-- **Sets with the same members are equal.** -/
theorem ext_of_mem_iff (h : ∀ e, e ∈ a ↔ e ∈ b) : a = b := by
  have hexprs : a.exprs = b.exprs := a.increasing.eq_of_mem_iff b.increasing h
  cases a
  cases b
  subst hexprs
  rfl

/-- The members. -/
def members (s : ExprSet) : Set Expr := {e | e ∈ s}

instance (s : ExprSet) (e : Expr) : Decidable (e ∈ s.members) :=
  decidable_of_iff (s.contains e = true) contains_iff

theorem members_union (a b : ExprSet) : (a.union b).members = a.members ∪ b.members :=
  Set.ext fun _ => mem_union

theorem members_apply (op : BinOp) (a b : ExprSet) :
    (apply op a b).members = Set.image2 (Expr.fold op) a.members b.members :=
  Set.ext fun _ => mem_apply

theorem eq_iff_members_eq : a = b ↔ a.members = b.members :=
  ⟨congrArg members, fun h => ext_of_mem_iff (Set.ext_iff.1 h)⟩

/-- **A set lists its members in increasing order, each once**, and only one list does so. -/
theorem exprs_eq_iff :
    s.exprs = es ↔ es.Pairwise Expr.Precedes ∧ ∀ e, e ∈ es ↔ e ∈ s.members := by
  have hincreasing : Increasing es ↔ es.Pairwise Expr.Precedes := by
    simp only [Increasing, Expr.compare_eq_lt_iff]
  rw [← hincreasing]
  constructor
  · rintro rfl
    exact ⟨s.increasing, fun e => Iff.rfl⟩
  · rintro ⟨hes, hmem⟩
    exact s.increasing.eq_of_mem_iff hes fun e => (hmem e).symm

/-- Whether an expression is found in a list, by a search that ends at the first one that it does
not come after. -/
def search (e : Expr) : List Expr → Bool
  | [] => false
  | x :: xs =>
    match e.compare x with
    | .lt => false
    | .eq => true
    | .gt => search e xs

/-- **In an increasing list the search finds what is there.** Behind an expression that is greater
all are greater. -/
theorem search_eq_true_iff (h : Increasing es) : search e es = true ↔ e ∈ es := by
  induction es with
  | nil => simp [search]
  | cons x xs ih =>
    rw [Increasing, List.pairwise_cons] at h
    rw [search, List.mem_cons]
    split
    · next hlt =>
      refine ⟨fun h => absurd h Bool.false_ne_true, ?_⟩
      rintro (rfl | hmem)
      · exact absurd (Expr.compare_eq_lt_iff.1 hlt) (Expr.Precedes.irrefl e)
      · exact absurd (Expr.compare_eq_lt_iff.1 (Expr.compare_lt_trans hlt (h.1 e hmem)))
          (Expr.Precedes.irrefl e)
    · next heq => exact ⟨fun _ => .inl (Expr.compare_eq_iff.1 heq), fun _ => rfl⟩
    · next hgt =>
      have hne : e ≠ x := by
        rintro rfl
        rw [Expr.compare_eq_iff.2 rfl] at hgt
        cases hgt
      rw [ih h.2, or_iff_right hne]

theorem search_exprs (s : ExprSet) (e : Expr) : search e s.exprs = s.contains e := by
  rw [Bool.eq_iff_iff, search_eq_true_iff s.increasing, contains_iff]
  rfl

end ExprSet

open ExprSet

/-- **The order agrees with equality, so sets have each member once.** Values are ordered as their
numbers are, and compared without leaving the registers; expressions are ordered by kind and then by
what they hold. Both orders are total, and equal in them is equal. So a set of expressions is known
by its members and lists them in increasing order, and the operations are those on sets. -/
theorem order_agrees_with_equality :
    (∀ a b : Rational, a.compare b = cmp a.toRat b.toRat ∧
      Rational.compareInRegisters? a b = some (a.compare b) ∧
      (a.compare b = .eq ↔ a.num = b.num ∧ a.den = b.den)) ∧
    IsTotalComparison Rational.compare ∧
    (∀ a b : Expr, (a.compare b = .lt ↔ a.Precedes b) ∧ (a.compare b = .gt ↔ b.Precedes a)) ∧
    IsTotalComparison Expr.compare ∧
    (∀ a b : ExprSet, (a.union b).members = a.members ∪ b.members ∧
      (∀ op, (apply op a b).members = Set.image2 (Expr.fold op) a.members b.members) ∧
      (a = b ↔ a.members = b.members)) ∧
    (∀ (s : ExprSet) (e : Expr), (s.contains e = true ↔ e ∈ s.members) ∧
      search e s.exprs = s.contains e) ∧
    ∀ (s : ExprSet) (es : List Expr),
      s.exprs = es ↔ es.Pairwise Expr.Precedes ∧ ∀ e, e ∈ es ↔ e ∈ s.members :=
  ⟨fun a b => ⟨a.compare_eq_cmp b, a.compareInRegisters?_eq b, a.compare_eq_iff_fields b⟩,
    .of_lawful _, fun _ _ => ⟨Expr.compare_eq_lt_iff, Expr.compare_eq_gt_iff⟩, .of_lawful _,
    fun a b => ⟨members_union a b, fun op => members_apply op a b, eq_iff_members_eq⟩,
    fun s e => ⟨contains_iff, search_exprs s e⟩, fun _ _ => exprs_eq_iff⟩

/-- A literal, a reference and an operation in a row, and the set of the first and the last. -/
theorem order_agrees_with_equality_kinds :
    let a : Expr := .lit (.ofQuotient (-1) 2)
    let b : Expr := .bottom 3
    let c : Expr := .apply .sub (.top 0) a
    (a.compare b).isLE = true ∧ (b.compare c).isLE = true ∧ (a.compare c).isLE = true ∧
      ((single c).union (single a)).exprs = [a, c] := by
  intro a b c
  obtain ⟨-, -, horder, htotal, hsets, -, hlist⟩ := order_agrees_with_equality
  have hab : (a.compare b).isLE = true := by decide
  have hbc : (b.compare c).isLE = true := by decide
  have hac : a.Precedes c := (horder a c).1.1 (by decide)
  refine ⟨hab, hbc, htotal.trans a b c hab hbc, (hlist _ _).2 ⟨List.pairwise_pair.2 hac, ?_⟩⟩
  intro e
  rw [(hsets _ _).1]
  simp [members, or_comm]

end StackSeq
