import StackSeq.Symbolic.Expr

/-!
# Sets of expressions

The expressions that one slot of a stack may hold, one for each way the branches of a program can
go. A set is never empty; its members are listed in increasing order, each once, and both facts
are part of the type. `mem_ofList` says that sorting in keeps exactly the given expressions, and
all operations are stated through membership: `mem_single`, `mem_union`, `mem_apply`.
-/

namespace StackSeq

/-! ## Sorted insertion -/

/-- The list with an expression put in its place, once. -/
def insertSorted (e : Expr) : List Expr → List Expr
  | [] => [e]
  | x :: xs =>
    match e.compare x with
    | .lt => e :: x :: xs
    | .eq => x :: xs
    | .gt => x :: insertSorted e xs

/-- Increasing order without repetition. -/
abbrev Increasing (es : List Expr) : Prop :=
  es.Pairwise fun a b => a.compare b = .lt

theorem mem_insertSorted {e x : Expr} {es : List Expr} :
    x ∈ insertSorted e es ↔ x = e ∨ x ∈ es := by
  induction es with
  | nil => simp [insertSorted]
  | cons y ys ih =>
    rw [insertSorted]
    split
    · simp
    · next h =>
      rw [Expr.compare_eq_iff] at h
      subst h
      simp
    · simp only [List.mem_cons, ih]
      exact or_left_comm

theorem increasing_insertSorted (e : Expr) {es : List Expr} (h : Increasing es) :
    Increasing (insertSorted e es) := by
  induction es with
  | nil => exact List.pairwise_singleton _ _
  | cons y ys ih =>
    rw [Increasing, List.pairwise_cons] at h
    rw [insertSorted]
    split
    · next hlt =>
      refine List.pairwise_cons.2 ⟨fun x hx => ?_, List.pairwise_cons.2 h⟩
      rcases List.mem_cons.1 hx with rfl | hx
      · exact hlt
      · exact Expr.compare_lt_trans hlt (h.1 x hx)
    · exact List.pairwise_cons.2 h
    · next hgt =>
      refine List.pairwise_cons.2 ⟨fun x hx => ?_, ih h.2⟩
      rcases mem_insertSorted.1 hx with rfl | hx
      · rw [← Expr.compare_swap, hgt]
        rfl
      · exact h.1 x hx

theorem insertSorted_ne_nil (e : Expr) (es : List Expr) : insertSorted e es ≠ [] := by
  cases es with
  | nil => simp [insertSorted]
  | cons x xs =>
    rw [insertSorted]
    split <;> simp

/-! ## Sets -/

/-- A non-empty set of expressions. -/
structure ExprSet where
  /-- The members in increasing order, each once. -/
  exprs : List Expr
  increasing : Increasing exprs
  nonempty : exprs ≠ []
deriving DecidableEq

namespace ExprSet

instance : Membership Expr ExprSet := ⟨fun s e => e ∈ s.exprs⟩

/-- The set with one member. -/
def single (e : Expr) : ExprSet where
  exprs := [e]
  increasing := List.pairwise_singleton _ _
  nonempty := List.cons_ne_nil _ _

/-- The set of the expressions of a list. -/
def ofList (es : List Expr) (h : es ≠ []) : ExprSet where
  exprs := es.foldr insertSorted []
  increasing := by
    clear h
    induction es with
    | nil => exact .nil
    | cons e es ih => exact increasing_insertSorted e ih
  nonempty := by
    cases es with
    | nil => exact absurd rfl h
    | cons e es => exact insertSorted_ne_nil _ _

/-- The number of members. -/
def size (s : ExprSet) : Nat := s.exprs.length

/-- Whether the expression is a member. -/
def contains (s : ExprSet) (e : Expr) : Bool := s.exprs.contains e

/-- The only member, if there are no others. -/
def single? (s : ExprSet) : Option Expr :=
  match s.exprs with
  | [e] => some e
  | _ => none

/-- The members of both sets. -/
def union (a b : ExprSet) : ExprSet :=
  ofList (a.exprs ++ b.exprs) (List.append_ne_nil_of_left_ne_nil a.nonempty _)

/-- All results of an operation on a member of the one set and a member of the other. -/
def apply (op : BinOp) (a b : ExprSet) : ExprSet :=
  ofList (a.exprs.flatMap fun x => b.exprs.map fun y => Expr.fold op x y) <| by
    obtain ⟨x, xs, hx⟩ := List.exists_cons_of_ne_nil a.nonempty
    obtain ⟨y, ys, hy⟩ := List.exists_cons_of_ne_nil b.nonempty
    simp [hx, hy]

/-- Whether the values of a slot are positive: decided if all members are literals that agree,
and otherwise open. -/
def decidePositive (s : ExprSet) : Option Bool :=
  match s.exprs.mapM Expr.literal? with
  | none => none
  | some values =>
    if values.all Rational.isPositive then some true
    else if values.any Rational.isPositive then none
    else some false

/-- The set as text: a single member bare, several in braces. -/
def text (s : ExprSet) : String :=
  match s.single? with
  | some e => e.text
  | none => "\x7b" ++ Text.join ", " (s.exprs.map Expr.text) ++ "\x7d"

/-! ## Membership -/

theorem mem_ofList {es : List Expr} (h : es ≠ []) {e : Expr} : e ∈ ofList es h ↔ e ∈ es := by
  show e ∈ es.foldr insertSorted [] ↔ e ∈ es
  clear h
  induction es with
  | nil => rfl
  | cons x xs ih => rw [List.foldr_cons, mem_insertSorted, ih, List.mem_cons]

@[simp] theorem mem_single {e x : Expr} : e ∈ single x ↔ e = x :=
  List.mem_singleton

@[simp] theorem mem_union {a b : ExprSet} {e : Expr} : e ∈ a.union b ↔ e ∈ a ∨ e ∈ b := by
  rw [union, mem_ofList, List.mem_append]
  rfl

@[simp] theorem mem_apply {op : BinOp} {a b : ExprSet} {e : Expr} :
    e ∈ apply op a b ↔ ∃ x ∈ a, ∃ y ∈ b, Expr.fold op x y = e := by
  rw [apply, mem_ofList, List.mem_flatMap]
  simp only [List.mem_map]
  rfl

theorem contains_iff {s : ExprSet} {e : Expr} : s.contains e = true ↔ e ∈ s :=
  List.contains_iff_mem

end ExprSet

end StackSeq
