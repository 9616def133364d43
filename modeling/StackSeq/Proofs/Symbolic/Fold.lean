import StackSeq.Check
import StackSeq.Proofs.Rational.Neutral
import StackSeq.Symbolic.ExprSet

/-!
# Folding keeps the value

`Expr.fold` computes with literals and simplifies around zero, one and equal operands. Under every
assignment of the unknowns the result has the value that the operation gives for the values of the
operands (`value_fold`). A branch condition is decided by literals of one sign
(`decidePositive_eq_some_iff`), so for a single expression it is decided the way its value goes.
-/

namespace StackSeq

namespace Expr

variable {env : Assignment}

/-! ## Literals -/

@[simp] theorem value_lit (r : Rational) : (lit r).value env = r := rfl

theorem eq_lit_of_literal? {e : Expr} {r : Rational} (h : e.literal? = some r) : e = lit r := by
  cases e with
  | lit a => exact congrArg lit (Option.some.inj h)
  | _ => simp [literal?] at h

theorem mapM_literal?_eq_some_iff {es : List Expr} {values : List Rational} :
    es.mapM literal? = some values ↔ es = values.map lit := by
  rw [mapM_eq_some_iff]
  induction es generalizing values with
  | nil => cases values <;> simp
  | cons e es ih =>
    cases values with
    | nil => simp
    | cons r values =>
      have he : some r = e.literal? ↔ e = lit r :=
        ⟨fun h => eq_lit_of_literal? h.symm, fun h => h ▸ rfl⟩
      simp only [List.map_cons, List.cons.injEq, he, ih]

theorem exists_eq_map_lit {es : List Expr} (h : ∀ e ∈ es, ∃ r, e = lit r) :
    ∃ values : List Rational, es = values.map lit := by
  induction es with
  | nil => exact ⟨[], rfl⟩
  | cons e es ih =>
    obtain ⟨⟨r, rfl⟩, hes⟩ := List.forall_mem_cons.1 h
    obtain ⟨values, rfl⟩ := ih hes
    exact ⟨r :: values, rfl⟩

/-! ## Folding -/

/-- The simplifications hold for every value of the unknowns. -/
theorem value_simplify (op : BinOp) (lhs rhs : Expr) :
    (simplify op lhs rhs).value env = op.apply (lhs.value env) (rhs.value env) := by
  cases op with
  | add =>
    rw [simplify]
    split
    · next h => simp [h, BinOp.apply]
    · split
      · next h => simp [h, BinOp.apply]
      · rfl
  | sub =>
    rw [simplify]
    split
    · next h => simp [h, BinOp.apply]
    · split
      · next h => simp [h, BinOp.apply]
      · rfl
  | mul =>
    rw [simplify]
    split
    · next h => rcases h with h | h <;> simp [h, BinOp.apply]
    · split
      · next h => simp [h, BinOp.apply]
      · split
        · next h => simp [h, BinOp.apply]
        · rfl
  | div =>
    rw [simplify]
    split
    · next h => rcases h with h | h <;> simp [h, BinOp.apply]
    · split
      · next h => simp [h, BinOp.apply]
      · rfl
  | mod =>
    rw [simplify]
    split
    · next h => rcases h with h | h <;> simp [h, BinOp.apply]
    · split
      · next h => simp [h, BinOp.apply]
      · rfl

/-- **Folding keeps the value**, whatever the unknowns are. -/
theorem value_fold (op : BinOp) (lhs rhs : Expr) :
    (fold op lhs rhs).value env = op.apply (lhs.value env) (rhs.value env) := by
  rw [fold]
  split
  · next hl hr => rw [eq_lit_of_literal? hl, eq_lit_of_literal? hr]; rfl
  · exact value_simplify op lhs rhs

end Expr

/-! ## Sets -/

namespace ExprSet

theorem exprs_single (e : Expr) : (single e).exprs = [e] := rfl

theorem single_injective {e e' : Expr} (h : single e = single e') : e = e' :=
  (List.cons.inj (congrArg exprs h)).1

/-- An operation on two single expressions has the single result that folding gives. -/
theorem apply_single (op : BinOp) (lhs rhs : Expr) :
    apply op (single lhs) (single rhs) = single (Expr.fold op lhs rhs) := rfl

/-- **What decides a branch**: all members are literals, and all of them have the sign that it is
decided by. -/
theorem decidePositive_eq_some_iff {s : ExprSet} {b : Bool} :
    s.decidePositive = some b ↔ ∀ e ∈ s, ∃ r, e = .lit r ∧ r.isPositive = b := by
  have hmem : ∀ e, e ∈ s ↔ e ∈ s.exprs := fun _ => Iff.rfl
  unfold decidePositive
  cases hvalues : s.exprs.mapM Expr.literal? with
  | none =>
    refine ⟨nofun, fun h => ?_⟩
    obtain ⟨values, hlit⟩ := Expr.exists_eq_map_lit fun e he => (h e he).imp fun _ hr => hr.1
    rw [Expr.mapM_literal?_eq_some_iff.2 hlit] at hvalues
    cases hvalues
  | some values =>
    have hlit := Expr.mapM_literal?_eq_some_iff.1 hvalues
    have hne : values ≠ [] := fun hnil => s.nonempty (by rw [hlit, hnil, List.map_nil])
    have hall : (∀ e ∈ s, ∃ r, e = .lit r ∧ r.isPositive = b) ↔ ∀ r ∈ values, r.isPositive = b := by
      simp [hmem, hlit]
    rw [hall]
    -- A set has a member, so no set is decided both ways.
    obtain ⟨r, rs, rfl⟩ := List.exists_cons_of_ne_nil hne
    cases b <;> cases hr : r.isPositive <;> simp [hr, List.all_eq_true]

/-- A single expression that decides a branch is a literal, and its sign is the decision. -/
theorem isPositive_of_decidePositive_single {env : Expr.Assignment} {e : Expr} {b : Bool}
    (h : (single e).decidePositive = some b) : (e.value env).isPositive = b := by
  obtain ⟨r, rfl, hr⟩ := decidePositive_eq_some_iff.1 h e (mem_single.2 rfl)
  exact hr

end ExprSet

end StackSeq
