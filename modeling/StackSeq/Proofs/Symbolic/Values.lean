import StackSeq.Proofs.Symbolic.Fold
import StackSeq.Proofs.Symbolic.Order

/-!
# The values of a set of expressions

Under an assignment of the unknowns a set of expressions stands for the values of its members.
Folding keeps the value of each combination, so an operation on two sets stands for all results of
the operation on a value of the one and a value of the other (`values_apply`). A branch condition
that is decided goes one way for all values. Main statement: `folding_keeps_values`.
-/

namespace StackSeq

namespace ExprSet

variable {env : Expr.Assignment} {s : ExprSet}

/-- The values that the members have. -/
def values (env : Expr.Assignment) (s : ExprSet) : Set Rational := Expr.value env '' s.members

theorem values_apply (op : BinOp) (a b : ExprSet) :
    (apply op a b).values env = Set.image2 op.apply (a.values env) (b.values env) := by
  rw [values, values, values, members_apply, Set.image_image2, Set.image2_image_left,
    Set.image2_image_right]
  exact Set.image2_congr fun x _ y _ => Expr.value_fold op x y

/-- A decided branch goes the same way for every value. -/
theorem isPositive_of_mem_values {b : Bool} (h : s.decidePositive = some b) {v : Rational}
    (hv : v ∈ s.values env) : v.isPositive = b := by
  obtain ⟨e, he, rfl⟩ := hv
  obtain ⟨r, rfl, hr⟩ := decidePositive_eq_some_iff.1 h e he
  exact hr

end ExprSet

/-- **Folding keeps values, whatever the unknowns are**, with all that arithmetic absorbs. The
folded expression has the value that the operation gives for the values of the operands, an
operation on two sets has just the values that it gives for a value of each, and what decides a
branch are literals of one sign, so that every value of the set goes that way. -/
theorem folding_keeps_values (env : Expr.Assignment) :
    (∀ op lhs rhs, (Expr.fold op lhs rhs).value env = op.apply (lhs.value env) (rhs.value env)) ∧
    (∀ op a b, (ExprSet.apply op a b).values env
      = Set.image2 op.apply (a.values env) (b.values env)) ∧
    (∀ (s : ExprSet) (b : Bool), s.decidePositive = some b →
      ∀ v ∈ s.values env, 0 < v.toRat ↔ b = true) ∧
    ∀ (s : ExprSet) (b : Bool), s.decidePositive = some b ↔
      ∀ e ∈ s.members, ∃ r, e = .lit r ∧ r.isPositive = b := by
  refine ⟨Expr.value_fold, ExprSet.values_apply, fun s b h v hv => ?_,
    fun s b => ExprSet.decidePositive_eq_some_iff⟩
  rw [← Rational.isPositive_iff, ExprSet.isPositive_of_mem_values h hv]

/-- A branch on zero times an unknown less zero or one: it is decided, and the least of the values
of its condition is below zero. -/
theorem folding_keeps_values_negative :
    let env : Expr.Assignment := ⟨fun _ => .ofQuotient 1 2, fun _ => 0, fun _ => 0⟩
    let product : ExprSet := .apply .mul (.single (.top 0)) (.single (.lit 0))
    let digit : ExprSet := (ExprSet.single (.lit 0)).union (.single (.lit 1))
    let condition : ExprSet := .apply .sub product digit
    condition.decidePositive = some false ∧ (0 - 1 : Rational) ∈ condition.values env ∧
      ¬0 < (0 - 1 : Rational).toRat ∧
      ∀ e ∈ condition.members, ∃ r, e = .lit r ∧ r.isPositive = false := by
  intro env product digit condition
  obtain ⟨-, hvalues, hdecided, hliterals⟩ := folding_keeps_values env
  have hd : condition.decidePositive = some false := by decide
  have hzero : (0 : Rational) ∈ product.values env := ⟨.lit 0, by decide, rfl⟩
  have hone : (1 : Rational) ∈ digit.values env := ⟨.lit 1, by decide, rfl⟩
  have hv : (0 - 1 : Rational) ∈ condition.values env := by
    rw [hvalues]
    exact ⟨0, hzero, 1, hone, rfl⟩
  exact ⟨hd, hv, fun h => Bool.false_ne_true ((hdecided _ _ hd _ hv).1 h), (hliterals _ _).1 hd⟩

end StackSeq
