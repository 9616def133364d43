import Mathlib.Order.Compare
import StackSeq.Proofs.Rational.Register

/-!
# The order of values

Values are compared by their cross products. That is the order of the rational numbers that they
stand for (`compare_eq_cmp`), since denominators are positive, and both products fit into the
registers in which they are computed (`compareInRegisters?_eq`). So the order is a total one, and
values compare equal only if their fields are.
-/

namespace StackSeq.Rational

/-- The comparison of two values, by cross products that are computed in registers. -/
def compareInRegisters? (a b : Rational) : Option Ordering := do
  let x ← inRegister? (a.num * b.den)
  let y ← inRegister? (b.num * a.den)
  some (Ord.compare x y)

variable (a b : Rational)

theorem toRat_lt_iff : a.toRat < b.toRat ↔ a.num * b.den < b.num * a.den := by
  have ha : (0 : ℚ) < a.den := Nat.cast_pos.2 a.den_pos
  have hb : (0 : ℚ) < b.den := Nat.cast_pos.2 b.den_pos
  rw [toRat, toRat, div_lt_div_iff₀ ha hb]
  exact_mod_cast Iff.rfl

/-- **The comparison of cross products is that of the numbers.** -/
theorem compare_eq_cmp : a.compare b = cmp a.toRat b.toRat := by
  rcases lt_trichotomy a.toRat b.toRat with hlt | heq | hgt
  · rw [cmp_eq_lt_iff _ _ |>.2 hlt, compare, Int.compare_eq_lt]
    exact (toRat_lt_iff a b).1 hlt
  · rw [cmp_eq_eq_iff _ _ |>.2 heq, compare_eq_iff]
    exact toRat_injective heq
  · rw [cmp_eq_gt_iff _ _ |>.2 hgt, compare, Int.compare_eq_gt]
    exact (toRat_lt_iff b a).1 hgt

/-- **A comparison stays within its registers.** -/
theorem compareInRegisters?_eq : compareInRegisters? a b = some (a.compare b) := by
  have hx : (a.num * b.den).natAbs < 2 ^ 127 :=
    Nat.lt_of_le_of_lt (natAbs_num_mul_den_le a b) (by decide)
  have hy : (b.num * a.den).natAbs < 2 ^ 127 :=
    Nat.lt_of_le_of_lt (natAbs_num_mul_den_le b a) (by decide)
  simp only [compareInRegisters?, Option.bind_eq_bind, Option.bind_some, inRegister?_eq hx,
    inRegister?_eq hy, compare]

/-- Values compare equal exactly if both of their fields are equal. -/
theorem compare_eq_iff_fields : a.compare b = .eq ↔ a.num = b.num ∧ a.den = b.den := by
  rw [compare_eq_iff]
  constructor
  · rintro rfl
    exact ⟨rfl, rfl⟩
  · rintro ⟨hnum, hden⟩
    exact ext_of_cross_eq (by rw [hnum, hden])

/-- The values that count as positive are those of positive numbers. -/
theorem isPositive_iff : a.isPositive = true ↔ 0 < a.toRat := by
  rw [isPositive, decide_eq_true_eq, ← num_toRat, Rat.num_pos]

end StackSeq.Rational
