import Mathlib.Data.Rat.Floor
import Mathlib.Tactic.FieldSimp
import Mathlib.Tactic.Ring
import StackSeq.Op
import StackSeq.Proofs.Rational.Neutral

/-!
# Exact arithmetic

A value stands for a rational number (`toRat`), and a rational number has a value (`ofRat`): itself
where both parts of its reduced fraction are in range, and zero elsewhere. `ofQuotient` takes the
value of the exact quotient (`ofQuotient_eq_ofRat`), so each operation gives the value of its exact
result (`BinOp.apply_eq_ofRat`, `neg_eq_ofRat`), and the result of an operation that stays in range
is exact.
-/

namespace StackSeq

namespace Rational

/-! ## Values and rational numbers -/

/-- The rational number that the value stands for. -/
def toRat (r : Rational) : ℚ := r.num / r.den

/-- Both parts of the reduced fraction of a rational number are in range. -/
def Representable (q : ℚ) : Prop := Text.FitsInt64 q.num ∧ q.den < 0x8000_0000_0000_0000

instance (q : ℚ) : Decidable (Representable q) := inferInstanceAs (Decidable (_ ∧ _))

/-- The value of a rational number: the number itself if it is in range, and zero if not. -/
def ofRat (q : ℚ) : Rational :=
  if h : Representable q then
    { num := q.num
      den := q.den
      den_pos := q.den_pos
      reduced := q.reduced
      num_fits := h.1
      den_lt := h.2 }
  else 0

/-- A fraction in lowest terms is the reduced fraction of its number. -/
theorem num_div_of_coprime {n : Int} {d : Nat} (hd : 0 < d) (h : n.natAbs.Coprime d) :
    (n / d : ℚ).num = n ∧ (n / d : ℚ).den = d := by
  have hpos : (0 : Int) < d := Int.natCast_pos.2 hd
  have hnum := Rat.num_div_eq_of_coprime hpos h
  have hden := Rat.den_div_eq_of_coprime hpos h
  rw [Int.cast_natCast] at hnum hden
  exact ⟨hnum, Int.natCast_inj.1 hden⟩

theorem num_toRat (r : Rational) : r.toRat.num = r.num :=
  (num_div_of_coprime r.den_pos r.reduced).1

theorem den_toRat (r : Rational) : r.toRat.den = r.den :=
  (num_div_of_coprime r.den_pos r.reduced).2

theorem representable_toRat (r : Rational) : Representable r.toRat := by
  rw [Representable, num_toRat, den_toRat]
  exact ⟨r.num_fits, r.den_lt⟩

/-- A number in range is the number of its value. -/
theorem toRat_ofRat {q : ℚ} (h : Representable q) : (ofRat q).toRat = q := by
  rw [ofRat, dif_pos h, toRat]
  exact Rat.num_div_den q

theorem toRat_injective {a b : Rational} (h : a.toRat = b.toRat) : a = b := by
  apply ext_of_cross_eq
  rw [← num_toRat a, ← num_toRat b, ← den_toRat a, ← den_toRat b, h]

/-- A value is the value of its number: nothing of it is absorbed. -/
theorem ofRat_toRat (r : Rational) : ofRat r.toRat = r :=
  toRat_injective (toRat_ofRat (representable_toRat r))

theorem ofRat_zero : ofRat 0 = 0 := rfl

@[simp] theorem toRat_eq_zero_iff {r : Rational} : r.toRat = 0 ↔ r.num = 0 := by
  rw [← Rat.num_eq_zero, num_toRat]

/-! ## Quotients -/

/-- The reduced fraction of a quotient, as `ofQuotient` computes it. -/
theorem num_den_div (n : Int) {d : Int} (hd : d ≠ 0) :
    (n / d : ℚ).num = (if 0 ≤ n ↔ 0 < d then (n.natAbs / n.natAbs.gcd d.natAbs : Nat)
        else -(n.natAbs / n.natAbs.gcd d.natAbs : Nat) : Int) ∧
      (n / d : ℚ).den = d.natAbs / n.natAbs.gcd d.natAbs := by
  rw [← Rat.divInt_eq_div, Rat.num_divInt, Rat.den_divInt, if_neg hd, Int.gcd_comm]
  refine ⟨?_, rfl⟩
  have hdvd : ((n.natAbs.gcd d.natAbs : Nat) : Int) ∣ n.natAbs :=
    Int.natCast_dvd_natCast.2 (Nat.gcd_dvd_left ..)
  show d.sign * n / (n.natAbs.gcd d.natAbs : Nat) = _
  rw [Int.natCast_ediv]
  rcases Int.lt_or_gt_of_ne hd with hneg | hpos
  · rw [Int.sign_eq_neg_one_of_neg hneg, neg_one_mul]
    by_cases hn : 0 ≤ n
    · rw [if_neg (by omega), ← Int.neg_ediv_of_dvd hdvd, Int.natAbs_of_nonneg hn]
    · rw [if_pos (by omega), Int.ofNat_natAbs_of_nonpos (by omega)]
  · rw [Int.sign_eq_one_of_pos hpos, Int.one_mul]
    by_cases hn : 0 ≤ n
    · rw [if_pos (by omega), Int.natAbs_of_nonneg hn]
    · rw [if_neg (by omega), ← Int.neg_ediv_of_dvd hdvd, Int.ofNat_natAbs_of_nonpos (by omega),
        Int.neg_neg]

/-- **`ofQuotient` takes the value of the exact quotient.** -/
theorem ofQuotient_eq_ofRat (n d : Int) : ofQuotient n d = ofRat (n / d) := by
  by_cases hd : d = 0
  · simp [hd, ofRat_zero]
  · obtain ⟨hnum, hden⟩ := num_den_div n hd
    unfold ofQuotient ofRat Representable
    simp only [hnum, hden, ne_eq, hd, not_false_eq_true, true_and]

theorem cast_den_ne_zero (r : Rational) : (r.den : ℚ) ≠ 0 :=
  Nat.cast_ne_zero.2 (Nat.ne_of_gt r.den_pos)

/-! ## Truncation -/

/-- A rational number without its fractional part. -/
def truncate (q : ℚ) : Int := if 0 ≤ q then ⌊q⌋ else ⌈q⌉

theorem truncate_div_natCast (n : Int) (d : Nat) : truncate (n / d) = n.tdiv d := by
  unfold truncate
  rcases Int.le_total 0 n with hn | hn
  · have hq : (0 : ℚ) ≤ n / d := div_nonneg (Int.cast_nonneg hn) (Nat.cast_nonneg d)
    rw [if_pos hq, Rat.floor_intCast_div_natCast, Int.tdiv_eq_ediv_of_nonneg hn]
  · have hceil : n.tdiv d = ⌈(n / d : ℚ)⌉ := by
      rw [Rat.ceil_intCast_div_natCast, ← Int.tdiv_eq_ediv_of_nonneg (by omega), Int.neg_tdiv,
        Int.neg_neg]
    split
    · next hq =>
      -- A quotient of a negative number that is not negative is zero.
      have hz : (n / d : ℚ) = 0 :=
        le_antisymm (div_nonpos_of_nonpos_of_nonneg (Int.cast_nonpos.2 hn) (Nat.cast_nonneg d)) hq
      rw [hceil, hz, Int.floor_zero, Int.ceil_zero]
    · exact hceil.symm

/-- **Truncating division of integers truncates their exact quotient.** -/
theorem truncate_div (n d : Int) : truncate (n / d) = n.tdiv d := by
  obtain ⟨k, rfl | rfl⟩ := d.eq_nat_or_neg
  · rw [Int.cast_natCast, truncate_div_natCast]
  · have hneg : (n / ((-(k : Int) : Int) : ℚ)) = ((-n : Int) : ℚ) / k := by
      push_cast
      rw [div_neg, neg_div]
    rw [hneg, truncate_div_natCast, Int.tdiv_neg, Int.neg_tdiv]

end Rational

/-! ## Operations -/

/-- The operation on rational numbers. A quotient by zero and the remainder of a division by zero
are zero; other remainders are those of truncating division. -/
def BinOp.exact : BinOp → ℚ → ℚ → ℚ
  | add, x, y => x + y
  | sub, x, y => x - y
  | mul, x, y => x * y
  | div, x, y => x / y
  | mod, x, y => if y = 0 then 0 else x - y * Rational.truncate (x / y)

namespace Rational

variable (a b : Rational)

theorem add_eq_ofRat : a + b = ofRat (a.toRat + b.toRat) := by
  have ha := a.cast_den_ne_zero
  have hb := b.cast_den_ne_zero
  rw [add_eq, ofQuotient_eq_ofRat, toRat, toRat]
  congr 1
  push_cast
  field_simp

theorem sub_eq_ofRat : a - b = ofRat (a.toRat - b.toRat) := by
  have ha := a.cast_den_ne_zero
  have hb := b.cast_den_ne_zero
  rw [sub_eq, ofQuotient_eq_ofRat, toRat, toRat]
  congr 1
  push_cast
  field_simp

theorem mul_eq_ofRat : a * b = ofRat (a.toRat * b.toRat) := by
  rw [mul_eq, ofQuotient_eq_ofRat, toRat, toRat]
  congr 1
  push_cast
  rw [div_mul_div_comm]

/-- The cross products, by which quotients and remainders are taken. -/
theorem div_toRat : a.toRat / b.toRat = (a.num * b.den : Int) / (a.den * b.num : Int) := by
  rw [toRat, toRat, div_div_div_eq]
  push_cast
  rfl

theorem div_eq_ofRat : a / b = ofRat (a.toRat / b.toRat) := by
  rw [div_eq, ofQuotient_eq_ofRat, div_toRat]

theorem mod_eq_ofRat : a % b = ofRat (BinOp.mod.exact a.toRat b.toRat) := by
  simp only [mod_eq, BinOp.exact, toRat_eq_zero_iff]
  split
  · rfl
  · have ha := a.cast_den_ne_zero
    have hb := b.cast_den_ne_zero
    rw [ofQuotient_eq_ofRat, div_toRat, truncate_div, Int.tmod_def, toRat, toRat]
    congr 1
    push_cast
    field_simp

theorem neg_eq_ofRat : -a = ofRat (-a.toRat) := by
  show ofQuotient (-a.num) a.den = _
  rw [ofQuotient_eq_ofRat, toRat, Int.cast_neg, Int.cast_natCast, neg_div]

end Rational

/-- **An operation gives the value of the exact result.** -/
theorem BinOp.apply_eq_ofRat (op : BinOp) (a b : Rational) :
    op.apply a b = Rational.ofRat (op.exact a.toRat b.toRat) := by
  cases op with
  | add => exact Rational.add_eq_ofRat a b
  | sub => exact Rational.sub_eq_ofRat a b
  | mul => exact Rational.mul_eq_ofRat a b
  | div => exact Rational.div_eq_ofRat a b
  | mod => exact Rational.mod_eq_ofRat a b

end StackSeq
