import StackSeq.Text.Numeral

/-!
# Bounded rationals

The values on a stack: exact fractions in lowest terms whose numerator fits a signed 64-bit
integer and whose denominator is positive and below 2^63. Lowest terms and range are part of the
type, so two values are equal exactly when their fields are.

Arithmetic is exact and never fails. `ofQuotient` brings a quotient of integers to lowest terms
and *absorbs into zero* what has no representation: a zero divisor and a result out of range. All
five operations and negation are one `ofQuotient` of integers; the remainder is the one of
truncating division, `x - y * trunc (x / y)`.
-/

namespace StackSeq

/-- A fraction in lowest terms within the 64-bit range. -/
structure Rational where
  num : Int
  den : Nat
  den_pos : 0 < den
  reduced : num.natAbs.Coprime den
  num_fits : Text.FitsInt64 num
  den_lt : den < 0x8000_0000_0000_0000
deriving DecidableEq

namespace Rational

/-! ## Construction -/

/-- An integer in range. -/
def ofInt (n : Int) (h : Text.FitsInt64 n) : Rational where
  num := n
  den := 1
  den_pos := Nat.one_pos
  reduced := Nat.coprime_one_right _
  num_fits := h
  den_lt := by decide

instance : Zero Rational := ⟨ofInt 0 (by decide)⟩

instance : One Rational := ⟨ofInt 1 (by decide)⟩

instance : Inhabited Rational := ⟨0⟩

/-- The quotient of two integers in lowest terms; zero if the divisor is zero or the reduced
fraction is out of range. -/
def ofQuotient (n d : Int) : Rational :=
  let g := n.natAbs.gcd d.natAbs
  let num : Int := if 0 ≤ n ↔ 0 < d then (n.natAbs / g : Nat) else -(n.natAbs / g : Nat)
  let den := d.natAbs / g
  if h : d ≠ 0 ∧ Text.FitsInt64 num ∧ den < 0x8000_0000_0000_0000 then
    { num, den
      den_pos :=
        Nat.div_pos (Nat.gcd_le_right _ (Int.natAbs_pos.2 h.1))
          (Nat.gcd_pos_of_pos_right _ (Int.natAbs_pos.2 h.1))
      reduced := by
        have abs : num.natAbs = n.natAbs / g := by
          simp only [num]
          split
          · exact Int.natAbs_natCast _
          · rw [Int.natAbs_neg, Int.natAbs_natCast]
        rw [abs]
        exact Nat.coprime_div_gcd_div_gcd (Nat.gcd_pos_of_pos_right _ (Int.natAbs_pos.2 h.1))
      num_fits := h.2.1
      den_lt := h.2.2 }
  else 0

theorem fitsInt64_toInt (n : Int64) : Text.FitsInt64 n.toInt :=
  ⟨n.le_toInt, n.toInt_lt⟩

/-- A sequence term as a value. -/
def ofTerm (n : Int64) : Rational :=
  ofInt n.toInt (fitsInt64_toInt n)

/-- A count as a value; counts of 2^63 and more are absorbed. -/
def ofCount (n : Nat) : Rational :=
  ofQuotient n 1

/-! ## Tests and views -/

/-- Whether the value is greater than zero. -/
def isPositive (r : Rational) : Bool :=
  decide (0 < r.num)

/-- Whether the value has no fractional part. -/
def isInteger (r : Rational) : Bool :=
  r.den == 1

/-- The value as a sequence term, if it has no fractional part. -/
def toTerm? (r : Rational) : Option Int64 :=
  if r.isInteger then some (Int64.ofInt r.num) else none

/-- A term read back as a term is itself. -/
@[simp] theorem toTerm?_ofTerm (n : Int64) : (ofTerm n).toTerm? = some n := by
  simp [toTerm?, isInteger, ofTerm, ofInt]

/-! ## Arithmetic -/

/-- The sum. -/
def add (a b : Rational) : Rational :=
  ofQuotient (a.num * b.den + b.num * a.den) (a.den * b.den)

/-- The difference. -/
def sub (a b : Rational) : Rational :=
  ofQuotient (a.num * b.den - b.num * a.den) (a.den * b.den)

/-- The product. -/
def mul (a b : Rational) : Rational :=
  ofQuotient (a.num * b.num) (a.den * b.den)

/-- The quotient; a zero divisor gives zero. -/
def div (a b : Rational) : Rational :=
  ofQuotient (a.num * b.den) (a.den * b.num)

/-- The remainder of truncating division; a zero divisor gives zero. -/
def mod (a b : Rational) : Rational :=
  if b.num = 0 then 0
  else ofQuotient (Int.tmod (a.num * b.den) (a.den * b.num)) (a.den * b.den)

/-- The negation; the negation of -2^63 is out of range and gives zero. -/
def neg (a : Rational) : Rational :=
  ofQuotient (-a.num) a.den

instance : Add Rational := ⟨add⟩
instance : Sub Rational := ⟨sub⟩
instance : Mul Rational := ⟨mul⟩
instance : Div Rational := ⟨div⟩
instance : Mod Rational := ⟨mod⟩
instance : Neg Rational := ⟨neg⟩

/-! ## Order -/

/-- The order of the values, by cross products. -/
def compare (a b : Rational) : Ordering :=
  Ord.compare (a.num * b.den) (b.num * a.den)

instance : Ord Rational := ⟨compare⟩

theorem ext_of_cross_eq {a b : Rational} (h : a.num * b.den = b.num * a.den) : a = b := by
  have abs : a.num.natAbs * b.den = b.num.natAbs * a.den := by
    have := congrArg Int.natAbs h
    simpa only [Int.natAbs_mul, Int.natAbs_natCast] using this
  have den : a.den = b.den := by
    apply Nat.dvd_antisymm
    · have : a.den ∣ a.num.natAbs * b.den := abs ▸ Nat.dvd_mul_left _ _
      exact a.reduced.symm.dvd_of_dvd_mul_left this
    · have : b.den ∣ b.num.natAbs * a.den := abs ▸ Nat.dvd_mul_left _ _
      exact b.reduced.symm.dvd_of_dvd_mul_left this
  have num : a.num = b.num := by
    rw [den] at h
    exact Int.eq_of_mul_eq_mul_right (Int.natCast_ne_zero.2 (Nat.ne_of_gt b.den_pos)) h
  cases a
  cases b
  simp only at num den
  subst num den
  rfl

/-- Values compare equal exactly when they are equal. -/
theorem compare_eq_iff {a b : Rational} : compare a b = .eq ↔ a = b := by
  rw [compare, Int.compare_eq_eq]
  exact ⟨ext_of_cross_eq, fun h => h ▸ rfl⟩

theorem isLE_compare {a b : Rational} :
    (compare a b).isLE = true ↔ a.num * b.den ≤ b.num * a.den :=
  Int.isLE_compare

theorem compare_trans {a b c : Rational} (hab : (compare a b).isLE = true)
    (hbc : (compare b c).isLE = true) : (compare a c).isLE = true := by
  rw [isLE_compare] at *
  have pos (r : Rational) : (0 : Int) < r.den := Int.natCast_pos.2 r.den_pos
  have left := Int.mul_le_mul_of_nonneg_right hab (Int.le_of_lt (pos c))
  have right := Int.mul_le_mul_of_nonneg_right hbc (Int.le_of_lt (pos a))
  apply Int.le_of_mul_le_mul_right _ (pos b)
  calc a.num * c.den * b.den = a.num * b.den * c.den := Int.mul_right_comm ..
    _ ≤ b.num * a.den * c.den := left
    _ = b.num * c.den * a.den := Int.mul_right_comm ..
    _ ≤ c.num * b.den * a.den := right
    _ = c.num * a.den * b.den := Int.mul_right_comm ..

theorem compare_swap (a b : Rational) : (compare a b).swap = compare b a :=
  Int.compare_swap ..

instance : Std.TransCmp compare where
  eq_swap := (compare_swap ..).symm
  isLE_trans := compare_trans

instance : Std.LawfulEqCmp compare where
  compare_self := compare_eq_iff.2 rfl
  eq_of_compare := compare_eq_iff.1

theorem compare_lt_trans {a b c : Rational} (hab : compare a b = .lt) (hbc : compare b c = .lt) :
    compare a c = .lt :=
  Std.TransCmp.lt_trans hab hbc

end Rational

end StackSeq
