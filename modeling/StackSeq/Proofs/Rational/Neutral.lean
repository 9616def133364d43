import StackSeq.Rational

/-!
# Neutral and absorbing operands

What the arithmetic on bounded rationals gives when zero or one is an operand, or when a value
meets itself. All of it rests on two facts about `ofQuotient`: a value is the quotient of its own
fields, and zero over anything is zero. No result here leaves the range, so no absorption occurs.
-/

namespace StackSeq.Rational

variable (r : Rational)

@[simp] theorem num_zero : (0 : Rational).num = 0 := rfl

@[simp] theorem den_zero : (0 : Rational).den = 1 := rfl

@[simp] theorem num_one : (1 : Rational).num = 1 := rfl

@[simp] theorem den_one : (1 : Rational).den = 1 := rfl

/-! ## Quotients -/

/-- **A value is the quotient of its own fields.** -/
@[simp] theorem ofQuotient_num_den : ofQuotient r.num r.den = r := by
  -- The fields are in lowest terms, so the division by their common divisor does nothing.
  have hg : r.num.natAbs.gcd (r.den : Int).natAbs = 1 := by
    rw [Int.natAbs_natCast]; exact r.reduced
  have hpos : (0 : Int) < r.den := Int.natCast_pos.2 r.den_pos
  have hnum : (if 0 ≤ r.num ↔ (0 : Int) < r.den then ((r.num.natAbs / 1 : Nat) : Int)
      else -((r.num.natAbs / 1 : Nat) : Int)) = r.num := by
    rw [Nat.div_one]
    split <;> omega
  have hden : (r.den : Int).natAbs / 1 = r.den := by
    rw [Int.natAbs_natCast, Nat.div_one]
  unfold ofQuotient
  simp only [hg]
  rw [dif_pos ⟨by omega, by rw [hnum]; exact r.num_fits, by rw [hden]; exact r.den_lt⟩]
  apply ext_of_cross_eq
  calc _ = r.num * (r.den : Int) := congrArg (· * (r.den : Int)) hnum
    _ = _ := congrArg (fun d : Nat => r.num * (d : Int)) hden.symm

/-- Zero over anything is zero, a zero divisor included. -/
@[simp] theorem ofQuotient_zero (d : Int) : ofQuotient 0 d = 0 := by
  by_cases hd : d = 0
  · unfold ofQuotient
    rw [dif_neg (fun h => h.1 hd)]
  · have hpos : 0 < d.natAbs := Int.natAbs_pos.2 hd
    unfold ofQuotient
    simp only [Int.natAbs_zero, Nat.gcd_zero_left, Nat.zero_div, Nat.div_self hpos]
    rw [dif_pos ⟨hd, by split <;> decide, by decide⟩]
    simp only [Int.natCast_zero, Int.neg_zero, ite_self]
    rfl

/-- Nothing over zero is zero. -/
@[simp] theorem ofQuotient_div_zero (n : Int) : ofQuotient n 0 = 0 := by
  unfold ofQuotient
  rw [dif_neg (fun h => h.1 rfl)]

/-! ## Zero and one as operands -/

theorem add_eq (a b : Rational) :
    a + b = ofQuotient (a.num * b.den + b.num * a.den) (a.den * b.den) := rfl

theorem sub_eq (a b : Rational) :
    a - b = ofQuotient (a.num * b.den - b.num * a.den) (a.den * b.den) := rfl

theorem mul_eq (a b : Rational) : a * b = ofQuotient (a.num * b.num) (a.den * b.den) := rfl

theorem div_eq (a b : Rational) : a / b = ofQuotient (a.num * b.den) (a.den * b.num) := rfl

theorem mod_eq (a b : Rational) :
    a % b = if b.num = 0 then 0
      else ofQuotient (Int.tmod (a.num * b.den) (a.den * b.num)) (a.den * b.den) := rfl

@[simp] theorem add_zero : r + 0 = r := by simp [add_eq]

@[simp] theorem zero_add : 0 + r = r := by simp [add_eq]

@[simp] theorem sub_zero : r - 0 = r := by simp [sub_eq]

@[simp] theorem sub_self : r - r = 0 := by simp [sub_eq]

@[simp] theorem mul_zero : r * 0 = 0 := by simp [mul_eq]

@[simp] theorem zero_mul : 0 * r = 0 := by simp [mul_eq]

@[simp] theorem mul_one : r * 1 = r := by simp [mul_eq]

@[simp] theorem one_mul : 1 * r = r := by simp [mul_eq]

@[simp] theorem div_zero : r / 0 = 0 := by simp [div_eq]

@[simp] theorem zero_div : 0 / r = 0 := by simp [div_eq]

@[simp] theorem div_one : r / 1 = r := by simp [div_eq]

@[simp] theorem mod_zero : r % 0 = 0 := by simp [mod_eq]

@[simp] theorem zero_mod : 0 % r = 0 := by simp [mod_eq]

/-- Both products of a value with itself are the same integer. -/
@[simp] theorem mod_self : r % r = 0 := by
  rw [mod_eq, Int.mul_comm r.num, Int.tmod_self, ofQuotient_zero, ite_self]

end StackSeq.Rational
