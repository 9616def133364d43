import StackSeq.Proofs.Rational.Exact

/-!
# Arithmetic in registers

The same arithmetic with a bound on every number on the way: an operation is computed from the
fields of its operands in signed registers of 128 bits, and fails where a product, a sum, a
remainder, a divisor or a sign change does not fit. None ever fails, and what is computed are the
fields of the value (`BinOp.inRegisters?_eq`, `reduce?_eq`). With that, arithmetic is exact and
total on the registers as well: `arithmetic_exact`.
-/

namespace StackSeq

namespace Rational

/-! ## Registers -/

/-- The number in a signed register of 128 bits, if it fits. -/
def inRegister? (n : Int) : Option Int :=
  if -2 ^ 127 ≤ n ∧ n < 2 ^ 127 then some n else none

theorem inRegister?_eq {n : Int} (h : n.natAbs < 2 ^ 127) : inRegister? n = some n :=
  if_pos (by omega)

/-- The two fields of a value. -/
def fields (r : Rational) : Int × Int := (r.num, r.den)

/-- The fraction with its sign on the numerator, computed in registers. -/
def orient? (n d : Int) : Option (Int × Int) :=
  if d < 0 then do
    let n ← inRegister? (-n)
    let d ← inRegister? (-d)
    some (n, d)
  else some (n, d)

/-- The fields of a quotient, computed in registers. -/
def reduce? (n d : Int) : Option (Int × Int) :=
  if d = 0 ∨ n = 0 then some (0, 1)
  else do
    let g ← inRegister? (n.gcd d)
    let n ← inRegister? (n.tdiv g)
    let d ← inRegister? (d.tdiv g)
    let (n, d) ← orient? n d
    some (if Text.FitsInt64 n ∧ Text.FitsInt64 d then (n, d) else (0, 1))

/-! ## Quotients -/

theorem orient?_eq {n d : Int} (hn : n.natAbs < 2 ^ 127) (hd : d.natAbs < 2 ^ 127) :
    orient? n d = some (if d < 0 then (-n, -d) else (n, d)) := by
  unfold orient?
  rw [inRegister?_eq (by omega), inRegister?_eq (by omega)]
  split <;> rfl

/-- The division by the greatest common divisor, with the sign put in its place, leaves the reduced
fraction of the quotient. -/
theorem orient_tdiv_gcd (n : Int) {d : Int} (hd : d ≠ 0) :
    (if d.tdiv (n.gcd d) < 0 then (-n.tdiv (n.gcd d), -d.tdiv (n.gcd d))
      else (n.tdiv (n.gcd d), d.tdiv (n.gcd d))) = ((n / d : ℚ).num, ((n / d : ℚ).den : Int)) := by
  have hg : (0 : Int) < n.gcd d := Int.natCast_pos.2 (Int.gcd_pos_of_ne_zero_right n hd)
  have hn : n.tdiv (n.gcd d) = n / (n.gcd d) := Int.tdiv_eq_ediv_of_dvd (Int.gcd_dvd_left ..)
  have hdg : d.tdiv (n.gcd d) = d / (n.gcd d) := Int.tdiv_eq_ediv_of_dvd (Int.gcd_dvd_right ..)
  rw [← Rat.divInt_eq_div, Rat.num_divInt, Rat.den_divInt, if_neg hd, Int.gcd_comm d n, hn, hdg,
    Int.natCast_ediv]
  rcases Int.lt_or_gt_of_ne hd with hneg | hpos
  · rw [if_pos (Int.ediv_neg_of_neg_of_pos hneg hg), Int.sign_eq_neg_one_of_neg hneg, neg_one_mul,
      Int.ofNat_natAbs_of_nonpos (Int.le_of_lt hneg), Int.neg_ediv_of_dvd (Int.gcd_dvd_left ..),
      Int.neg_ediv_of_dvd (Int.gcd_dvd_right ..)]
  · rw [if_neg (Int.not_lt.2 (Int.ediv_nonneg (Int.le_of_lt hpos) (Int.le_of_lt hg))),
      Int.sign_eq_one_of_pos hpos, Int.one_mul, Int.natAbs_of_nonneg (Int.le_of_lt hpos)]

theorem fields_ofRat (q : ℚ) :
    (ofRat q).fields
      = if Text.FitsInt64 q.num ∧ Text.FitsInt64 q.den then (q.num, (q.den : Int)) else (0, 1) := by
  have hiff : Representable q ↔ Text.FitsInt64 q.num ∧ Text.FitsInt64 q.den := by
    unfold Representable Text.FitsInt64
    omega
  unfold ofRat
  by_cases h : Representable q
  · rw [dif_pos h, if_pos (hiff.1 h)]
    rfl
  · rw [dif_neg h, if_neg (mt hiff.2 h)]
    rfl

/-- **A quotient is brought to lowest terms in registers.** -/
theorem reduce?_eq {n d : Int} (hn : n.natAbs < 2 ^ 127) (hd : d.natAbs < 2 ^ 127) :
    reduce? n d = some (ofQuotient n d).fields := by
  unfold reduce?
  split
  · next hzero =>
    rcases hzero with rfl | rfl
    · rw [ofQuotient_div_zero]; rfl
    · rw [ofQuotient_zero]; rfl
  · next hne =>
    obtain ⟨hd0, hn0⟩ := not_or.1 hne
    have hg : n.gcd d < 2 ^ 127 :=
      Nat.lt_of_le_of_lt (Nat.gcd_le_right _ (Int.natAbs_pos.2 hd0)) hd
    have hng : (n.tdiv (n.gcd d)).natAbs < 2 ^ 127 :=
      Nat.lt_of_le_of_lt (Int.natAbs_tdiv_le_natAbs ..) hn
    have hdg : (d.tdiv (n.gcd d)).natAbs < 2 ^ 127 :=
      Nat.lt_of_le_of_lt (Int.natAbs_tdiv_le_natAbs ..) hd
    rw [inRegister?_eq (by rwa [Int.natAbs_natCast])]
    simp only [Option.bind_eq_bind, Option.bind_some, inRegister?_eq hng, inRegister?_eq hdg,
      orient?_eq hng hdg, orient_tdiv_gcd n hd0]
    rw [ofQuotient_eq_ofRat, fields_ofRat]

/-! ## Operations -/

/-- The fields of a sum or difference of two values, computed in registers. -/
def combineInRegisters? (combine : Int → Int → Int) (a b : Rational) : Option (Int × Int) := do
  let x ← inRegister? (a.num * b.den)
  let y ← inRegister? (b.num * a.den)
  let n ← inRegister? (combine x y)
  let d ← inRegister? (a.den * b.den)
  reduce? n d

/-- The fields of a product of two fractions, computed in registers. -/
def multiplyInRegisters? (n₁ d₁ n₂ d₂ : Int) : Option (Int × Int) := do
  let n ← inRegister? (n₁ * n₂)
  let d ← inRegister? (d₁ * d₂)
  reduce? n d

/-- The fields of a remainder, computed in registers; the division that it comes from has to fit as
well. -/
def modInRegisters? (a b : Rational) : Option (Int × Int) :=
  if b.num = 0 then some (0, 1)
  else do
    let p ← inRegister? (a.num * b.den)
    let q ← inRegister? (a.den * b.num)
    let _ ← inRegister? (p.tdiv q)
    let n ← inRegister? (p.tmod q)
    let d ← inRegister? (a.den * b.den)
    reduce? n d

/-- The fields of a negation, computed in registers. -/
def negInRegisters? (a : Rational) : Option (Int × Int) := do
  let n ← inRegister? (-a.num)
  reduce? n a.den

end Rational

/-- The fields of the result of an operation, computed in registers. -/
def BinOp.inRegisters? : BinOp → Rational → Rational → Option (Int × Int)
  | add, a, b => Rational.combineInRegisters? (· + ·) a b
  | sub, a, b => Rational.combineInRegisters? (· - ·) a b
  | mul, a, b => Rational.multiplyInRegisters? a.num a.den b.num b.den
  | div, a, b => Rational.multiplyInRegisters? a.num a.den b.den b.num
  | mod, a, b => Rational.modInRegisters? a b

namespace Rational

variable (a b : Rational)

/-! ## No operation leaves its registers -/

theorem natAbs_num_le : a.num.natAbs ≤ 2 ^ 63 := by
  have := a.num_fits
  unfold Text.FitsInt64 at this
  omega

theorem natAbs_den_le : (a.den : Int).natAbs ≤ 2 ^ 63 - 1 := by
  have := a.den_lt
  omega

theorem natAbs_mul_le {m n : Int} {k l : Nat} (hm : m.natAbs ≤ k) (hn : n.natAbs ≤ l) :
    (m * n).natAbs ≤ k * l := by
  rw [Int.natAbs_mul]
  exact Nat.mul_le_mul hm hn

theorem natAbs_num_mul_den_le : (a.num * b.den).natAbs ≤ 2 ^ 63 * (2 ^ 63 - 1) :=
  natAbs_mul_le a.natAbs_num_le b.natAbs_den_le

theorem natAbs_den_mul_den_lt : ((a.den : Int) * b.den).natAbs < 2 ^ 127 :=
  Nat.lt_of_le_of_lt (natAbs_mul_le a.natAbs_den_le b.natAbs_den_le) (by decide)

theorem multiplyInRegisters?_eq {n₁ d₁ n₂ d₂ : Int} (hn₁ : n₁.natAbs ≤ 2 ^ 63)
    (hd₁ : d₁.natAbs ≤ 2 ^ 63) (hn₂ : n₂.natAbs ≤ 2 ^ 63) (hd₂ : d₂.natAbs ≤ 2 ^ 63) :
    multiplyInRegisters? n₁ d₁ n₂ d₂ = some (ofQuotient (n₁ * n₂) (d₁ * d₂)).fields := by
  have hn : (n₁ * n₂).natAbs < 2 ^ 127 :=
    Nat.lt_of_le_of_lt (natAbs_mul_le hn₁ hn₂) (by decide)
  have hd : (d₁ * d₂).natAbs < 2 ^ 127 :=
    Nat.lt_of_le_of_lt (natAbs_mul_le hd₁ hd₂) (by decide)
  simp only [multiplyInRegisters?, Option.bind_eq_bind, Option.bind_some, inRegister?_eq hn,
    inRegister?_eq hd, reduce?_eq hn hd]

theorem combineInRegisters?_eq {combine : Int → Int → Int}
    (h : ∀ x y, (combine x y).natAbs ≤ x.natAbs + y.natAbs) :
    combineInRegisters? combine a b
      = some (ofQuotient (combine (a.num * b.den) (b.num * a.den)) (a.den * b.den)).fields := by
  have hx := natAbs_num_mul_den_le a b
  have hy := natAbs_num_mul_den_le b a
  -- Each product stays below 2^126 by enough for two of them to stay below 2^127.
  have hn : (combine (a.num * b.den) (b.num * a.den)).natAbs < 2 ^ 127 := by
    have := h (a.num * b.den) (b.num * a.den)
    omega
  have hd := natAbs_den_mul_den_lt a b
  simp only [combineInRegisters?, Option.bind_eq_bind, Option.bind_some,
    inRegister?_eq (Nat.lt_of_le_of_lt hx (by decide)),
    inRegister?_eq (Nat.lt_of_le_of_lt hy (by decide)), inRegister?_eq hn, inRegister?_eq hd,
    reduce?_eq hn hd]

theorem modInRegisters?_eq : modInRegisters? a b = some (a % b).fields := by
  rw [mod_eq]
  unfold modInRegisters?
  split
  · rfl
  · have hp : (a.num * b.den).natAbs < 2 ^ 127 :=
      Nat.lt_of_le_of_lt (natAbs_num_mul_den_le a b) (by decide)
    have hq : ((a.den : Int) * b.num).natAbs < 2 ^ 127 := by
      rw [Int.mul_comm]
      exact Nat.lt_of_le_of_lt (natAbs_num_mul_den_le b a) (by decide)
    have hdiv : ((a.num * b.den).tdiv (a.den * b.num)).natAbs < 2 ^ 127 :=
      Nat.lt_of_le_of_lt (Int.natAbs_tdiv_le_natAbs ..) hp
    have hmod : ((a.num * b.den).tmod (a.den * b.num)).natAbs < 2 ^ 127 := by
      rw [Int.natAbs_tmod]
      exact Nat.lt_of_le_of_lt (Nat.mod_le ..) hp
    have hd := natAbs_den_mul_den_lt a b
    simp only [Option.bind_eq_bind, Option.bind_some, inRegister?_eq hp, inRegister?_eq hq,
      inRegister?_eq hdiv, inRegister?_eq hmod, inRegister?_eq hd, reduce?_eq hmod hd]

theorem negInRegisters?_eq : negInRegisters? a = some (-a).fields := by
  have hn : (-a.num).natAbs < 2 ^ 127 := by
    rw [Int.natAbs_neg]
    exact Nat.lt_of_le_of_lt a.natAbs_num_le (by decide)
  have hd : (a.den : Int).natAbs < 2 ^ 127 := Nat.lt_of_le_of_lt a.natAbs_den_le (by decide)
  simp only [negInRegisters?, Option.bind_eq_bind, Option.bind_some, inRegister?_eq hn,
    reduce?_eq hn hd]
  rfl

end Rational

/-- **An operation stays within its registers**, and gives its value there. -/
theorem BinOp.inRegisters?_eq (op : BinOp) (a b : Rational) :
    op.inRegisters? a b = some (op.apply a b).fields := by
  have hden (r : Rational) : (r.den : Int).natAbs ≤ 2 ^ 63 :=
    Nat.le_trans r.natAbs_den_le (by decide)
  cases op with
  | add => exact a.combineInRegisters?_eq b fun x y => by omega
  | sub => exact a.combineInRegisters?_eq b fun x y => by omega
  | mul =>
    exact Rational.multiplyInRegisters?_eq a.natAbs_num_le (hden a) b.natAbs_num_le (hden b)
  | div =>
    exact Rational.multiplyInRegisters?_eq a.natAbs_num_le (hden a) (hden b) b.natAbs_num_le
  | mod => exact a.modInRegisters?_eq b

namespace Rational

/-- **Arithmetic is exact up to absorption, and 128 bits are enough for it.** Every operation on
values, the negation and every quotient of words give the value of the exact result, and their
fields are computed without leaving the registers. -/
theorem arithmetic_exact :
    (∀ (op : BinOp) (a b : Rational),
      op.apply a b = ofRat (op.exact a.toRat b.toRat) ∧
        op.inRegisters? a b = some (op.apply a b).fields) ∧
    (∀ a : Rational, -a = ofRat (-a.toRat) ∧ negInRegisters? a = some (-a).fields) ∧
    ∀ n d : Int64, ofQuotient n.toInt d.toInt = ofRat (n.toInt / d.toInt) ∧
      reduce? n.toInt d.toInt = some (ofQuotient n.toInt d.toInt).fields := by
  have hword (n : Int64) : n.toInt.natAbs < 2 ^ 127 := by
    have := n.le_toInt
    have := n.toInt_lt
    omega
  refine ⟨fun op a b => ⟨op.apply_eq_ofRat a b, op.inRegisters?_eq a b⟩,
    fun a => ⟨a.neg_eq_ofRat, a.negInRegisters?_eq⟩, fun n d => ⟨?_, ?_⟩⟩
  · exact ofQuotient_eq_ofRat n.toInt d.toInt
  · exact reduce?_eq (hword n) (hword d)

end Rational

end StackSeq
