/-!
# Numerals

An integer literal is an optional sign and one or more ASCII digits; leading zeros are allowed.
A minus sign is part of signed literals only, a plus sign of both kinds. `natural?_toDigits` says
that the decimal digits of a number read back as that number.

Hexadecimal digits are `0`–`9`, `a`–`f` and, in reading, `A`–`F`.
-/

namespace StackSeq.Text

/-! ## Integer literals -/

/-- The value of a non-empty run of ASCII digits. -/
def natural? (cs : List Char) : Option Nat :=
  if !cs.isEmpty && cs.all Char.isDigit then some (Nat.ofDigitChars 10 cs 0) else none

/-- The value of a literal that may start with a plus sign. -/
def unsigned? : List Char → Option Nat
  | '+' :: cs => natural? cs
  | cs => natural? cs

/-- The value of a literal that may start with either sign. -/
def signed? : List Char → Option Int
  | '-' :: cs => (natural? cs).map fun n => -(n : Int)
  | cs => (unsigned? cs).map Int.ofNat

/-- The literal's value as a 64-bit word, if it is one and fits. -/
def word? (cs : List Char) : Option UInt64 :=
  (unsigned? cs).bind fun n => if n < 0x1_0000_0000_0000_0000 then some (UInt64.ofNat n) else none

/-- The value of a literal with any sign as a 32-bit word, if it fits; minus zero does. -/
def halfWord? (cs : List Char) : Option UInt32 :=
  (signed? cs).bind fun n => if 0 ≤ n ∧ n < 0x1_0000_0000 then some (UInt32.ofNat n.toNat) else none

/-- The range of signed 64-bit integers. -/
def FitsInt64 (n : Int) : Prop :=
  -0x8000_0000_0000_0000 ≤ n ∧ n < 0x8000_0000_0000_0000

instance (n : Int) : Decidable (FitsInt64 n) :=
  inferInstanceAs (Decidable (_ ∧ _))

/-- A number counted with signed 64-bit integers: out of their range it comes out shifted by a
multiple of `2 ^ 64`. -/
def wrapInt64 (n : Int) : Int := n.bmod 0x1_0000_0000_0000_0000

theorem wrapInt64_of_fits {n : Int} (h : FitsInt64 n) : wrapInt64 n = n := by
  obtain ⟨hlo, hhi⟩ := h
  exact Int.bmod_eq_of_le_mul_two (by omega) (by omega)

theorem wrapInt64_neg {n : Int} (hlo : 0x8000_0000_0000_0000 ≤ n)
    (hhi : n < 0x1_0000_0000_0000_0000) : wrapInt64 n < 0 := by
  have hmod : n % (0x1_0000_0000_0000_0000 : Nat) = n := Int.emod_eq_of_lt (by omega) hhi
  rw [wrapInt64, Int.bmod, hmod, if_neg (by omega)]
  omega

/-- The literal's value as a signed 64-bit integer, if it is one and fits. -/
def int64? (cs : List Char) : Option Int64 :=
  (signed? cs).bind fun n => if FitsInt64 n then some (Int64.ofInt n) else none

/-- The decimal digits of a number read back as the number. -/
theorem natural?_toDigits (n : Nat) : natural? (Nat.toDigits 10 n) = some n := by
  have digits : (Nat.toDigits 10 n).all Char.isDigit = true :=
    List.all_eq_true.2 fun c hc => Nat.isDigit_of_mem_toDigits (by decide) (by decide) hc
  have nonempty : (Nat.toDigits 10 n).isEmpty = false := by
    simp [Nat.toDigits_ne_nil]
  simp [natural?, digits, nonempty, Nat.ofDigitChars_ten_toDigits]

/-! ## Hexadecimal digits -/

/-- The value of a hexadecimal digit of either case. -/
def hexValue? (c : Char) : Option Nat :=
  let n := c.toNat
  if 0x30 ≤ n ∧ n ≤ 0x39 then some (n - 0x30)
  else if 0x61 ≤ n ∧ n ≤ 0x66 then some (n - 0x61 + 10)
  else if 0x41 ≤ n ∧ n ≤ 0x46 then some (n - 0x41 + 10)
  else none

theorem hexValue?_digitChar {d : Nat} (h : d < 16) : hexValue? d.digitChar = some d := by
  have all : ∀ e ∈ List.range 16, hexValue? e.digitChar = some e := by decide
  exact all d (List.mem_range.2 h)

theorem hexValue?_lt {c : Char} {d : Nat} (h : hexValue? c = some d) : d < 16 := by
  simp only [hexValue?] at h
  split at h
  · cases h; omega
  · split at h
    · cases h; omega
    · split at h
      · cases h; omega
      · exact absurd h (by simp)

end StackSeq.Text
