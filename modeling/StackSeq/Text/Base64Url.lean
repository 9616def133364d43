/-!
# Base64 for URLs, without padding

Three bytes are written as four digits of six bits over the alphabet `A`–`Z`, `a`–`z`, `0`–`9`,
`-`, `_`; one or two bytes at the end take two or three digits, and the bits they leave over are
zero. Reading is strict: padding characters, other alphabets, a single digit at the end and
non-zero left-over bits are refused, so each byte list has one written form.

Both directions recurse on the data in groups, without an index. `decode?_encode` is the law.
-/

namespace StackSeq.Text.Base64Url

/-! ## Digits -/

/-- The character of a digit below 64. -/
def digitChar (d : Nat) : Char :=
  if d < 26 then Char.ofNat (0x41 + d)
  else if d < 52 then Char.ofNat (0x61 + (d - 26))
  else if d < 62 then Char.ofNat (0x30 + (d - 52))
  else if d = 62 then '-' else '_'

/-- The digit that a character stands for. -/
def digitValue? (c : Char) : Option Nat :=
  let n := c.toNat
  if 0x41 ≤ n ∧ n ≤ 0x5A then some (n - 0x41)
  else if 0x61 ≤ n ∧ n ≤ 0x7A then some (n - 0x61 + 26)
  else if 0x30 ≤ n ∧ n ≤ 0x39 then some (n - 0x30 + 52)
  else if c = '-' then some 62
  else if c = '_' then some 63
  else none

theorem digitValue?_digitChar {d : Nat} (h : d < 64) : digitValue? (digitChar d) = some d := by
  have all : ∀ e ∈ List.range 64, digitValue? (digitChar e) = some e := by decide
  exact all d (List.mem_range.2 h)

/-! ## Bytes to digits and back -/

/-- The digits of a byte list. -/
def toDigits : List UInt8 → List Nat
  | [] => []
  | [a] => [a.toNat / 4, a.toNat % 4 * 16]
  | [a, b] => [a.toNat / 4, a.toNat % 4 * 16 + b.toNat / 16, b.toNat % 16 * 4]
  | a :: b :: c :: rest =>
    a.toNat / 4 :: (a.toNat % 4 * 16 + b.toNat / 16) :: (b.toNat % 16 * 4 + c.toNat / 64)
      :: c.toNat % 64 :: toDigits rest

/-- The bytes of a digit list, if it is the digits of some. -/
def ofDigits? : List Nat → Option (List UInt8)
  | [] => some []
  | [_] => none
  | [p, q] => if q % 16 = 0 then some [.ofNat (p * 4 + q / 16)] else none
  | [p, q, r] =>
    if r % 4 = 0 then some [.ofNat (p * 4 + q / 16), .ofNat (q % 16 * 16 + r / 4)] else none
  | p :: q :: r :: s :: rest =>
    (ofDigits? rest).map fun bytes =>
      .ofNat (p * 4 + q / 16) :: .ofNat (q % 16 * 16 + r / 4) :: .ofNat (r % 4 * 64 + s) :: bytes

/-- The written form of a byte list. -/
def encode (bytes : List UInt8) : List Char :=
  (toDigits bytes).map digitChar

/-- The byte list with this written form, if there is one. -/
def decode? (cs : List Char) : Option (List UInt8) :=
  (cs.mapM digitValue?).bind ofDigits?

/-! ## Reading what was written -/

theorem lt_of_mem_toDigits {bytes : List UInt8} {d : Nat} (h : d ∈ toDigits bytes) : d < 64 := by
  fun_induction toDigits bytes with
  | case1 => simp at h
  | case2 a =>
    have := a.toNat_lt
    simp only [List.mem_cons, List.not_mem_nil, or_false] at h
    omega
  | case3 a b =>
    have := a.toNat_lt
    have := b.toNat_lt
    simp only [List.mem_cons, List.not_mem_nil, or_false] at h
    omega
  | case4 a b c rest ih =>
    have := a.toNat_lt
    have := b.toNat_lt
    have := c.toNat_lt
    simp only [List.mem_cons] at h
    rcases h with h | h | h | h | h
    · omega
    · omega
    · omega
    · omega
    · exact ih h

theorem ofDigits?_toDigits (bytes : List UInt8) : ofDigits? (toDigits bytes) = some bytes := by
  fun_induction toDigits bytes with
  | case1 => rfl
  | case2 a =>
    have ha := a.toNat_lt
    have first : a.toNat / 4 * 4 + a.toNat % 4 * 16 / 16 = a.toNat := by omega
    simp only [ofDigits?, first, UInt8.ofNat_toNat]
    simp
  | case3 a b =>
    have hb := b.toNat_lt
    have first : a.toNat / 4 * 4 + (a.toNat % 4 * 16 + b.toNat / 16) / 16 = a.toNat := by omega
    have second : (a.toNat % 4 * 16 + b.toNat / 16) % 16 * 16 + b.toNat % 16 * 4 / 4 = b.toNat := by
      omega
    simp only [ofDigits?, first, second, UInt8.ofNat_toNat]
    simp
  | case4 a b c rest ih =>
    have hb := b.toNat_lt
    have hc := c.toNat_lt
    have first : a.toNat / 4 * 4 + (a.toNat % 4 * 16 + b.toNat / 16) / 16 = a.toNat := by omega
    have second : (a.toNat % 4 * 16 + b.toNat / 16) % 16 * 16
        + (b.toNat % 16 * 4 + c.toNat / 64) / 4 = b.toNat := by omega
    have third : (b.toNat % 16 * 4 + c.toNat / 64) % 4 * 64 + c.toNat % 64 = c.toNat := by omega
    simp only [ofDigits?, ih, first, second, third, UInt8.ofNat_toNat, Option.map_some]

/-- The written form of a byte list reads back as that list. -/
theorem decode?_encode (bytes : List UInt8) : decode? (encode bytes) = some bytes := by
  have digits : ∀ ds : List Nat, (∀ d ∈ ds, d < 64) →
      (ds.map digitChar).mapM digitValue? = some ds := by
    intro ds
    induction ds with
    | nil => intro _; rfl
    | cons d ds ih =>
      intro h
      rw [List.map_cons, List.mapM_cons, digitValue?_digitChar (h d (by simp)),
        ih fun e he => h e (by simp [he])]
      rfl
  rw [decode?, encode, digits _ fun d hd => lt_of_mem_toDigits hd]
  exact ofDigits?_toDigits bytes

end StackSeq.Text.Base64Url
