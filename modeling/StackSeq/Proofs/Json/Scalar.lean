import StackSeq.Json.Reader
import StackSeq.Proofs.Text.Decimal

/-!
# Written scalars

The reader gets a number and a string back from what is written for them, and leaves the text after
it. A number ends where no digit, point or exponent follows (`EndsNumber`); a string ends with its
closing quote, whatever follows, since within it every quote is escaped (`readString_quote`).
-/

namespace StackSeq.Json

variable {rest tail : List Char}

/-! ## Numbers -/

/-- Nothing at the start of the text goes on with a number in front of it. -/
def EndsNumber (rest : List Char) : Prop :=
  ∀ c ∈ rest.head?, c.isDigit = false ∧ c ≠ '.' ∧ c ≠ 'e' ∧ c ≠ 'E'

theorem endsNumber_nil : EndsNumber [] := fun _ h => by cases h

theorem endsNumber_cons {c : Char} (h : c.isDigit = false ∧ c ≠ '.' ∧ c ≠ 'e' ∧ c ≠ 'E')
    (rest : List Char) : EndsNumber (c :: rest) := by
  rintro d ⟨⟩
  exact h

theorem spanDigits_append {digits : List Char} (h : ∀ c ∈ digits, c.isDigit = true)
    (hrest : ∀ c ∈ rest.head?, c.isDigit = false) :
    spanDigits (digits ++ rest) = (digits, rest) := by
  rw [spanDigits, List.takeWhile_append_of_pos h, List.dropWhile_append_of_pos h]
  cases rest with
  | nil => simp
  | cons c rest =>
    have hc : ¬c.isDigit = true := by simp [hrest c rfl]
    rw [List.takeWhile_cons_of_neg hc, List.dropWhile_cons_of_neg hc, List.append_nil]

theorem readWhole_toDigits (n : Nat) (hrest : ∀ c ∈ rest.head?, c.isDigit = false) :
    readWhole (Nat.toDigits 10 n ++ rest) = some (Nat.toDigits 10 n, rest) := by
  rw [readWhole, spanDigits_append (fun c => Text.isDigit_of_mem_toDigits) hrest]
  by_cases h0 : n = 0
  · rw [h0]
    rfl
  · obtain ⟨d, ds, h, -⟩ := Text.exists_toDigits_eq_cons n
    have hd : d ≠ '0' := by
      rintro rfl
      exact Text.toDigits_ne_zero_cons (by decide) (by decide) h0 ds h
    rw [h]
    split
    · next heq => cases heq
    · next heq => exact absurd (List.cons.inj (Prod.mk.inj heq).1).1 hd
    · next heq => rw [← heq]

theorem readExponentDigits_toDigits (negative : Bool) (n : Nat)
    (hrest : ∀ c ∈ rest.head?, c.isDigit = false) :
    readExponentDigits negative (Nat.toDigits 10 n ++ rest)
      = some (if negative then -(n : Int) else n, rest) := by
  rw [readExponentDigits, spanDigits_append (fun c => Text.isDigit_of_mem_toDigits) hrest]
  obtain ⟨d, ds, h, -⟩ := Text.exists_toDigits_eq_cons n
  have hvalue : Nat.ofDigitChars 10 (d :: ds) 0 = n := h ▸ Nat.ofDigitChars_ten_toDigits
  rw [h]
  simp only [hvalue]

/-- An exponent is read as it is written. -/
theorem readExponent_toString (n : Int) (hrest : ∀ c ∈ rest.head?, c.isDigit = false) :
    readExponent ('e' :: ((toString n).toList ++ rest)) = some (some n, rest) := by
  rw [Text.toList_toString]
  split
  · next hneg =>
    have hvalue : -(n.natAbs : Int) = n := by omega
    have hread := readExponentDigits_toDigits true n.natAbs hrest
    rw [if_pos rfl, hvalue] at hread
    rw [List.cons_append, readExponent, if_pos (.inl rfl), hread]
    rfl
  · next hpos =>
    have hvalue : (n.natAbs : Int) = n := Int.natAbs_of_nonneg (Int.not_lt.1 hpos)
    obtain ⟨d, ds, h, hd⟩ := Text.exists_toDigits_eq_cons n.natAbs
    have hplus : d ≠ '+' := Text.ne_of_isDigit hd (by decide)
    have hminus : d ≠ '-' := Text.ne_of_isDigit hd (by decide)
    have hread := readExponentDigits_toDigits false n.natAbs hrest
    rw [h] at hread ⊢
    rw [readExponent, if_pos (.inl rfl), hread, hvalue]
    · rfl
    · exact fun cs heq => hplus (List.cons.inj heq).1
    · exact fun cs heq => hminus (List.cons.inj heq).1

theorem readExponent_of_endsNumber (hrest : EndsNumber rest) :
    readExponent rest = some (none, rest) := by
  cases rest with
  | nil => rfl
  | cons c rest =>
    obtain ⟨-, -, he, hE⟩ := hrest c rfl
    unfold readExponent
    exact if_neg (not_or.2 ⟨he, hE⟩)

theorem readFraction_of_ne (h : ∀ c ∈ rest.head?, c ≠ '.') :
    readFraction rest = some ([], rest) := by
  unfold readFraction
  split
  · exact absurd rfl (h _ rfl)
  · rfl

/-- Digits without a point are read up to what is left by the exponent after them. -/
theorem readMagnitude_toDigits {exponent : Option Int} (negative : Bool) (n : Nat)
    (htail : ∀ c ∈ tail.head?, c.isDigit = false ∧ c ≠ '.')
    (h : readExponent tail = some (exponent, rest)) :
    readMagnitude negative (Nat.toDigits 10 n ++ tail)
      = some (ofNumberParts negative (Nat.toDigits 10 n) [] exponent, rest) := by
  have hwhole := readWhole_toDigits n fun c hc => (htail c hc).1
  have hfraction := readFraction_of_ne fun c hc => (htail c hc).2
  simp only [readMagnitude, hwhole, hfraction, h, Option.bind_eq_bind, Option.bind_some]

theorem readNumber_toString {exponent : Option Int} (n : Int)
    (htail : ∀ c ∈ tail.head?, c.isDigit = false ∧ c ≠ '.')
    (h : readExponent tail = some (exponent, rest)) :
    readNumber ((toString n).toList ++ tail)
      = some (ofNumberParts (decide (n < 0)) (Nat.toDigits 10 n.natAbs) [] exponent, rest) := by
  rw [Text.toList_toString]
  split
  · next hneg =>
    rw [decide_eq_true hneg, ← readMagnitude_toDigits true n.natAbs htail h]
    rfl
  · next hpos =>
    obtain ⟨d, ds, hdigits, hd⟩ := Text.exists_toDigits_eq_cons n.natAbs
    have hminus : d ≠ '-' := Text.ne_of_isDigit hd (by decide)
    rw [decide_eq_false hpos, ← readMagnitude_toDigits false n.natAbs htail h, hdigits]
    unfold readNumber
    split
    · next heq => exact absurd (List.cons.inj heq).1 hminus
    · rfl

/-- The parts of an integer make it. -/
theorem ofNumberParts_int (n : Int) :
    ofNumberParts (decide (n < 0)) (Nat.toDigits 10 n.natAbs) [] none = .int n := by
  unfold ofNumberParts
  rw [List.append_nil, Nat.ofDigitChars_ten_toDigits]
  by_cases hneg : n < 0
  · have hzero : ¬n.natAbs = 0 := by omega
    have hvalue : -(n.natAbs : Int) = n := by omega
    simp only [hneg, hzero, hvalue, decide_true, and_false, not_false_eq_true, and_self, if_true]
  · have hvalue : (n.natAbs : Int) = n := Int.natAbs_of_nonneg (Int.not_lt.1 hneg)
    simp [hneg, hvalue]

theorem ofNumberParts_decimal (mantissa exponent : Int) :
    ofNumberParts (decide (mantissa < 0)) (Nat.toDigits 10 mantissa.natAbs) [] (some exponent)
      = .decimal mantissa exponent := by
  unfold ofNumberParts
  rw [List.append_nil, Nat.ofDigitChars_ten_toDigits]
  by_cases hneg : mantissa < 0
  · have hvalue : -(mantissa.natAbs : Int) = mantissa := by omega
    simp only [hneg, hvalue]
    simp
  · have hvalue : (mantissa.natAbs : Int) = mantissa := Int.natAbs_of_nonneg (Int.not_lt.1 hneg)
    simp [hneg, hvalue]

/-- **A written integer is read as itself**, -/
theorem readNumber_int (n : Int) (hrest : EndsNumber rest) :
    readNumber ((toString n).toList ++ rest) = some (.int n, rest) := by
  rw [readNumber_toString n (fun c hc => ⟨(hrest c hc).1, (hrest c hc).2.1⟩)
    (readExponent_of_endsNumber hrest), ofNumberParts_int]

/-- **and so is a number with an exponent.** -/
theorem readNumber_decimal (mantissa exponent : Int) (hrest : EndsNumber rest) :
    readNumber ((toString mantissa ++ "e" ++ toString exponent).toList ++ rest)
      = some (.decimal mantissa exponent, rest) := by
  have htext : (toString mantissa ++ "e" ++ toString exponent).toList ++ rest
      = (toString mantissa).toList ++ ('e' :: ((toString exponent).toList ++ rest)) := by
    simp
  have htail : ∀ c ∈ ('e' :: ((toString exponent).toList ++ rest)).head?,
      c.isDigit = false ∧ c ≠ '.' := by
    rintro c ⟨⟩
    decide
  rw [htext, readNumber_toString mantissa htail
    (readExponent_toString exponent fun c hc => (hrest c hc).1), ofNumberParts_decimal]

/-! ## Strings -/

/-- What is read of a string after a code of it. -/
def consUnit (unit : Nat) (read : Option (List Nat × List Char)) : Option (List Nat × List Char) :=
  read.map fun p => (unit :: p.1, p.2)

theorem readUnits_closing (cs : List Char) : readUnits ('\x22' :: cs) = some ([], cs) := by
  rw [readUnits.eq_def]
  rfl

theorem readUnits_plain {c : Char} (hquote : c ≠ '\x22') (hbackslash : c ≠ '\\')
    (hcontrol : ¬c.toNat < 0x20) (cs : List Char) :
    readUnits (c :: cs) = consUnit c.toNat (readUnits cs) := by
  rw [readUnits.eq_def]
  simp only [if_neg hquote, if_neg hbackslash, if_neg hcontrol]
  cases readUnits cs with
  | none => rfl
  | some p => rfl

theorem readUnits_simple {e : Char} {unit : Nat} (h : simpleEscape? e = some unit) (hu : e ≠ 'u')
    (cs : List Char) : readUnits ('\\' :: e :: cs) = consUnit unit (readUnits cs) := by
  rw [readUnits.eq_def]
  dsimp only
  rw [if_neg (by decide), if_pos rfl]
  split
  · next heq => exact absurd (List.cons.inj heq).1 hu
  · next heq =>
    obtain ⟨rfl, rfl⟩ := List.cons.inj heq
    rw [h]
    cases readUnits cs with
    | none => rfl
    | some p => rfl
  · next heq => cases heq

theorem readUnits_hex {h₁ h₂ h₃ h₄ : Char} {unit : Nat} (h : hexUnit? h₁ h₂ h₃ h₄ = some unit)
    (cs : List Char) :
    readUnits ('\\' :: 'u' :: h₁ :: h₂ :: h₃ :: h₄ :: cs) = consUnit unit (readUnits cs) := by
  rw [readUnits.eq_def]
  dsimp only
  rw [if_neg (by decide), if_pos rfl]
  simp only [h]
  cases readUnits cs with
  | none => rfl
  | some p => rfl

theorem hexUnit?_digitChar {n : Nat} (h : n < 0x100) :
    hexUnit? '0' '0' (n / 16).digitChar (n % 16).digitChar = some n := by
  have hzero : Text.hexValue? '0' = some 0 := by decide
  have hvalue : ((0 * 16 + 0) * 16 + n / 16) * 16 + n % 16 = n := by omega
  rw [hexUnit?, hzero, Text.hexValue?_digitChar (Nat.div_lt_of_lt_mul h),
    Text.hexValue?_digitChar (Nat.mod_lt n (by decide))]
  exact congrArg some hvalue

/-- A written character is read as its code. -/
theorem readUnits_escapeChar (c : Char) (cs : List Char) :
    readUnits (escapeChar c ++ cs) = consUnit c.toNat (readUnits cs) := by
  unfold escapeChar
  split
  · next h => exact h ▸ readUnits_simple (e := '\x22') rfl (by decide) cs
  split
  · next h => exact h ▸ readUnits_simple (e := '\\') rfl (by decide) cs
  split
  · next h => exact h ▸ readUnits_simple (e := 'b') rfl (by decide) cs
  split
  · next h => exact h ▸ readUnits_simple (e := 't') rfl (by decide) cs
  split
  · next h => exact h ▸ readUnits_simple (e := 'n') rfl (by decide) cs
  split
  · next h => exact h ▸ readUnits_simple (e := 'f') rfl (by decide) cs
  split
  · next h => exact h ▸ readUnits_simple (e := 'r') rfl (by decide) cs
  split
  · next h => exact readUnits_hex (hexUnit?_digitChar (Nat.lt_trans h (by decide))) cs
  · next hquote hbackslash _ _ _ _ _ hcontrol => exact readUnits_plain hquote hbackslash hcontrol cs

theorem readUnits_flatMap (cs : List Char) :
    readUnits (cs.flatMap escapeChar ++ '\x22' :: rest) = some (cs.map Char.toNat, rest) := by
  induction cs with
  | nil =>
    exact readUnits_closing rest
  | cons c cs ih =>
    rw [List.flatMap_cons, List.append_assoc, readUnits_escapeChar, ih]
    rfl

/-- No character has the code of half a pair. -/
theorem toNat_lt_or_le (c : Char) : c.toNat < 0xD800 ∨ 0xE000 ≤ c.toNat :=
  c.valid.imp id And.left

/-- Characters are put together from their codes. -/
theorem charsOfUnits_map_toNat (cs : List Char) : charsOfUnits (cs.map Char.toNat) = some cs := by
  induction cs with
  | nil => rfl
  | cons c cs ih =>
    rw [List.map_cons, charsOfUnits.eq_def]
    dsimp only
    have hc := toNat_lt_or_le c
    have hleading : ¬isLeadingHalf c.toNat = true := by
      rw [isLeadingHalf, decide_eq_true_iff]
      omega
    have htrailing : ¬isTrailingHalf c.toNat = true := by
      rw [isTrailingHalf, decide_eq_true_iff]
      omega
    rw [if_neg hleading, if_neg htrailing, ih, Char.ofNat_toNat]
    rfl

/-- **A written string is read as itself.** -/
theorem readString_quote (s : String) :
    readString (s.toList.flatMap escapeChar ++ '\x22' :: rest) = some (some s, rest) := by
  rw [readString, readUnits_flatMap, Option.map_some]
  simp only [charsOfUnits_map_toNat, Option.map_some, String.ofList_toList]

end StackSeq.Json
