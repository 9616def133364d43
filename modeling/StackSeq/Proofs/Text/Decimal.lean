import StackSeq.Text.Pieces
import StackSeq.Text.Numeral

/-!
# Decimal numbers

How numbers are written and that they read back: the text of an integer is its decimal digits behind
a minus sign if it is negative (`toList_toString`), and reading it as a literal gives the integer
(`signed?_toString`, `int64?_toString`, `word?_toString`).
-/

namespace StackSeq.Text

/-! ## Digits -/

theorem isDigit_of_mem_toDigits {n : Nat} {c : Char} (h : c ∈ Nat.toDigits 10 n) :
    c.isDigit = true :=
  Nat.isDigit_of_mem_toDigits (by decide) (by decide) h

/-- Signs are no digits. -/
theorem ne_of_isDigit {c d : Char} (hc : c.isDigit = true) (hd : d.isDigit = false) : c ≠ d := by
  rintro rfl
  rw [hc] at hd
  cases hd

theorem ne_of_isDigit_or_eq_minus {c d : Char} (hc : c.isDigit = true ∨ c = '-')
    (hd : d.isDigit = false) (hminus : d ≠ '-') : c ≠ d := by
  rcases hc with hc | rfl
  · exact ne_of_isDigit hc hd
  · exact hminus.symm

theorem isBlank_of_isDigit {c : Char} (h : c.isDigit = true) : isBlank c = false := by
  have hrange : 48 ≤ c.toNat ∧ c.toNat ≤ 57 := by
    simpa [Char.isDigit, UInt32.le_iff_toNat_le] using h
  simp only [isBlank, Bool.or_eq_false_iff, Bool.and_eq_false_iff, beq_eq_false_iff_ne,
    decide_eq_false_iff_not]
  omega

/-- A number has a first digit. -/
theorem exists_toDigits_eq_cons (n : Nat) :
    ∃ d ds, Nat.toDigits 10 n = d :: ds ∧ d.isDigit = true := by
  cases h : Nat.toDigits 10 n with
  | nil => exact absurd h Nat.toDigits_ne_nil
  | cons d ds => exact ⟨d, ds, rfl, isDigit_of_mem_toDigits (h ▸ List.mem_cons_self)⟩

/-- Only zero starts with a zero. -/
theorem toDigits_ne_zero_cons {base n : Nat} (hbase : 1 < base) (hle : base ≤ 16) (h : n ≠ 0)
    (ds : List Char) : Nat.toDigits base n ≠ '0' :: ds := by
  induction n using Nat.strongRecOn generalizing ds with
  | ind n ih =>
    rcases Nat.lt_or_ge n base with hlt | hge
    · have hall : ∀ m ∈ List.range 16, m ≠ 0 → m.digitChar ≠ '0' := by decide
      rw [Nat.toDigits_of_lt_base hlt]
      exact fun heq => hall n (List.mem_range.2 (Nat.lt_of_lt_of_le hlt hle)) h
        (List.cons.inj heq).1
    · -- The first digit is that of the number without its last digit.
      obtain ⟨d, ds', hfirst⟩ := List.exists_cons_of_ne_nil
        (Nat.toDigits_ne_nil : Nat.toDigits base (n / base) ≠ [])
      have hrest : n / base ≠ 0 := Nat.ne_of_gt (Nat.div_pos hge (by omega))
      have hd : d ≠ '0' := by
        rintro rfl
        exact ih (n / base) (Nat.div_lt_self (Nat.pos_of_ne_zero h) hbase) hrest ds' hfirst
      rw [Nat.toDigits_of_base_le hbase hge, hfirst]
      exact fun heq => hd (List.cons.inj heq).1

/-! ## Numbers -/

/-- The text of an integer. -/
theorem toList_toString (n : Int) :
    (toString n).toList
      = if n < 0 then '-' :: Nat.toDigits 10 n.natAbs else Nat.toDigits 10 n.natAbs := by
  cases n with
  | ofNat n =>
    have hn : ¬Int.ofNat n < 0 := Int.not_lt.2 (Int.natCast_nonneg n)
    rw [if_neg hn]
    exact String.toList_ofList
  | negSucc n =>
    rw [if_pos (Int.negSucc_lt_zero n)]
    show ("-" ++ toString (n + 1)).toList = '-' :: Nat.toDigits 10 (n + 1)
    rw [String.toList_append]
    exact congrArg ('-' :: ·) String.toList_ofList

/-- What stands in the text of an integer. -/
theorem isDigit_or_eq_minus_of_mem_toString {n : Int} {c : Char} (h : c ∈ (toString n).toList) :
    c.isDigit = true ∨ c = '-' := by
  rw [toList_toString] at h
  split at h
  · rcases List.mem_cons.1 h with rfl | h
    · exact .inr rfl
    · exact .inl (isDigit_of_mem_toDigits h)
  · exact .inl (isDigit_of_mem_toDigits h)

theorem exists_isDigit_mem_toString (n : Int) : ∃ c ∈ (toString n).toList, c.isDigit = true := by
  obtain ⟨d, ds, h, hd⟩ := exists_toDigits_eq_cons n.natAbs
  refine ⟨d, ?_, hd⟩
  rw [toList_toString, h]
  split <;> simp

/-- The text of an integer is a word. -/
theorem isWord_toString (n : Int) :
    (toString n).toList ≠ [] ∧ ∀ c ∈ (toString n).toList, isBlank c = false := by
  obtain ⟨d, hd, -⟩ := exists_isDigit_mem_toString n
  refine ⟨List.ne_nil_of_mem hd, fun c hc => ?_⟩
  rcases isDigit_or_eq_minus_of_mem_toString hc with hc | rfl
  · exact isBlank_of_isDigit hc
  · decide

theorem unsigned?_toDigits (n : Nat) : unsigned? (Nat.toDigits 10 n) = some n := by
  obtain ⟨d, ds, h, hd⟩ := exists_toDigits_eq_cons n
  have hplus : d ≠ '+' := ne_of_isDigit hd (by decide)
  rw [h, unsigned?, ← h, natural?_toDigits]
  rintro cs ⟨⟩
  exact hplus rfl

/-- **The text of an integer reads back as the integer.** -/
theorem signed?_toString (n : Int) : signed? (toString n).toList = some n := by
  rw [toList_toString]
  split
  · next hneg =>
    have habs : -(n.natAbs : Int) = n := by omega
    rw [signed?, natural?_toDigits]
    exact congrArg some habs
  · next hpos =>
    obtain ⟨d, ds, h, hd⟩ := exists_toDigits_eq_cons n.natAbs
    have hminus : d ≠ '-' := ne_of_isDigit hd (by decide)
    rw [h, signed?, ← h, unsigned?_toDigits, Option.map_some]
    · exact congrArg some (Int.natAbs_of_nonneg (Int.not_lt.1 hpos))
    · rintro cs ⟨⟩
      exact hminus rfl

/-- Integers with one text are equal. -/
theorem toString_injective {m n : Int} (h : (toString m).toList = (toString n).toList) : m = n := by
  rw [← Option.some.injEq, ← signed?_toString m, h, signed?_toString]

theorem int64?_toString {n : Int} (h : FitsInt64 n) :
    int64? (toString n).toList = some (Int64.ofInt n) := by
  rw [int64?, signed?_toString, Option.bind_some, if_pos h]

theorem word?_toString (n : UInt64) : word? (toString n.toNat).toList = some n := by
  have hlist : (toString n.toNat).toList = Nat.toDigits 10 n.toNat := String.toList_ofList
  rw [word?, hlist, unsigned?_toDigits, Option.bind_some, if_pos n.toNat_lt, UInt64.ofNat_toNat]

end StackSeq.Text
