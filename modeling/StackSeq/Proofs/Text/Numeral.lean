import StackSeq.Text.Numeral

/-!
# The grammar of integer literals

Which texts are integer literals, and of which numbers: `IsDigits`, `IsUnsigned` and `IsSigned` say
it without a reader, and the readers accept those texts and no others (`natural?_eq_some_iff`,
`unsigned?_eq_some_iff`, `signed?_eq_some_iff`). A reader of 64-bit integers leaves out what does
not fit and nothing else (`word?_eq_some_iff`, `int64?_eq_some_iff`).
-/

namespace StackSeq.Text

/-! ## Grammar -/

/-- The text is a run of decimal digits of this value, leading zeros allowed. -/
def IsDigits (cs : List Char) (n : Nat) : Prop :=
  cs ≠ [] ∧ (∀ c ∈ cs, c.isDigit = true) ∧ Nat.ofDigitChars 10 cs 0 = n

/-- The text is a literal of this number: digits that may have a plus sign in front. -/
inductive IsUnsigned : List Char → Nat → Prop
  | digits {cs : List Char} {n : Nat} (h : IsDigits cs n) : IsUnsigned cs n
  | plus {cs : List Char} {n : Nat} (h : IsDigits cs n) : IsUnsigned ('+' :: cs) n

/-- The text is a literal of this integer: digits that may have either sign in front. -/
inductive IsSigned : List Char → Int → Prop
  | unsigned {cs : List Char} {n : Nat} (h : IsUnsigned cs n) : IsSigned cs n
  | minus {cs : List Char} {n : Nat} (h : IsDigits cs n) : IsSigned ('-' :: cs) (-n)

variable {cs : List Char} {c : Char}

theorem IsDigits.ne_cons {n : Nat} (h : IsDigits cs n) (hc : c.isDigit = false) (rest : List Char) :
    cs ≠ c :: rest := by
  rintro rfl
  exact absurd (h.2.1 c List.mem_cons_self) (by simp [hc])

theorem IsUnsigned.isDigit_or_eq_of_mem {n : Nat} (h : IsUnsigned cs n) (hc : c ∈ cs) :
    c.isDigit = true ∨ c = '+' := by
  cases h with
  | digits h => exact .inl (h.2.1 c hc)
  | plus h =>
    rcases List.mem_cons.1 hc with rfl | hc
    · exact .inr rfl
    · exact .inl (h.2.1 c hc)

theorem IsSigned.isDigit_or_eq_of_mem {n : Int} (h : IsSigned cs n) (hc : c ∈ cs) :
    c.isDigit = true ∨ c = '+' ∨ c = '-' := by
  cases h with
  | unsigned h => exact (h.isDigit_or_eq_of_mem hc).imp_right .inl
  | minus h =>
    rcases List.mem_cons.1 hc with rfl | hc
    · exact .inr (.inr rfl)
    · exact .inl (h.2.1 c hc)

theorem IsDigits.exists_isDigit {n : Nat} (h : IsDigits cs n) : ∃ c ∈ cs, c.isDigit = true := by
  obtain ⟨c, hc⟩ := List.exists_mem_of_ne_nil cs h.1
  exact ⟨c, hc, h.2.1 c hc⟩

theorem IsSigned.exists_isDigit {n : Int} (h : IsSigned cs n) : ∃ c ∈ cs, c.isDigit = true := by
  cases h with
  | unsigned h =>
    cases h with
    | digits h => exact h.exists_isDigit
    | plus h =>
      obtain ⟨c, hc, hd⟩ := h.exists_isDigit
      exact ⟨c, List.mem_cons_of_mem _ hc, hd⟩
  | minus h =>
    obtain ⟨c, hc, hd⟩ := h.exists_isDigit
    exact ⟨c, List.mem_cons_of_mem _ hc, hd⟩

/-! ## Readers -/

theorem natural?_eq_some_iff {n : Nat} : natural? cs = some n ↔ IsDigits cs n := by
  simp [natural?, IsDigits, and_assoc]

/-- **The reader of unsigned literals accepts the grammar.** -/
theorem unsigned?_eq_some_iff {n : Nat} : unsigned? cs = some n ↔ IsUnsigned cs n := by
  unfold unsigned?
  split
  · next rest =>
    rw [natural?_eq_some_iff]
    refine ⟨.plus, fun h => ?_⟩
    cases h with
    | digits h => exact absurd rfl (h.ne_cons (by decide) rest)
    | plus h => exact h
  · next hplus =>
    rw [natural?_eq_some_iff]
    refine ⟨.digits, fun h => ?_⟩
    cases h with
    | digits h => exact h
    | plus h => exact absurd rfl (hplus _)

/-- **The reader of signed literals accepts the grammar.** -/
theorem signed?_eq_some_iff {n : Int} : signed? cs = some n ↔ IsSigned cs n := by
  unfold signed?
  split
  · next rest =>
    simp only [Option.map_eq_some_iff, Option.bind_eq_bind, Option.bind_eq_some_iff,
      Option.pure_def, Option.some.injEq, natural?_eq_some_iff]
    constructor
    · rintro ⟨-, ⟨m, h, rfl⟩, rfl⟩
      exact .minus h
    · intro h
      cases h with
      | minus h => exact ⟨_, ⟨_, h, rfl⟩, rfl⟩
      | unsigned h =>
        cases h with
        | digits h => exact absurd rfl (h.ne_cons (by decide) rest)
  · next hminus =>
    simp only [Option.map_eq_some_iff, unsigned?_eq_some_iff]
    constructor
    · rintro ⟨m, h, rfl⟩
      exact .unsigned h
    · intro h
      cases h with
      | unsigned h => exact ⟨_, h, rfl⟩
      | minus h => exact absurd rfl (hminus _)

/-- The reader of words accepts the unsigned literals of words. -/
theorem word?_eq_some_iff {k : UInt64} : word? cs = some k ↔ IsUnsigned cs k.toNat := by
  simp only [word?, Option.bind_eq_some_iff, unsigned?_eq_some_iff, Option.ite_none_right_eq_some,
    Option.some.injEq]
  constructor
  · rintro ⟨n, h, hlt, rfl⟩
    rwa [UInt64.toNat_ofNat_of_lt' hlt]
  · exact fun h => ⟨_, h, k.toNat_lt, UInt64.ofNat_toNat⟩

/-- The reader of 64-bit integers accepts the signed literals of those integers. -/
theorem int64?_eq_some_iff {k : Int64} : int64? cs = some k ↔ IsSigned cs k.toInt := by
  simp only [int64?, Option.bind_eq_some_iff, signed?_eq_some_iff, Option.ite_none_right_eq_some,
    Option.some.injEq]
  constructor
  · rintro ⟨n, h, hfits, rfl⟩
    rwa [Int64.toInt_ofInt_of_le hfits.1 hfits.2]
  · exact fun h => ⟨_, h, ⟨k.le_toInt, k.toInt_lt⟩, Int64.ofInt_toInt k⟩

end StackSeq.Text
