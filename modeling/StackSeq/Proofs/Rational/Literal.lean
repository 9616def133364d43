import StackSeq.Rational.Literal
import StackSeq.Proofs.Rational.Neutral
import StackSeq.Proofs.Text.Decimal
import StackSeq.Proofs.Text.Numeral
import StackSeq.Proofs.Text.Words

/-!
# Reading the literal of a value

The literal of a value reads back as the value, with blanks around it or without (`ofLiteral?_text`,
`parse_text`). It is a word by itself: it holds a digit and nothing but digits, minus signs and
slashes, none of them a blank. Other texts are read as well; `IsLiteral` says which, and
`ofLiteral?_eq_some_iff` that there are no more.
-/

namespace StackSeq

/-! ## The characters of a literal -/

namespace Rational

variable (r : Rational)

theorem toList_text :
    r.text.toList
      = (toString r.num).toList ++
        if r.den = 1 then [] else '/' :: (toString (r.den : Int)).toList := by
  unfold text
  split
  · rw [List.append_nil]
  · rw [String.toList_append, String.toList_append, List.append_assoc]
    rfl

theorem mem_text {c : Char} (h : c ∈ r.text.toList) : c.isDigit = true ∨ c = '-' ∨ c = '/' := by
  rw [toList_text, List.mem_append] at h
  rcases h with h | h
  · exact (Text.isDigit_or_eq_minus_of_mem_toString h).imp_right .inl
  · split at h
    · cases h
    · rcases List.mem_cons.1 h with rfl | h
      · exact .inr (.inr rfl)
      · exact (Text.isDigit_or_eq_minus_of_mem_toString h).imp_right .inl

theorem exists_isDigit_mem_text : ∃ c ∈ r.text.toList, c.isDigit = true := by
  obtain ⟨c, hc, hd⟩ := Text.exists_isDigit_mem_toString r.num
  exact ⟨c, by rw [toList_text]; exact List.mem_append_left _ hc, hd⟩

theorem text_ne_nil : r.text.toList ≠ [] := by
  obtain ⟨c, hc, -⟩ := r.exists_isDigit_mem_text
  exact List.ne_nil_of_mem hc

theorem isBlank_of_mem_text {c : Char} (h : c ∈ r.text.toList) : Text.isBlank c = false := by
  rcases r.mem_text h with hd | rfl | rfl
  · exact Text.isBlank_of_isDigit hd
  · decide
  · decide

/-! ## Reading -/

/-- The slash of a fraction is not part of its numerator. -/
theorem slash_notMem_toString (n : Int) : '/' ∉ (toString n).toList := by
  intro h
  rcases Text.isDigit_or_eq_minus_of_mem_toString h with hd | hm
  · exact absurd hd (by decide)
  · exact absurd hm (by decide)

theorem toInt_ofInt {n : Int} (h : Text.FitsInt64 n) : (Int64.ofInt n).toInt = n :=
  Int64.toInt_ofInt_of_le h.1 h.2

/-- **The literal of a value reads back as the value.** -/
theorem ofLiteral?_text : ofLiteral? r.text.toList = some r := by
  have hnum := Text.int64?_toString r.num_fits
  unfold ofLiteral?
  rw [toList_text]
  split
  · next hcut =>
    by_cases hden : r.den = 1
    · rw [if_pos hden, List.append_nil, hnum, Option.map_some]
      congr 1
      apply ext_of_cross_eq
      show (Int64.ofInt r.num).toInt * r.den = r.num * (1 : Nat)
      rw [toInt_ofInt r.num_fits, hden]
    · rw [if_neg hden, Text.cutAt_append_cons (slash_notMem_toString r.num)] at hcut
      cases hcut
  · next hcut =>
    by_cases hden : r.den = 1
    · rw [if_pos hden, List.append_nil, Text.cutAt_of_not_mem (slash_notMem_toString r.num)] at hcut
      cases hcut
    · rw [if_neg hden, Text.cutAt_append_cons (slash_notMem_toString r.num)] at hcut
      cases hcut
      have hfits : Text.FitsInt64 r.den := by
        have := r.den_lt
        unfold Text.FitsInt64
        omega
      have hden0 : Int64.ofInt r.den ≠ 0 := by
        intro h0
        have hzero := congrArg Int64.toInt h0
        rw [toInt_ofInt hfits, Int64.toInt_zero] at hzero
        have := r.den_pos
        omega
      rw [hnum, Text.int64?_toString hfits]
      simp only [Option.bind_eq_bind, Option.bind_some, if_neg hden0, toInt_ofInt r.num_fits,
        toInt_ofInt hfits, ofQuotient_num_den]

/-- Blanks around a literal do not matter, and the literal of a value has none of its own. -/
theorem parse_text : parse r.text = .ok r := by
  rw [parse, parseChars, Text.trim_of_all_not_blank fun c hc => r.isBlank_of_mem_text hc,
    ofLiteral?_text]

/-! ## Grammar -/

/-- The text is a literal of the value: the literal of a 64-bit integer, or two of them with a slash
between, the second not of zero. -/
inductive IsLiteral : List Char → Rational → Prop
  | integer {cs : List Char} {n : Int64} (h : Text.IsSigned cs n.toInt) : IsLiteral cs (ofTerm n)
  | quotient {numerator denominator : List Char} {n d : Int64}
      (hn : Text.IsSigned numerator n.toInt) (hd : Text.IsSigned denominator d.toInt)
      (hne : d ≠ 0) :
      IsLiteral (numerator ++ '/' :: denominator) (ofQuotient n.toInt d.toInt)

variable {r} {cs : List Char}

theorem slash_notMem_of_isSigned {n : Int} (h : Text.IsSigned cs n) : '/' ∉ cs := by
  intro hmem
  rcases h.isDigit_or_eq_of_mem hmem with hd | hplus | hminus
  · exact absurd hd (by decide)
  · exact absurd hplus (by decide)
  · exact absurd hminus (by decide)

theorem IsLiteral.exists_isDigit (h : IsLiteral cs r) : ∃ c ∈ cs, c.isDigit = true := by
  cases h with
  | integer h => exact h.exists_isDigit
  | quotient hn _ _ =>
    obtain ⟨c, hc, hd⟩ := hn.exists_isDigit
    exact ⟨c, List.mem_append_left _ hc, hd⟩

/-- **The texts read as a value are its literals.** -/
theorem ofLiteral?_eq_some_iff : ofLiteral? cs = some r ↔ IsLiteral cs r := by
  constructor
  · intro h
    unfold ofLiteral? at h
    split at h
    · obtain ⟨n, hn, rfl⟩ := Option.map_eq_some_iff.1 h
      exact .integer (Text.int64?_eq_some_iff.1 hn)
    · next hcut =>
      obtain ⟨-, rfl⟩ := Text.eq_append_of_cutAt hcut
      simp only [Option.bind_eq_bind, Option.bind_eq_some_iff, Option.ite_none_left_eq_some,
        Option.some.injEq] at h
      obtain ⟨n, hn, d, hd, hne, rfl⟩ := h
      exact .quotient (Text.int64?_eq_some_iff.1 hn) (Text.int64?_eq_some_iff.1 hd) hne
  · intro h
    cases h with
    | integer h =>
      rw [ofLiteral?, Text.cutAt_of_not_mem (slash_notMem_of_isSigned h)]
      simp only [Text.int64?_eq_some_iff.2 h, Option.map_some]
    | quotient hn hd hne =>
      rw [ofLiteral?, Text.cutAt_append_cons (slash_notMem_of_isSigned hn)]
      simp only [Text.int64?_eq_some_iff.2 hn, Text.int64?_eq_some_iff.2 hd, Option.bind_eq_bind,
        Option.bind_some, if_neg hne]

end Rational

end StackSeq
