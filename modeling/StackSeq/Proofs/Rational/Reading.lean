import StackSeq.Check
import StackSeq.Proofs.Rational.Exact
import StackSeq.Proofs.Rational.Literal
import StackSeq.Proofs.Text.Words

/-!
# Reading values

Which texts are read as values, and which value it is. `Denotes` says of a literal what rational
number it stands for, before anything is absorbed; the value is that of this number
(`isLiteral_iff`). Blanks around a literal do not matter, and no other text is read
(`parse_eq_ok_iff`, `parse_eq_error_iff`).

A list of literals is read item by item, items being what stands between blanks and commas, so what
is read and what is blamed depends on the items alone. Main statement: `literals_read_exactly`.
-/

namespace StackSeq.Rational

variable {cs : List Char} {q : ℚ} {r : Rational} {s : String} {e : LiteralError}

/-! ## The number of a literal -/

/-- The text is a literal of this rational number: an integer literal, or two with a slash between
and the second not of zero. All of them are in the range of 64 bits; their quotient may not be. -/
inductive Denotes : List Char → ℚ → Prop
  | integer {cs : List Char} {n : Int} (h : Text.IsSigned cs n) (hfits : Text.FitsInt64 n) :
      Denotes cs n
  | quotient {numerator denominator : List Char} {n d : Int} (hn : Text.IsSigned numerator n)
      (hd : Text.IsSigned denominator d) (hnfits : Text.FitsInt64 n) (hdfits : Text.FitsInt64 d)
      (hne : d ≠ 0) : Denotes (numerator ++ '/' :: denominator) (n / d)

theorem ofTerm_eq_ofRat (n : Int64) : ofTerm n = ofRat n.toInt := by
  have hrat : (ofTerm n).toRat = n.toInt := by simp [toRat, ofTerm, ofInt]
  rw [← hrat, ofRat_toRat]

/-- **The value of a literal is that of its number.** -/
theorem isLiteral_iff : IsLiteral cs r ↔ ∃ q, Denotes cs q ∧ r = ofRat q := by
  constructor
  · intro h
    cases h with
    | @integer cs n h => exact ⟨_, .integer h (fitsInt64_toInt n), ofTerm_eq_ofRat n⟩
    | @quotient numerator denominator n d hn hd hne =>
      have hzero : d.toInt ≠ 0 := fun h => hne (Int64.toInt_inj.1 (h.trans Int64.toInt_zero.symm))
      exact ⟨_, .quotient hn hd (fitsInt64_toInt n) (fitsInt64_toInt d) hzero,
        ofQuotient_eq_ofRat _ _⟩
  · rintro ⟨q, h, rfl⟩
    cases h with
    | @integer cs n h hfits =>
      rw [← toInt_ofInt hfits] at h ⊢
      rw [← ofTerm_eq_ofRat]
      exact .integer h
    | @quotient numerator denominator n d hn hd hnfits hdfits hne =>
      have hzero : Int64.ofInt d ≠ 0 := fun h =>
        hne (by rw [← toInt_ofInt hdfits, h, Int64.toInt_zero])
      rw [← toInt_ofInt hnfits] at hn ⊢
      rw [← toInt_ofInt hdfits] at hd ⊢
      rw [← ofQuotient_eq_ofRat]
      exact .quotient hn hd hzero

/-! ## Blanks -/

theorem isBlank_of_isSigned {n : Int} (h : Text.IsSigned cs n) :
    ∀ c ∈ cs, Text.isBlank c = false := by
  intro c hc
  rcases h.isDigit_or_eq_of_mem hc with hd | rfl | rfl
  · exact Text.isBlank_of_isDigit hd
  · decide
  · decide

theorem Denotes.isBlank_eq_false (h : Denotes cs q) : ∀ c ∈ cs, Text.isBlank c = false := by
  cases h with
  | integer h _ => exact isBlank_of_isSigned h
  | quotient hn hd _ _ _ =>
    rw [List.forall_mem_append, List.forall_mem_cons]
    exact ⟨isBlank_of_isSigned hn, by decide, isBlank_of_isSigned hd⟩

/-- The text is a literal of this rational number with blanks around it. -/
def IsReadAs (s : String) (q : ℚ) : Prop :=
  ∃ before cs after, s.toList = before ++ cs ++ after ∧ (∀ c ∈ before, Text.isBlank c = true) ∧
    (∀ c ∈ after, Text.isBlank c = true) ∧ Denotes cs q

theorem isReadAs_iff : IsReadAs s q ↔ Denotes (Text.trim s.toList) q := by
  constructor
  · rintro ⟨before, cs, after, hs, hbefore, hafter, h⟩
    rwa [hs, Text.trim_append_blanks hbefore hafter, Text.trim_of_all_not_blank h.isBlank_eq_false]
  · intro h
    obtain ⟨before, after, hs, hbefore, hafter⟩ := Text.exists_eq_append_trim s.toList
    exact ⟨before, _, after, hs, hbefore, hafter, h⟩

/-! ## Reading a value -/

theorem exists_isReadAs_iff :
    (∃ q, IsReadAs s q ∧ r = ofRat q) ↔ ofLiteral? (Text.trim s.toList) = some r := by
  simp only [isReadAs_iff, ofLiteral?_eq_some_iff, isLiteral_iff]

/-- **What is read as a value** is a literal with blanks around it. -/
theorem parse_eq_ok_iff : parse s = .ok r ↔ ∃ q, IsReadAs s q ∧ r = ofRat q := by
  rw [exists_isReadAs_iff, parse, parseChars]
  cases ofLiteral? (Text.trim s.toList) <;> simp

-- Both parts are in range, but not their quotient.
example : parse "-9223372036854775808/-1 " = .ok 0 := by decide +kernel

/-- **Any other text is an error**, which names the text without the blanks around it. -/
theorem parse_eq_error_iff :
    parse s = .error e ↔ (∀ q, ¬IsReadAs s q) ∧ e = ⟨String.ofList (Text.trim s.toList)⟩ := by
  have hnone : (∀ q, ¬IsReadAs s q) ↔ ofLiteral? (Text.trim s.toList) = none := by
    rw [Option.eq_none_iff_forall_ne_some]
    refine ⟨fun h r hr => ?_, fun h q hq => h (ofRat q) (exists_isReadAs_iff.1 ⟨q, hq, rfl⟩)⟩
    obtain ⟨q, hq, -⟩ := exists_isReadAs_iff.2 hr
    exact h q hq
  rw [hnone, parse, parseChars]
  cases ofLiteral? (Text.trim s.toList) <;> simp [eq_comm]

/-! ## Reading a list -/

/-- The items of a list are read one by one. -/
theorem parseList_eq_mapM {items : List String}
    (h : Text.AreItems isListSeparator (items.map String.toList) s.toList) :
    parseList s = items.mapM parse := by
  rw [parseList, h.tokens_eq, List.mapM_map]
  rfl

/-- **The literals of values in a row are read as the values.** -/
theorem parseList_eq_ok {rs : List Rational}
    (h : Text.AreItems isListSeparator ((rs.map text).map String.toList) s.toList) :
    parseList s = .ok rs := by
  have hparse : parse ∘ text = pure := funext parse_text
  rw [parseList_eq_mapM h, List.mapM_map, hparse, List.mapM_pure, List.map_id']
  rfl

theorem exists_items (s : String) : ∃ items : List String,
    Text.AreItems isListSeparator (items.map String.toList) s.toList := by
  have hid : String.toList ∘ String.ofList = id := funext fun _ => String.toList_ofList
  refine ⟨(Text.tokens isListSeparator s.toList).map String.ofList, Text.areItems_iff.2 ?_⟩
  rw [List.map_map, hid, List.map_id]

/-- **The first item that is not read is the error of a list.** -/
theorem parseList_eq_error_iff : parseList s = .error e ↔ ∃ before item after,
    Text.AreItems isListSeparator ((before ++ item :: after).map String.toList) s.toList ∧
      (∀ other ∈ before, ∃ r, parse other = .ok r) ∧ parse item = .error e := by
  constructor
  · intro h
    obtain ⟨items, hitems⟩ := exists_items s
    rw [parseList_eq_mapM hitems, mapM_eq_error_iff] at h
    obtain ⟨before, item, after, rfl, hbefore, hitem⟩ := h
    exact ⟨before, item, after, hitems, hbefore, hitem⟩
  · rintro ⟨before, item, after, hitems, hbefore, hitem⟩
    rw [parseList_eq_mapM hitems, mapM_eq_error_iff]
    exact ⟨before, item, after, rfl, hbefore, hitem⟩

/-- **Literals are read exactly.** A text is read if it is a literal with blanks around it, and then
as the value of the literal's number, which is zero if the reduced fraction is out of range; any
other text is an error of its own kind. The literal of a value is read as the value. The literals of
values are read as a list with any blanks and commas between, in front and behind, and the error of
a list is that of its first item that is not read. -/
theorem literals_read_exactly :
    (∀ s r, parse s = .ok r ↔ ∃ q, IsReadAs s q ∧ r = ofRat q) ∧
    (∀ s e, parse s = .error e ↔
      (∀ q, ¬IsReadAs s q) ∧ e = ⟨String.ofList (Text.trim s.toList)⟩) ∧
    (∀ e : LiteralError, e.diagnostic.kind = .parseFailed) ∧
    (∀ r, parse r.text = .ok r) ∧
    (∀ s (rs : List Rational), Text.AreItems (fun c => Text.isBlank c || c == ',')
      ((rs.map text).map String.toList) s.toList → parseList s = .ok rs) ∧
    ∀ s e, parseList s = .error e ↔ ∃ before item after,
      Text.AreItems (fun c => Text.isBlank c || c == ',')
        ((before ++ item :: after).map String.toList) s.toList ∧
      (∀ other ∈ before, ∃ r, parse other = .ok r) ∧ parse item = .error e :=
  ⟨fun _ _ => parse_eq_ok_iff, fun _ _ => parse_eq_error_iff, fun _ => rfl, parse_text,
    fun _ _ => parseList_eq_ok, fun _ _ => parseList_eq_error_iff⟩

/-- A half and the least integer, with more than one separator between them and some around. -/
theorem literals_read_exactly_half :
    let rs : List Rational := [ofQuotient 1 2, ofInt (-0x8000_0000_0000_0000) (by decide)]
    Text.AreItems (fun c => Text.isBlank c || c == ',') ((rs.map text).map String.toList)
        ",1/2 ,\u3000-9223372036854775808\n".toList ∧
      parseList ",1/2 ,\u3000-9223372036854775808\n" = .ok rs := by
  intro rs
  have hitems : Text.AreItems (fun c => Text.isBlank c || c == ',')
      ((rs.map text).map String.toList) ",1/2 ,\u3000-9223372036854775808\n".toList := by
    decide +kernel
  exact ⟨hitems, literals_read_exactly.2.2.2.2.1 _ rs hitems⟩

end StackSeq.Rational
