import Mathlib.Data.List.Nodup
import StackSeq.Proofs.Prompt.Label
import StackSeq.Proofs.Prompt.Marker

/-!
# What a response is read as

An answer line `MATCH: (B)` is read as the choice of its label, whatever lines there are before it
and behind it, if those behind it have no marker: `choice_answer`.

Of the value behind the marker all capital letters are read together, wherever they stand, and
letters A in front count for nothing. So the choice is the one that the value names if it names one
only (`NamesOnly.value_eq`, `standsAlone_of_choice`). Otherwise it may be a choice that the value
does not name: capital letters of the words behind a label are taken for a part of it
(`not_standsAlone_of_choice`).
-/

namespace StackSeq.Response

variable {cs : List Char} {response : String} {index : Nat}

/-! ## Answers -/

theorem choice_eq_some_iff : choice response = .ok (some index) ↔
    ∃ value, markerValue? response "MATCH" = some value ∧
      value.toList.filter isCapital ≠ ['N', 'O', 'N', 'E'] ∧
      Label.index? (value.toList.filter isCapital) = some index := by
  unfold choice
  cases hvalue : markerValue? response "MATCH" with
  | none => simp
  | some value =>
    simp only [Option.some.injEq, exists_eq_left']
    split
    · next hnone => simp [hnone]
    · next hlabel => cases Label.index? (value.toList.filter isCapital) <;> simp [hlabel]

theorem filter_isCapital_letters (index : Nat) :
    (Label.letters index).filter isCapital = Label.letters index :=
  List.filter_eq_self.2 fun _ => Label.isCapital_of_mem_letters

/-- The answer that names a choice. -/
def answer (index : Nat) : List Char := '(' :: Label.letters index ++ [')']

/-- The line that has the answer behind the marker. -/
def answerLine (index : Nat) : List Char := ['M', 'A', 'T', 'C', 'H', ':', ' '] ++ answer index

theorem filter_isCapital_answer (index : Nat) :
    (answer index).filter isCapital = Label.letters index := by
  have hopen : isCapital '(' = false := by decide
  have hclose : isCapital ')' = false := by decide
  simp [answer, hopen, hclose, filter_isCapital_letters]

theorem isLine_answerLine (index : Nat) : Text.IsLine (answerLine index) where
  ne_nil := List.cons_ne_nil _ _
  feed_notMem := by
    have hletters : '\n' ∉ Label.letters index := Label.notMem_letters (by decide) index
    simp [answerLine, answer, hletters]
  getLast?_ne := by
    rw [answerLine, answer, ← List.append_assoc, List.getLast?_concat]
    decide

theorem isFirstBounded_answerLine (index : Nat) :
    IsFirstBounded (needleOf "MATCH") (answerLine index) 0 [] (answer index) :=
  isFirstBounded_append (needleOf "MATCH") (answer index)

theorem toList_answer (earlier later : String) (index : Nat) :
    (earlier ++ "MATCH: (" ++ Label.ofIndex index ++ ")" ++ later).toList
      = earlier.toList ++ (answerLine index ++ later.toList) := by
  have hopen : "MATCH: (".toList = ['M', 'A', 'T', 'C', 'H', ':', ' ', '('] := rfl
  have hclose : ")".toList = [')'] := rfl
  simp [hopen, hclose, Label.ofIndex, answerLine, answer]

/-- **An answer line is read as the choice of its label**, if no marker follows it. -/
theorem choice_answer {earlier later : String} (hindex : index < 0x1_0000_0000_0000_0000)
    (hnone : Label.ofIndex index ≠ "NONE") (hearlier : Text.EndsLine earlier.toList)
    (hlater : Text.StartsLineEnd later.toList) (hmarker : ¬"MATCH: ".toList <:+: later.toList) :
    choice (earlier ++ "MATCH: (" ++ Label.ofIndex index ++ ")" ++ later) = .ok (some index) := by
  have hlines : Text.lines (earlier ++ "MATCH: (" ++ Label.ofIndex index ++ ")" ++ later).toList
      = Text.lines earlier.toList ++ answerLine index :: (Text.lines later.toList).tail := by
    rw [toList_answer, Text.lines_append hearlier, (isLine_answerLine index).lines_append hlater]
  have hothers : ∀ other ∈ (Text.lines later.toList).tail, ¬HasBounded (needleOf "MATCH") other :=
    fun other hother hbounded => hmarker <|
      hbounded.isInfix.trans (Text.infix_of_mem_lines (List.mem_of_mem_tail hother))
  have hfirst : IsFirstBounded (needleOf "MATCH") (answerLine index) 0 []
      (String.ofList (answer index)).toList := by
    rw [String.toList_ofList]
    exact isFirstBounded_answerLine index
  have hvalue := (markerValue?_eq_some_iff (by decide)).2 ⟨_, _, _, hlines, ⟨[], hfirst⟩, hothers⟩
  refine choice_eq_some_iff.2 ⟨_, hvalue, ?_, ?_⟩
  · rw [String.toList_ofList, filter_isCapital_answer]
    exact fun h => hnone (congrArg String.ofList h)
  · rw [String.toList_ofList, filter_isCapital_answer, Label.index?_letters hindex]

/-! ## The choice that a value names -/

/-- The word stands between these parts of the text with no letter directly before or behind it. -/
structure IsOccurrence (word cs before after : List Char) : Prop where
  eq : cs = before ++ word ++ after
  before_apart : ∀ c ∈ before.getLast?, c.isAlpha = false
  after_apart : ∀ c ∈ after.head?, c.isAlpha = false

/-- The word occurs in the text with no letter directly before or behind it. -/
def StandsAlone (word cs : List Char) : Prop := ∃ before after, IsOccurrence word cs before after

/-- The label of the choice stands alone in the text, and what capital letters there are besides
cannot change the number that it is: letters A before it, or anywhere if the label is A itself. -/
def NamesOnly (index : Nat) (cs : List Char) : Prop :=
  ∃ before after, IsOccurrence (Label.letters index) cs before after ∧
    (∀ c ∈ before, isCapital c = true → c = 'A') ∧
    ∀ c ∈ after, isCapital c = true → c = 'A' ∧ index = 0

theorem NamesOnly.standsAlone (h : NamesOnly index cs) : StandsAlone (Label.letters index) cs := by
  obtain ⟨before, after, h, -⟩ := h
  exact ⟨before, after, h⟩

theorem IsOccurrence.filter_eq {before after : List Char}
    (h : IsOccurrence (Label.letters index) cs before after) :
    cs.filter isCapital
      = before.filter isCapital ++ Label.letters index ++ after.filter isCapital := by
  rw [h.eq, List.filter_append, List.filter_append, filter_isCapital_letters]

/-- The capital letters of a text that names one choice only are read as that choice. -/
theorem NamesOnly.value_eq (h : NamesOnly index cs) :
    Label.value (cs.filter isCapital) = index := by
  obtain ⟨before, after, hcs, hbefore, hafter⟩ := h
  have hzeros : ∀ c ∈ before.filter isCapital, c = 'A' := by
    simpa only [List.mem_filter, and_imp] using hbefore
  have hrest : ∀ c ∈ after.filter isCapital, c = 'A' ∧ index = 0 := by
    simpa only [List.mem_filter, and_imp] using hafter
  rw [hcs.filter_eq, List.append_assoc, Label.value_append_of_forall hzeros]
  by_cases hindex : index = 0
  · have hlabel : Label.letters 0 = ['A'] := Label.letters_of_lt (by decide)
    rw [hindex, hlabel, Label.value_append_of_forall fun c hc => List.mem_singleton.1 hc,
      ← List.append_nil (after.filter isCapital),
      Label.value_append_of_forall fun c hc => (hrest c hc).1]
    rfl
  · have hnil : after.filter isCapital = [] :=
      List.eq_nil_iff_forall_not_mem.2 fun c hc => hindex (hrest c hc).2
    rw [hnil, List.append_nil, Label.value_letters]

/-- **A response whose value names one choice only is graded as that choice**, and where the label
of the graded choice stands alone in the value, the value names that choice only. -/
theorem standsAlone_of_choice (h : choice response = .ok (some index)) :
    ∃ value, markerValue? response "MATCH" = some value ∧
      (∃ n, value.toList.filter isCapital = List.replicate n 'A' ++ Label.letters index) ∧
      (∀ named, NamesOnly named value.toList →
        named = index ∧ StandsAlone (Label.letters index) value.toList) ∧
      (StandsAlone (Label.letters index) value.toList → NamesOnly index value.toList) := by
  obtain ⟨value, hvalue, -, hindex⟩ := choice_eq_some_iff.1 h
  obtain ⟨n, hcapitals⟩ := Label.exists_letters_of_index? hindex
  refine ⟨value, hvalue, ⟨n, hcapitals⟩, ?_, ?_⟩
  · intro named hnamed
    obtain ⟨-, -, hread, -⟩ := Label.index?_eq_some_iff.1 hindex
    obtain rfl : named = index := hnamed.value_eq.symm.trans hread
    exact ⟨rfl, hnamed.standsAlone⟩
  · rintro ⟨before, after, halone⟩
    have haround := Label.zeros_around_letters (halone.filter_eq.symm.trans hcapitals)
    simp only [List.mem_filter, and_imp] at haround
    exact ⟨before, after, halone, haround⟩

/-- A label in brackets with words in small letters around it. -/
theorem standsAlone_of_choice_prose :
    choice "so\nMATCH: it is (B) now" = .ok (some 1) ∧
      StandsAlone ['B'] "it is (B) now".toList := by
  have hchoice : choice "so\nMATCH: it is (B) now" = .ok (some 1) := by decide +kernel
  have hmarker : markerValue? "so\nMATCH: it is (B) now" "MATCH"
      = some "it is (B) now" := by decide +kernel
  have hlabel : Label.letters 1 = ['B'] := Label.letters_of_lt (by decide)
  obtain ⟨value, hvalue, -, hnamed, -⟩ := standsAlone_of_choice hchoice
  obtain rfl : value = "it is (B) now" := Option.some.inj (hvalue.symm.trans hmarker)
  have honly : NamesOnly 1 "it is (B) now".toList := by
    have hlist : "it is (B) now".toList
        = ['i', 't', ' ', 'i', 's', ' ', '('] ++ ['B'] ++ [')', ' ', 'n', 'o', 'w'] := rfl
    refine ⟨['i', 't', ' ', 'i', 's', ' ', '('], [')', ' ', 'n', 'o', 'w'], ⟨?_, ?_, ?_⟩, ?_, ?_⟩
    · rw [hlist, hlabel]
    all_goals simp [isCapital]
  have halone := (hnamed 1 honly).2
  rw [hlabel] at halone
  exact ⟨hchoice, halone⟩

/-- A capital letter of the sentence behind the label is taken for a part of it, and what is graded
is the choice BB. -/
theorem not_standsAlone_of_choice : ¬∀ (response : String) (index : Nat),
    choice response = .ok (some index) → ∃ value, markerValue? response "MATCH" = some value ∧
      StandsAlone (Label.letters index) value.toList := by
  intro hall
  have hchoice : choice "MATCH: (B). Because" = .ok (some 27) := by decide +kernel
  have hmarker : markerValue? "MATCH: (B). Because" "MATCH" = some "(B). Because" := by
    decide +kernel
  have hlabel : Label.letters 27 = ['B', 'B'] := by
    rw [Label.letters, if_neg (by decide), Label.letters_of_lt (by decide)]
    rfl
  obtain ⟨value, hvalue, before, after, halone⟩ := hall _ _ hchoice
  obtain rfl : value = "(B). Because" := Option.some.inj (hvalue.symm.trans hmarker)
  have hpart : ['B', 'B'] <:+: "(B). Because".toList :=
    ⟨before, after, by rw [halone.eq, hlabel]⟩
  exact absurd hpart (by decide +kernel)

end StackSeq.Response
