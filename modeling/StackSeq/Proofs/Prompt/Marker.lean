import Mathlib.Order.Nat
import StackSeq.Proofs.Text.Lines
import StackSeq.Prompt.Response

/-!
# Where a marker is found

A marker counts where it stands at the start of a line or behind a character that ends no word
(`IsBounded`). The search along a line passes over the whole of an occurrence that does not count. A
marker without spaces is followed by the only space of an occurrence, so two occurrences never
overlap (`isUnbordered_marker`) and nothing is missed: what is found is the first that counts
(`valueAfter?_eq_some_iff`). The last line that has one is the line that is read, whatever lines
there are before it and behind it: `markerValue?_finds_last`.
-/

namespace StackSeq.Response

variable {needle cs seen line before after value value' before' : List Char} {start skip : Nat}

/-! ## Occurrences -/

/-- The marker stands between these parts of the line, and no letter, digit or underscore is
directly before it. -/
structure IsBounded (needle line before after : List Char) : Prop where
  eq : line = before ++ (needle ++ after)
  before_apart : ∀ c ∈ before.getLast?, Text.isAlphanumeric c = false ∧ c ≠ '_'

/-- The line has the marker somewhere. -/
def HasBounded (needle line : List Char) : Prop :=
  ∃ before after, IsBounded needle line before after

/-- No occurrence of the marker is nearer to the start of the line, those before `start` apart. -/
structure IsFirstBounded (needle line : List Char) (start : Nat) (before after : List Char) : Prop
    extends IsBounded needle line before after where
  start_le : start ≤ before.length
  first : ∀ before' after', IsBounded needle line before' after' → start ≤ before'.length →
    before.length ≤ before'.length

theorem isBoundary_eq_true_iff {previous : Option Char} : isBoundary previous = true ↔
    ∀ c ∈ previous, Text.isAlphanumeric c = false ∧ c ≠ '_' := by
  cases previous <;> simp [isBoundary]

/-- An occurrence is known by how far from the start of the line it is. -/
theorem IsBounded.eq_of_length (h : IsBounded needle line before value)
    (h' : IsBounded needle line before' value') (hlength : before.length = before'.length) :
    before = before' ∧ value = value' := by
  obtain ⟨hbefore, hafter⟩ := List.append_inj (h.eq.symm.trans h'.eq) hlength
  exact ⟨hbefore, List.append_cancel_left hafter⟩

theorem not_hasBounded_nil (hne : needle ≠ []) : ¬HasBounded needle [] := by
  rintro ⟨before, after, h⟩
  simpa [hne] using h.eq.symm

theorem HasBounded.isInfix (h : HasBounded needle line) : needle <:+: line := by
  obtain ⟨before, after, h⟩ := h
  exact ⟨before, after, by rw [h.eq, List.append_assoc]⟩

/-- At the start of a line the marker counts. -/
theorem isFirstBounded_append (needle value : List Char) :
    IsFirstBounded needle (needle ++ value) 0 [] value where
  eq := rfl
  before_apart := by simp
  start_le := Nat.le_refl _
  first := fun _ _ _ _ => Nat.zero_le _

/-- A line that has the marker has it in a first place. -/
theorem HasBounded.exists_first (h : HasBounded needle line) :
    ∃ before after, IsFirstBounded needle line 0 before after := by
  classical
  have hplaces :
      ∃ place before after, IsBounded needle line before after ∧ before.length = place := by
    obtain ⟨before, after, h⟩ := h
    exact ⟨before.length, before, after, h, rfl⟩
  obtain ⟨before, after, hfirst, hlength⟩ := Nat.find_spec hplaces
  refine ⟨before, after, hfirst, Nat.zero_le _, fun before' after' h' _ => ?_⟩
  rw [hlength]
  exact Nat.find_min' hplaces ⟨before', after', h', rfl⟩

namespace IsFirstBounded

theorem unique (h : IsFirstBounded needle line start before value)
    (h' : IsFirstBounded needle line start before' value') : value = value' := by
  have hle := h.first _ _ h'.toIsBounded h'.start_le
  have hge := h'.first _ _ h.toIsBounded h.start_le
  exact (h.toIsBounded.eq_of_length h'.toIsBounded (Nat.le_antisymm hle hge)).2

/-- Where no occurrence starts, the search may start one place further on. -/
theorem start_succ_iff (hmiss : ∀ before' after', IsBounded needle line before' after' →
    before'.length ≠ start) : IsFirstBounded needle line start before value ↔
      IsFirstBounded needle line (start + 1) before value := by
  constructor
  · intro h
    have hne := hmiss _ _ h.toIsBounded
    have hle := h.start_le
    exact ⟨h.toIsBounded, by omega, fun before' after' h' hlt => h.first _ _ h' (Nat.le_of_lt hlt)⟩
  · intro h
    refine ⟨h.toIsBounded, Nat.le_of_lt h.start_le, fun before' after' h' hle => ?_⟩
    exact h.first _ _ h' (Nat.lt_of_le_of_ne hle (hmiss _ _ h').symm)

end IsFirstBounded

/-! ## Occurrences that do not overlap -/

/-- Two occurrences of the text never overlap. -/
def IsUnbordered (needle : List Char) : Prop :=
  ∀ cs shift, needle <+: cs → needle <+: cs.drop shift → shift = 0 ∨ needle.length ≤ shift

/-- **A marker without spaces does not overlap with itself**, colon and space included: both
occurrences would end at the first space. -/
theorem isUnbordered_marker {marker : List Char} (h : ' ' ∉ marker) :
    IsUnbordered (marker ++ [':', ' ']) := by
  rintro cs shift ⟨rest, rfl⟩ ⟨rest', hshift⟩
  have hword : ' ' ∉ marker ++ [':'] := by simp [h]
  rcases Nat.lt_or_ge shift (marker ++ [':', ' ']).length with hlt | hle
  · left
    have hle : shift ≤ (marker ++ [':']).length := by
      simp only [List.length_append, List.length_cons, List.length_nil] at hlt ⊢
      omega
    have hdrop : ' ' ∉ (marker ++ [':']).drop shift := fun hmem => hword (List.mem_of_mem_drop hmem)
    have heq : marker ++ [':'] ++ ' ' :: rest' = (marker ++ [':']).drop shift ++ ' ' :: rest := by
      rw [← List.drop_append_of_le_length hle]
      simpa using hshift
    have hcut := congrArg (Text.cutAt ' ') heq
    rw [Text.cutAt_append_cons hword, Text.cutAt_append_cons hdrop] at hcut
    have hlength := congrArg (fun cut => cut.map (·.1.length)) hcut
    simp only [Option.map_some, Option.some.injEq, List.length_drop] at hlength
    simp only [List.length_append, List.length_cons, List.length_nil] at hle hlength
    omega
  · exact .inr hle

/-! ## The search along a line -/

/-- Characters at which no occurrence starts may as well be searched as skipped. -/
theorem valueAfter?_eq_of_forall_not {skip : Nat} (previous : Option Char)
    (h : ∀ place < skip, ¬needle <+: cs.drop place) :
    valueAfter? needle skip previous cs = valueAfter? needle 0 previous cs := by
  induction cs generalizing skip previous with
  | nil => cases skip <;> rfl
  | cons c rest ih =>
    cases skip with
    | zero => rfl
    | succ skip =>
      have hhere : ¬needle.isPrefixOf (c :: rest) = true := by
        rw [List.isPrefixOf_iff_prefix]
        exact h 0 (Nat.succ_pos skip)
      have hrest : ∀ place < skip, ¬needle <+: rest.drop place :=
        fun place hlt => h (place + 1) (Nat.succ_lt_succ hlt)
      rw [valueAfter?, ih (some c) hrest, valueAfter?, if_neg hhere]

/-- **Of a text that does not overlap with itself no occurrence is passed over.** -/
theorem valueAfter?_cons (hneedle : IsUnbordered needle) (previous : Option Char) (c : Char)
    (rest : List Char) : valueAfter? needle 0 previous (c :: rest) =
      if needle <+: c :: rest ∧ isBoundary previous = true then
        some ((c :: rest).drop needle.length)
      else valueAfter? needle 0 (some c) rest := by
  rw [valueAfter?]
  by_cases hhere : needle <+: c :: rest
  · have hskipped : ∀ place < needle.length - 1, ¬needle <+: rest.drop place := by
      intro place hlt hplace
      have := hneedle (c :: rest) (place + 1) hhere hplace
      omega
    rw [if_pos (List.isPrefixOf_iff_prefix.2 hhere), valueAfter?_eq_of_forall_not _ hskipped]
    simp [hhere]
  · have hfront : ¬needle.isPrefixOf (c :: rest) = true :=
      fun hfront => hhere (List.isPrefixOf_iff_prefix.1 hfront)
    rw [if_neg hfront, if_neg fun h => hhere h.1]

/-- Behind `seen` the search finds the first occurrence that does not start before. -/
theorem valueAfter?_eq_some_iff_from (hne : needle ≠ []) (hneedle : IsUnbordered needle)
    (seen cs : List Char) : valueAfter? needle 0 seen.getLast? cs = some value ↔
      ∃ before, IsFirstBounded needle (seen ++ cs) seen.length before value := by
  induction cs generalizing seen with
  | nil =>
    refine iff_of_false (Option.some_ne_none value).symm ?_
    rintro ⟨before, h⟩
    have hlength := congrArg List.length h.eq
    have hpos := List.length_pos_of_ne_nil hne
    have hle := h.start_le
    simp only [List.length_append, List.length_nil] at hlength
    omega
  | cons c rest ih =>
    rw [valueAfter?_cons hneedle]
    split
    · next h =>
      -- The occurrence that starts here is the first.
      obtain ⟨⟨after, hafter⟩, hboundary⟩ := h
      have hhere : IsBounded needle (seen ++ c :: rest) seen after :=
        ⟨by rw [hafter], isBoundary_eq_true_iff.1 hboundary⟩
      have hfirst : IsFirstBounded needle (seen ++ c :: rest) seen.length seen after :=
        ⟨hhere, Nat.le_refl _, fun _ _ _ hle => hle⟩
      rw [← hafter, List.drop_left, hafter, Option.some.injEq]
      exact ⟨fun h => ⟨seen, h ▸ hfirst⟩, fun ⟨_, h⟩ => hfirst.unique h⟩
    · next h =>
      have hmiss : ∀ before' after', IsBounded needle (seen ++ c :: rest) before' after' →
          before'.length ≠ seen.length := by
        intro before' after' hbounded hlength
        obtain ⟨rfl, hafter⟩ := List.append_inj hbounded.eq.symm hlength
        exact h ⟨⟨after', hafter⟩, isBoundary_eq_true_iff.2 hbounded.before_apart⟩
      have hseen : (seen ++ [c]).getLast? = some c := List.getLast?_concat
      have ih' := ih (seen ++ [c])
      rw [hseen, List.append_assoc, List.singleton_append, List.length_append,
        List.length_singleton] at ih'
      rw [ih']
      exact exists_congr fun before => (IsFirstBounded.start_succ_iff hmiss).symm

/-- **What the search finds is the first occurrence that counts.** -/
theorem valueAfter?_eq_some_iff (hne : needle ≠ []) (hneedle : IsUnbordered needle) :
    valueAfter? needle 0 none line = some value ↔
      ∃ before, IsFirstBounded needle line 0 before value :=
  valueAfter?_eq_some_iff_from hne hneedle [] line

theorem valueAfter?_eq_none_iff (hne : needle ≠ []) (hneedle : IsUnbordered needle) :
    valueAfter? needle 0 none line = none ↔ ¬HasBounded needle line := by
  constructor
  · rintro hnone h
    obtain ⟨before, after, hfirst⟩ := h.exists_first
    rw [(valueAfter?_eq_some_iff hne hneedle).2 ⟨before, hfirst⟩] at hnone
    cases hnone
  · intro h
    cases hvalue : valueAfter? needle 0 none line with
    | none => rfl
    | some value =>
      obtain ⟨before, hfirst⟩ := (valueAfter?_eq_some_iff hne hneedle).1 hvalue
      exact absurd ⟨before, value, hfirst.toIsBounded⟩ h

/-! ## The last line -/

theorem findSome?_reverse_eq_some_iff {α β : Type*} {f : α → Option β} {xs : List α} {b : β} :
    xs.reverse.findSome? f = some b ↔
      ∃ earlier x later, xs = earlier ++ x :: later ∧ f x = some b ∧ ∀ y ∈ later, f y = none := by
  rw [List.findSome?_eq_some_iff]
  constructor
  · rintro ⟨later, x, earlier, hxs, hx, hlater⟩
    refine ⟨earlier.reverse, x, later.reverse, ?_, hx, fun y hy => hlater y (List.mem_reverse.1 hy)⟩
    simpa using congrArg List.reverse hxs
  · rintro ⟨earlier, x, later, rfl, hx, hlater⟩
    refine ⟨later.reverse, x, earlier.reverse, ?_, hx, fun y hy => hlater y (List.mem_reverse.1 hy)⟩
    simp

/-- A marker and what separates it from its value. -/
def needleOf (marker : String) : List Char := marker.toList ++ [':', ' ']

variable {response marker : String}

theorem needleOf_ne_nil (marker : String) : needleOf marker ≠ [] :=
  List.append_ne_nil_of_right_ne_nil _ (List.cons_ne_nil _ _)

theorem markerValue?_eq_some_iff {text : String} (hmarker : ' ' ∉ marker.toList) :
    markerValue? response marker = some text ↔ ∃ earlier line later,
      Text.lines response.toList = earlier ++ line :: later ∧
      (∃ before, IsFirstBounded (needleOf marker) line 0 before text.toList) ∧
      ∀ other ∈ later, ¬HasBounded (needleOf marker) other := by
  have hne := needleOf_ne_nil marker
  have hneedle : IsUnbordered (needleOf marker) := isUnbordered_marker hmarker
  have htext : markerValue? response marker = some text ↔
      (Text.lines response.toList).reverse.findSome? (valueAfter? (needleOf marker) 0 none)
        = some text.toList := by
    rw [markerValue?, Option.map_eq_some_iff]
    constructor
    · rintro ⟨value, hvalue, rfl⟩
      rw [String.toList_ofList]
      exact hvalue
    · exact fun h => ⟨_, h, String.ofList_toList⟩
  simp only [htext, findSome?_reverse_eq_some_iff, valueAfter?_eq_some_iff hne hneedle,
    valueAfter?_eq_none_iff hne hneedle]

theorem markerValue?_eq_none_iff (hmarker : ' ' ∉ marker.toList) :
    markerValue? response marker = none ↔
      ∀ line ∈ Text.lines response.toList, ¬HasBounded (needleOf marker) line := by
  have hnone : ∀ line, valueAfter? (needleOf marker) 0 none line = none ↔
      ¬HasBounded (needleOf marker) line := fun line =>
    valueAfter?_eq_none_iff (needleOf_ne_nil marker) (isUnbordered_marker hmarker)
  rw [markerValue?, Option.map_eq_none_iff, List.findSome?_eq_none_iff]
  simp only [List.mem_reverse]
  exact forall₂_congr fun line _ => hnone line

/-- **Lines in front, and lines behind without the marker, do not change what is read.** -/
theorem markerValue?_of_lines_eq {other : String} (earlier later : List (List Char))
    (hmarker : ' ' ∉ marker.toList)
    (hlines : Text.lines other.toList = earlier ++ Text.lines response.toList ++ later)
    (hlater : ∀ line ∈ later, ¬HasBounded (needleOf marker) line)
    (h : ∃ line ∈ Text.lines response.toList, HasBounded (needleOf marker) line) :
    markerValue? other marker = markerValue? response marker := by
  obtain ⟨text, htext⟩ : ∃ text, markerValue? response marker = some text := by
    refine Option.ne_none_iff_exists'.1 fun hnone => ?_
    obtain ⟨line, hline, hbounded⟩ := h
    exact (markerValue?_eq_none_iff hmarker).1 hnone line hline hbounded
  obtain ⟨before, line, after, hresponse, hfirst, hafter⟩ :=
    (markerValue?_eq_some_iff hmarker).1 htext
  rw [htext, markerValue?_eq_some_iff hmarker]
  refine ⟨earlier ++ before, line, after ++ later, ?_, hfirst, ?_⟩
  · rw [hlines, hresponse]
    simp only [List.append_assoc, List.cons_append]
  · intro other hother
    rcases List.mem_append.1 hother with hother | hother
    · exact hafter other hother
    · exact hlater other hother

/-- What can be put behind a text so that what follows adds lines and keeps those of the text:
nothing if a line has just ended, else the end of a line. A line feed alone would take a carriage
return at the end of the text into the line's end. -/
def ClosesLine (response ending : String) : Prop :=
  (Text.EndsLine response.toList ∧ ending = "") ∨
    (response.toList.getLast? ≠ some '\r' ∧ ending = "\n") ∨ ending = "\r\n"

theorem markerValue?_append_lines {ending later : String} (hmarker : ' ' ∉ marker.toList)
    (hending : ClosesLine response ending)
    (hlater : ∀ line ∈ Text.lines later.toList, ¬HasBounded (needleOf marker) line)
    (h : ∃ line ∈ Text.lines response.toList, HasBounded (needleOf marker) line) :
    markerValue? (response ++ ending ++ later) marker = markerValue? response marker := by
  obtain ⟨blank, hblank, hlines⟩ : ∃ blank : List (List Char), (∀ other ∈ blank, other = []) ∧
      Text.lines (response ++ ending ++ later).toList
        = Text.lines response.toList ++ blank ++ Text.lines later.toList := by
    rw [String.toList_append, String.toList_append]
    rcases hending with ⟨hends, rfl⟩ | ⟨hreturn, rfl⟩ | rfl
    · refine ⟨[], List.forall_mem_nil _, ?_⟩
      rw [String.toList_empty, List.append_nil, List.append_nil, Text.lines_append hends]
    · rw [List.append_assoc]
      exact Text.lines_append_feed hreturn later.toList
    · rw [List.append_assoc]
      exact Text.lines_append_return_feed response.toList later.toList
  have hall : Text.lines (response ++ ending ++ later).toList
      = [] ++ Text.lines response.toList ++ (blank ++ Text.lines later.toList) := by
    rw [hlines, List.append_assoc, List.nil_append]
  refine markerValue?_of_lines_eq _ _ hmarker hall (fun line hline => ?_) h
  rcases List.mem_append.1 hline with hline | hline
  · rw [hblank line hline]
    exact not_hasBounded_nil (needleOf_ne_nil marker)
  · exact hlater line hline

/-- **What is read is the value behind the first marker of the last line that has one.** -/
theorem markerValue?_finds_last (response : String) {marker : String}
    (hmarker : ' ' ∉ marker.toList) :
    let lines := Text.lines response.toList
    let needle := marker.toList ++ [':', ' ']
    (markerValue? response marker = none ↔ ∀ line ∈ lines, ¬HasBounded needle line) ∧
      (∀ text, markerValue? response marker = some text ↔ ∃ earlier line later,
        lines = earlier ++ line :: later ∧
        (∃ before, IsFirstBounded needle line 0 before text.toList) ∧
        ∀ other ∈ later, ¬HasBounded needle other) ∧
      ((∃ line ∈ lines, HasBounded needle line) →
        (∀ other earlier later, Text.lines other.toList = earlier ++ lines ++ later →
          (∀ line ∈ later, ¬HasBounded needle line) →
          markerValue? other marker = markerValue? response marker) ∧
        (∀ earlier, Text.EndsLine earlier.toList →
          markerValue? (earlier ++ response) marker = markerValue? response marker) ∧
        ∀ ending later, ClosesLine response ending →
          (∀ line ∈ Text.lines later.toList, ¬HasBounded needle line) →
          markerValue? (response ++ ending ++ later) marker = markerValue? response marker) := by
  intro lines needle
  refine ⟨markerValue?_eq_none_iff hmarker, fun _ => markerValue?_eq_some_iff hmarker,
    fun h => ⟨?_, ?_, ?_⟩⟩
  · exact fun other earlier later hlines hlater =>
      markerValue?_of_lines_eq earlier later hmarker hlines hlater h
  · intro earlier hearlier
    refine markerValue?_of_lines_eq (Text.lines earlier.toList) [] hmarker ?_
      (List.forall_mem_nil _) h
    rw [String.toList_append, Text.lines_append hearlier, List.append_nil]
  · exact fun ending later hending hlater => markerValue?_append_lines hmarker hending hlater h

/-- Markers at the end of longer words do not count, and of two that do on one line it is the
first. -/
theorem markerValue?_finds_last_lookalikes :
    let response := "MATCH: early\nMYMATCH: MATCH: late MATCH: later"
    ' ' ∉ "MATCH".toList ∧ markerValue? response "MATCH" = some "late MATCH: later" ∧
      (∀ earlier : String, Text.EndsLine earlier.toList →
        markerValue? (earlier ++ response) "MATCH" = some "late MATCH: later") ∧
      markerValue? (response ++ "\n" ++ "MYMATCH: no") "MATCH" = some "late MATCH: later" := by
  intro response
  have hmarker : ' ' ∉ "MATCH".toList := by decide
  have hlines : Text.lines response.toList
      = ["MATCH: early".toList, "MYMATCH: MATCH: late MATCH: later".toList] := by decide +kernel
  have hletter : Text.isAlphanumeric 'Y' = true := by decide +kernel
  have hspace : Text.isAlphanumeric ' ' = false := by
    rw [Text.isAlphanumeric, ← Array.any_toList]
    decide +kernel
  have hline : valueAfter? (needleOf "MATCH") 0 none "MYMATCH: MATCH: late MATCH: later".toList
      = some "late MATCH: later".toList := by
    simp [needleOf, valueAfter?, isBoundary, hletter, hspace]
  have hfirst :=
    (valueAfter?_eq_some_iff (needleOf_ne_nil "MATCH") (isUnbordered_marker hmarker)).1 hline
  have hvalue : markerValue? response "MATCH" = some "late MATCH: later" :=
    (markerValue?_eq_some_iff hmarker).2 ⟨["MATCH: early".toList], _, [], hlines, hfirst,
      List.forall_mem_nil _⟩
  have hlookalike : markerValue? "MYMATCH: no" "MATCH" = none := by decide +kernel
  have hbounded : ∃ line ∈ Text.lines response.toList,
      HasBounded ("MATCH".toList ++ [':', ' ']) line :=
    ⟨_, hlines ▸ List.mem_cons_self, [], _, (isFirstBounded_append _ "early".toList).toIsBounded⟩
  obtain ⟨-, -, hkeep⟩ := markerValue?_finds_last response hmarker
  obtain ⟨-, hfront, hbehind⟩ := hkeep hbounded
  have hnone := (markerValue?_finds_last "MYMATCH: no" hmarker).1.1 hlookalike
  have hcloses : ClosesLine response "\n" := .inr (.inl ⟨by decide +kernel, rfl⟩)
  refine ⟨hmarker, hvalue, fun earlier hearlier => ?_, ?_⟩
  · rw [hfront earlier hearlier, hvalue]
  · rw [hbehind "\n" "MYMATCH: no" hcloses hnone, hvalue]

end StackSeq.Response
