import StackSeq.Proofs.Prompt.Template
import StackSeq.Proofs.Text.Words

/-!
# Templates put together from parts

A template that was put together from literal text and placeholders is taken apart into just these:
`Assembly.pieces_text`. A literal must not bring in an opening of its own (`IsClear`), nor what
stands in a placeholder an end of its own, since the first of either is where a template is cut
(`cutAtDouble_eq_some_iff`). Every template is put together like that (`exists_assembly`), so what
is said of rendering such templates is said of all: the values stand in the place of the
placeholders as they are, and the first placeholder without a value is the error.
-/

namespace StackSeq.Template

variable {mark a : Char} {cs before rest : List Char} {bindings : Bindings}

/-! ## Double marks -/

/-- A double mark directly behind this text is the first one from its start. -/
structure IsClear (mark : Char) (cs : List Char) : Prop where
  double_notInfix : ¬[mark, mark] <:+: cs
  getLast?_ne : cs.getLast? ≠ some mark

theorem prefix_double_iff : [mark, mark] <+: a :: cs ↔ a = mark ∧ cs.head? = some mark := by
  cases cs <;> simp [eq_comm]

theorem isClear_nil (mark : Char) : IsClear mark [] where
  double_notInfix := by simp
  getLast?_ne := by simp

/-- A text is clear if none of its characters is a mark with another behind it. -/
theorem isClear_cons_iff : IsClear mark (a :: cs) ↔
    ¬(a = mark ∧ (cs ++ [mark]).head? = some mark) ∧ IsClear mark cs := by
  constructor
  · rintro ⟨hdouble, hlast⟩
    rw [List.infix_cons_iff, prefix_double_iff, not_or] at hdouble
    cases cs with
    | nil => exact ⟨fun h => hlast (by rw [h.1]; rfl), isClear_nil mark⟩
    | cons b cs =>
      rw [List.getLast?_cons_cons] at hlast
      exact ⟨hdouble.1, hdouble.2, hlast⟩
  · rintro ⟨hfront, hdouble, hlast⟩
    refine ⟨?_, ?_⟩
    · rw [List.infix_cons_iff, prefix_double_iff, not_or]
      refine ⟨fun h => hfront ⟨h.1, ?_⟩, hdouble⟩
      rw [List.head?_append, h.2, Option.some_or]
    · cases cs with
      | nil =>
        rw [List.getLast?_singleton]
        exact fun h => hfront ⟨Option.some.inj h, rfl⟩
      | cons b cs => rwa [List.getLast?_cons_cons]

theorem cutAtDouble_cons (mark a : Char) (cs : List Char) : cutAtDouble mark (a :: cs) =
    if a = mark ∧ cs.head? = some mark then some ([], cs.tail)
    else (cutAtDouble mark cs).map fun cut => (a :: cut.1, cut.2) := by
  cases cs with
  | nil => simp [cutAtDouble]
  | cons b cs => simp [cutAtDouble]

/-- **The first double mark is where a text is cut.** -/
theorem cutAtDouble_append (h : IsClear mark before) (rest : List Char) :
    cutAtDouble mark (before ++ mark :: mark :: rest) = some (before, rest) := by
  induction before with
  | nil => rw [List.nil_append, cutAtDouble_cons, if_pos ⟨rfl, rfl⟩, List.tail_cons]
  | cons a before ih =>
    rw [isClear_cons_iff] at h
    have hhead : (before ++ mark :: mark :: rest).head? = (before ++ [mark]).head? := by
      rw [List.head?_append, List.head?_append]
      rfl
    rw [List.cons_append, cutAtDouble_cons, hhead, if_neg h.1, ih h.2, Option.map_some]

/-- What a cut text was put together from. -/
theorem eq_append_of_cutAtDouble (h : cutAtDouble mark cs = some (before, rest)) :
    cs = before ++ mark :: mark :: rest ∧ IsClear mark before := by
  induction cs generalizing before with
  | nil => cases h
  | cons a cs ih =>
    rw [cutAtDouble_cons] at h
    split at h
    · next hdouble =>
      obtain ⟨rfl, hhead⟩ := hdouble
      obtain ⟨cs, rfl⟩ := List.head?_eq_some_iff.1 hhead
      cases h
      exact ⟨rfl, isClear_nil a⟩
    · next hdouble =>
      obtain ⟨⟨before', rest'⟩, hcut, heq⟩ := Option.map_eq_some_iff.1 h
      cases heq
      obtain ⟨rfl, hclear⟩ := ih hcut
      refine ⟨rfl, isClear_cons_iff.2 ⟨fun h => hdouble ⟨h.1, ?_⟩, hclear⟩⟩
      rw [List.head?_append] at h ⊢
      exact h.2

theorem cutAtDouble_eq_some_iff : cutAtDouble mark cs = some (before, rest) ↔
    cs = before ++ mark :: mark :: rest ∧ IsClear mark before :=
  ⟨eq_append_of_cutAtDouble, fun h => h.1 ▸ cutAtDouble_append h.2 rest⟩

theorem cutAtDouble_eq_none_iff : cutAtDouble mark cs = none ↔ ¬[mark, mark] <:+: cs := by
  induction cs with
  | nil => simp [cutAtDouble]
  | cons a cs ih =>
    rw [cutAtDouble_cons, List.infix_cons_iff, prefix_double_iff, not_or]
    split
    · next hdouble => exact iff_of_false (Option.some_ne_none _) fun h => h.1 hdouble
    · next hdouble => rw [Option.map_eq_none_iff, ih, and_iff_right hdouble]

theorem isClear_iff : IsClear mark cs ↔ cutAtDouble mark cs = none ∧ cs.getLast? ≠ some mark := by
  rw [cutAtDouble_eq_none_iff]
  exact ⟨fun h => ⟨h.1, h.2⟩, fun h => ⟨h.1, h.2⟩⟩

instance (mark : Char) (cs : List Char) : Decidable (IsClear mark cs) :=
  decidable_of_iff _ isClear_iff.symm

/-! ## Parts -/

/-- A placeholder as it is written: a name with blanks around it, within double braces of which the
closing ones are the first behind the opening ones. Were there others before these, the placeholder
would end there, and the same text would be put together from other parts. -/
structure Placeholder where
  front : List Char
  name : List Char
  back : List Char
  front_blank : ∀ c ∈ front, Text.isBlank c = true
  back_blank : ∀ c ∈ back, Text.isBlank c = true
  name_trimmed : Text.trim name = name
  inner_clear : IsClear '\x7d' (front ++ name ++ back)

/-- The written form of a placeholder. -/
def Placeholder.text (p : Placeholder) : List Char :=
  '\x7b' :: '\x7b' :: (p.front ++ p.name ++ p.back ++ ['\x7d', '\x7d'])

/-- Literal text and the placeholder behind it. -/
structure Segment where
  literal : List Char
  literal_clear : IsClear '\x7b' literal
  placeholder : Placeholder

namespace Segment

/-- The name in the placeholder. -/
def name (g : Segment) : String := String.ofList g.placeholder.name

def text (g : Segment) : List Char := g.literal ++ g.placeholder.text

def pieces (g : Segment) : List Piece := [.literal g.literal, .placeholder g.placeholder.name]

end Segment

/-- Text whose first opening, if it has one, is never closed. -/
def IsUnclosed (cs : List Char) : Prop :=
  ∀ before after, cs = before ++ '\x7b' :: '\x7b' :: after → IsClear '\x7b' before →
    ¬['\x7d', '\x7d'] <:+: after

/-- A template put together from parts. -/
structure Assembly where
  segments : List Segment
  /-- The literal text behind the last placeholder. -/
  tail : List Char
  tail_unclosed : IsUnclosed tail

namespace Assembly

/-- The template. -/
def text (t : Assembly) : String := String.ofList (t.segments.flatMap Segment.text ++ t.tail)

/-- The text with what `value` gives for their names in the place of the placeholders. -/
def fill (t : Assembly) (value : String → String) : String :=
  String.ofList (t.segments.flatMap (fun g => g.literal ++ (value g.name).toList) ++ t.tail)

end Assembly

/-! ## Taking apart what was put together -/

/-- Text with an opening that is never closed is one literal. -/
theorem isUnclosed_iff : IsUnclosed cs ↔
    ∀ cut ∈ cutAtDouble '\x7b' cs, cutAtDouble '\x7d' cut.2 = none := by
  simp only [IsUnclosed, Option.mem_def, Prod.forall, cutAtDouble_eq_some_iff,
    cutAtDouble_eq_none_iff, and_imp]

instance (cs : List Char) : Decidable (IsUnclosed cs) :=
  decidable_of_iff _ isUnclosed_iff.symm

theorem pieces_of_isUnclosed (h : IsUnclosed cs) : pieces cs = [.literal cs] := by
  rw [isUnclosed_iff] at h
  rw [pieces]
  split
  · rfl
  · next hopen =>
    split
    · rfl
    · next hclose =>
      rw [h _ hopen] at hclose
      cases hclose

theorem pieces_segment_append (g : Segment) (rest : List Char) :
    pieces (g.text ++ rest) = g.pieces ++ pieces rest := by
  have hopen : cutAtDouble '\x7b' (g.text ++ rest)
      = some (g.literal, g.placeholder.front ++ g.placeholder.name ++ g.placeholder.back
          ++ '\x7d' :: '\x7d' :: rest) := by
    rw [← cutAtDouble_append g.literal_clear]
    simp [Segment.text, Placeholder.text]
  have hclose := cutAtDouble_append g.placeholder.inner_clear rest
  have hname : Text.trim (g.placeholder.front ++ g.placeholder.name ++ g.placeholder.back)
      = g.placeholder.name := by
    rw [Text.trim_append_blanks g.placeholder.front_blank g.placeholder.back_blank,
      g.placeholder.name_trimmed]
  rw [pieces]
  split
  · next heq => rw [hopen] at heq; cases heq
  · next heq =>
    rw [hopen] at heq
    cases heq
    split
    · next heq => rw [hclose] at heq; cases heq
    · next heq =>
      rw [hclose] at heq
      cases heq
      rw [hname]
      rfl

/-- **A template is taken apart into the parts that it was put together from.** -/
theorem Assembly.pieces_text (t : Assembly) :
    pieces t.text.toList = t.segments.flatMap Segment.pieces ++ [.literal t.tail] := by
  obtain ⟨segments, tail, htail⟩ := t
  rw [text, String.toList_ofList]
  induction segments with
  | nil => exact pieces_of_isUnclosed htail
  | cons g segments ih =>
    rw [List.flatMap_cons, List.append_assoc, pieces_segment_append, ih, List.flatMap_cons,
      List.append_assoc]

/-- **Every template is put together from parts.** -/
theorem exists_assembly (template : String) : ∃ t : Assembly, t.text = template := by
  suffices h : ∀ cs : List Char, ∃ t : Assembly, t.segments.flatMap Segment.text ++ t.tail = cs by
    obtain ⟨t, ht⟩ := h template.toList
    exact ⟨t, by rw [Assembly.text, ht, String.ofList_toList]⟩
  intro cs
  fun_induction pieces cs with
  | case1 cs hopen =>
    exact ⟨⟨[], cs, isUnclosed_iff.2 (by simp [hopen])⟩, rfl⟩
  | case2 cs before rest hopen hclose =>
    exact ⟨⟨[], cs, isUnclosed_iff.2 (by simp [hopen, hclose])⟩, rfl⟩
  | case3 cs before rest hopen inner after hclose ih =>
    obtain ⟨t, ht⟩ := ih
    obtain ⟨rfl, hliteral⟩ := eq_append_of_cutAtDouble hopen
    obtain ⟨rfl, hinner⟩ := eq_append_of_cutAtDouble hclose
    obtain ⟨front, back, heq, hfront, hback⟩ := Text.exists_eq_append_trim inner
    let g : Segment := ⟨before, hliteral,
      ⟨front, Text.trim inner, back, hfront, hback, Text.trim_trim inner, heq ▸ hinner⟩⟩
    refine ⟨⟨g :: t.segments, t.tail, t.tail_unclosed⟩, ?_⟩
    rw [List.flatMap_cons, List.append_assoc, ht]
    simp [Segment.text, Placeholder.text, g, ← heq]

/-! ## Values -/

section Values

variable {name value : String}

/-- The name is that of a variable, and this is the value that it has. -/
def HasValue (bindings : Bindings) (name value : String) : Prop :=
  ∃ v : Variable, v.name = name ∧ bindings v = some value

theorem ofName?_eq_some_iff {v : Variable} : Variable.ofName? name = some v ↔ v.name = name := by
  constructor
  · intro h
    simpa using List.find?_some h
  · rintro rfl
    exact v.ofName?_name

theorem lookUp_eq_ok_iff : lookUp bindings name = .ok value ↔ HasValue bindings name value := by
  unfold lookUp HasValue
  simp only [← ofName?_eq_some_iff]
  cases Variable.ofName? name with
  | none => simp
  | some v => cases hv : bindings v <;> simp [hv]

/-- A name without a value is at fault, as no variable or as one that has none. -/
theorem nameFault?_of_not_hasValue (h : ¬∃ value, HasValue bindings name value) :
    ∃ e, nameFault? (domain bindings) name = some e ∧ e.name = name ∧
      ((∀ v : Variable, v.name ≠ name) ∧ e = .notAllowed name ∨
        (∃ v : Variable, v.name = name) ∧ e = .notAvailable name) := by
  simp only [HasValue, ← ofName?_eq_some_iff] at h ⊢
  simp only [ne_eq, ← ofName?_eq_some_iff]
  unfold nameFault? domain
  cases hname : Variable.ofName? name with
  | none => exact ⟨_, rfl, rfl, .inl ⟨by simp, rfl⟩⟩
  | some v =>
    have hv : bindings v = none := by
      refine Option.eq_none_iff_forall_ne_some.2 fun value hvalue => h ⟨value, v, hname, hvalue⟩
    refine ⟨.notAvailable name, ?_, rfl, .inr ⟨⟨v, rfl⟩, rfl⟩⟩
    simp [hv]

theorem nameFault?_eq_none (h : ∃ value, HasValue bindings name value) :
    nameFault? (domain bindings) name = none := by
  obtain ⟨value, v, rfl, hv⟩ := h
  simp [nameFault?, v.ofName?_name, domain, hv]

end Values

/-! ## Rendering what was put together -/

theorem renderPieces_segments {segments : List Segment} {value : String → String}
    (h : ∀ g ∈ segments, HasValue bindings g.name (value g.name)) (tail : List Char) :
    renderPieces bindings (segments.flatMap Segment.pieces ++ [.literal tail])
      = .ok (segments.flatMap (fun g => g.literal ++ (value g.name).toList) ++ tail) := by
  induction segments with
  | nil => simp [renderPieces, renderPiece, bind, Except.bind]
  | cons g segments ih =>
    obtain ⟨hg, hsegments⟩ := List.forall_mem_cons.1 h
    have hvalue : lookUp bindings (String.ofList g.placeholder.name) = .ok (value g.name) :=
      lookUp_eq_ok_iff.2 hg
    simp [Segment.pieces, renderPieces, renderPiece, hvalue, ih hsegments, bind, Except.bind,
      Except.map]

theorem findSome?_pieces_eq_none {segments : List Segment}
    (h : ∀ g ∈ segments, ∃ value, HasValue bindings g.name value) :
    (segments.flatMap Segment.pieces).findSome? (pieceFault? (domain bindings)) = none := by
  rw [List.findSome?_eq_none_iff]
  intro piece hpiece
  obtain ⟨g, hg, hpiece⟩ := List.mem_flatMap.1 hpiece
  rcases List.mem_pair.1 hpiece with rfl | rfl
  · rfl
  · exact nameFault?_eq_none (h g hg)

namespace Assembly

/-- **Values stand in the place of the placeholders as they are.** -/
theorem render_text (t : Assembly) {value : String → String}
    (h : ∀ g ∈ t.segments, HasValue bindings g.name (value g.name)) :
    render t.text bindings = .ok (t.fill value) := by
  rw [render, pieces_text, renderPieces_segments h]
  rfl

/-- **The first placeholder without a value is the error.** -/
theorem exists_render_eq_error (t : Assembly) {earlier later : List Segment} {g : Segment}
    (ht : t.segments = earlier ++ g :: later)
    (hearlier : ∀ other ∈ earlier, ∃ value, HasValue bindings other.name value)
    (hg : ¬∃ value, HasValue bindings g.name value) :
    ∃ e, render t.text bindings = .error e ∧ e.name = g.name ∧
      ((∀ v : Variable, v.name ≠ g.name) ∧ e = .notAllowed g.name ∨
        (∃ v : Variable, v.name = g.name) ∧ e = .notAvailable g.name) := by
  obtain ⟨e, hfault, hname, hcause⟩ := nameFault?_of_not_hasValue hg
  have hpieces : g.pieces.findSome? (pieceFault? (domain bindings)) = some e := by
    rw [Segment.pieces, List.findSome?_cons, List.findSome?_cons]
    simp only [pieceFault?]
    rw [← Segment.name, hfault]
  refine ⟨e, ?_, hname, hcause⟩
  rw [render_eq_error_iff, firstFault?, pieces_text, ht, List.flatMap_append, List.flatMap_cons,
    List.append_assoc, List.append_assoc, List.findSome?_append, findSome?_pieces_eq_none hearlier,
    Option.none_or, List.findSome?_append, hpieces, Option.some_or]

/-- **Each placeholder is replaced once, by its value as it is.** A template that was put together
from literal texts and placeholders is rendered as the literal texts with the values of the
placeholders in their place, whatever the values are; if a placeholder has no value, the first one
like that is the error. Every template is put together in this way. -/
theorem render_assembled (t : Assembly) (bindings : Bindings) :
    (∀ value : String → String, (∀ g ∈ t.segments, HasValue bindings g.name (value g.name)) →
        render t.text bindings = .ok (t.fill value)) ∧
      (∀ earlier g later, t.segments = earlier ++ g :: later →
        (∀ other ∈ earlier, ∃ value, HasValue bindings other.name value) →
        (¬∃ value, HasValue bindings g.name value) →
        ∃ e, render t.text bindings = .error e ∧ e.diagnostic.kind = .templateInvalid ∧
          e.diagnostic.detail? "variable" = some g.name ∧
          ((∀ v : Variable, v.name ≠ g.name) ∧ e = .notAllowed g.name ∨
            (∃ v : Variable, v.name = g.name) ∧ e = .notAvailable g.name)) ∧
      ∀ template : String, ∃ t : Assembly, t.text = template := by
  refine ⟨fun _ => t.render_text, fun earlier g later ht hearlier hg => ?_, exists_assembly⟩
  obtain ⟨e, herror, hname, hcause⟩ := t.exists_render_eq_error ht hearlier hg
  exact ⟨e, herror, rfl, congrArg some hname, hcause⟩

/-- A brace behind a placeholder is text, and so are braces in a value and those that are never
closed. Of two placeholders without values the first is the error. -/
theorem render_assembled_braces :
    let bindings : Bindings
      | .pattern => some "\x7b\x7bCHOICE\x7d\x7d"
      | .choice => some "\x7d\x7d"
      | _ => none
    render "a\x7b\x7b PATTERN\t\x7d\x7d\x7d\x7b\x7bCHOICE\x7d\x7d\x7b\x7b" bindings
        = .ok "a\x7b\x7bCHOICE\x7d\x7d\x7d\x7d\x7d\x7b\x7b" ∧
      ∃ e, render "\x7b\x7bCHOICE\x7d\x7d\x7b\x7b EXAMPLES\x7d\x7d\x7b\x7bx\x7d\x7d" bindings
          = .error e ∧
        e.diagnostic.kind = .templateInvalid ∧
        e.diagnostic.detail? "variable" = some "EXAMPLES" := by
  intro bindings
  let pattern : Placeholder := ⟨[' '], "PATTERN".toList, ['\t'], List.forall_mem_singleton.2 rfl,
    List.forall_mem_singleton.2 rfl, by decide +kernel, by decide +kernel⟩
  let choice : Placeholder := ⟨[], "CHOICE".toList, [], List.forall_mem_nil _,
    List.forall_mem_nil _, by decide +kernel, by decide +kernel⟩
  let examples : Placeholder := ⟨[' '], "EXAMPLES".toList, [],
    List.forall_mem_singleton.2 rfl, List.forall_mem_nil _, by decide +kernel, by decide +kernel⟩
  let unknown : Placeholder := ⟨[], ['x'], [], List.forall_mem_nil _, List.forall_mem_nil _,
    by decide +kernel, by decide +kernel⟩
  let valued : Assembly :=
    ⟨[⟨['a'], by decide, pattern⟩, ⟨['\x7d'], by decide, choice⟩], ['\x7b', '\x7b'], by decide⟩
  let first : Segment := ⟨[], by decide, choice⟩
  let second : Segment := ⟨[], by decide, examples⟩
  let faulty : Assembly := ⟨[first, second, ⟨[], by decide, unknown⟩], [], by decide⟩
  let value (name : String) : String :=
    if name = "PATTERN" then "\x7b\x7bCHOICE\x7d\x7d" else "\x7d\x7d"
  have hvalued : ∀ g ∈ valued.segments, HasValue bindings g.name (value g.name) := by
    intro g hg
    rcases List.mem_pair.1 hg with rfl | rfl
    · exact ⟨.pattern, by decide +kernel, by decide +kernel⟩
    · exact ⟨.choice, by decide +kernel, by decide +kernel⟩
  have hfirst : ∀ other ∈ [first], ∃ value, HasValue bindings other.name value := by
    intro other hother
    obtain rfl := List.mem_singleton.1 hother
    exact ⟨"\x7d\x7d", .choice, by decide +kernel, rfl⟩
  have hsecond : ¬∃ value, HasValue bindings second.name value := by
    rintro ⟨value, v, hname, hv⟩
    have hexamples : Variable.ofName? second.name = some .examples := by decide +kernel
    obtain rfl := Option.some.inj ((ofName?_eq_some_iff.2 hname).symm.trans hexamples)
    cases hv
  have hvaluedText : valued.text
      = "a\x7b\x7b PATTERN\t\x7d\x7d\x7d\x7b\x7bCHOICE\x7d\x7d\x7b\x7b" := by decide +kernel
  have hfill : valued.fill value
      = "a\x7b\x7bCHOICE\x7d\x7d\x7d\x7d\x7d\x7b\x7b" := by decide +kernel
  have hfaultyText : faulty.text
      = "\x7b\x7bCHOICE\x7d\x7d\x7b\x7b EXAMPLES\x7d\x7d\x7b\x7bx\x7d\x7d" := by decide +kernel
  have hname : second.name = "EXAMPLES" := by decide +kernel
  have hok := (render_assembled valued bindings).1 value hvalued
  obtain ⟨e, herror, hkind, hdetail, -⟩ :=
    (render_assembled faulty bindings).2.1 [first] second _ rfl hfirst hsecond
  rw [hvaluedText, hfill] at hok
  rw [hfaultyText] at herror
  rw [hname] at hdetail
  exact ⟨hok, e, herror, hkind, hdetail⟩

end Assembly

end StackSeq.Template
