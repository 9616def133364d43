import Mathlib.Data.List.Basic
import Mathlib.Data.List.Induction
import StackSeq.Proofs.Text.Words
import StackSeq.Text.Pieces

/-!
# Lines of composed texts

What `lines` gives for a text that was put together from parts. Text that ends a line (`EndsLine`)
can be cut off in front: `lines_append`. Text without the end of a line in it (`IsLine`) is a line
where the text or the line ends behind it, `IsLine.lines_append`, so such texts are the lines of
what they make up when they are joined with line feeds: `lines_join`. The other way round, a line is
a part of the text: `infix_of_mem_lines`.
-/

namespace StackSeq.Text

variable {isSeparator : Char → Bool} {line piece before rest cs : List Char}

/-! ## Parts of a text -/

/-- The first piece is where the text begins, and every piece is a part of it. -/
theorem exists_fields_eq_cons (isSeparator : Char → Bool) (cs : List Char) :
    ∃ piece pieces, fields isSeparator cs = piece :: pieces ∧ piece <+: cs ∧
      ∀ other ∈ pieces, other <:+: cs := by
  induction cs with
  | nil => exact ⟨[], [], rfl, List.prefix_rfl, List.forall_mem_nil _⟩
  | cons c cs ih =>
    obtain ⟨piece, pieces, heq, hfirst, hothers⟩ := ih
    have hothers' : ∀ other ∈ pieces, other <:+: c :: cs :=
      fun other h => (hothers other h).trans (List.suffix_cons c cs).isInfix
    rw [fields, heq]
    split
    · refine ⟨[], piece :: pieces, rfl, List.nil_prefix, List.forall_mem_cons.2 ⟨?_, hothers'⟩⟩
      exact hfirst.isInfix.trans (List.suffix_cons c cs).isInfix
    · exact ⟨c :: piece, pieces, rfl, (List.prefix_cons_inj c).2 hfirst, hothers'⟩

theorem infix_of_mem_fields (h : piece ∈ fields isSeparator cs) : piece <:+: cs := by
  obtain ⟨first, pieces, heq, hfirst, hothers⟩ := exists_fields_eq_cons isSeparator cs
  rw [heq] at h
  rcases List.mem_cons.1 h with rfl | h
  · exact hfirst.isInfix
  · exact hothers piece h

theorem isPrefix_dropReturn (line : List Char) : dropReturn line <+: line := by
  unfold dropReturn
  split
  · exact List.dropLast_prefix line
  · exact List.prefix_rfl

/-- **A line is a part of the text.** -/
theorem infix_of_mem_lines (h : line ∈ lines cs) : line <:+: cs := by
  rcases List.mem_append.1 h with h | h
  · obtain ⟨piece, hpiece, rfl⟩ := List.mem_map.1 h
    exact (isPrefix_dropReturn piece).isInfix.trans
      (infix_of_mem_fields (List.dropLast_subset _ hpiece))
  · have hlast : (fields (· == '\n') cs).getLast? = some line := by
      unfold openLine at h
      split at h
      · next heq => rw [heq, List.mem_singleton.1 h]
      · cases h
    exact infix_of_mem_fields (List.mem_of_getLast? hlast)

/-! ## Texts in a row -/

/-- Text that is a line by itself. -/
structure IsLine (cs : List Char) : Prop where
  ne_nil : cs ≠ []
  feed_notMem : '\n' ∉ cs
  getLast?_ne : cs.getLast? ≠ some '\r'

theorem IsLine.of_notMem (hne : cs ≠ []) (hfeed : '\n' ∉ cs) (hreturn : '\r' ∉ cs) : IsLine cs :=
  ⟨hne, hfeed, fun h => hreturn (List.mem_of_getLast? h)⟩

/-- Text that ends a line, so that what follows starts a new one. -/
def EndsLine (cs : List Char) : Prop := cs = [] ∨ cs.getLast? = some '\n'

/-- What can follow a line: the end of the text, or text that begins with the end of the line. -/
def StartsLineEnd (cs : List Char) : Prop := cs = [] ∨ ['\n'] <+: cs ∨ ['\r', '\n'] <+: cs

/-- A line feed between two texts ends the last line of the first. -/
theorem lines_append_cons (cs ds : List Char) :
    lines (cs ++ '\n' :: ds) = (fields (· == '\n') cs).map dropReturn ++ lines ds := by
  have hne := fields_ne_nil (· == '\n') ds
  rw [lines, fields_append_cons (by decide), List.dropLast_append_of_ne_nil hne,
    List.getLast?_append_of_ne_nil _ hne, List.map_append, List.append_assoc, lines]

theorem lines_append (h : EndsLine before) (rest : List Char) :
    lines (before ++ rest) = lines before ++ lines rest := by
  rcases h with rfl | h
  · rfl
  · obtain ⟨cs, rfl⟩ := List.getLast?_eq_some_iff.1 h
    rw [List.append_assoc, List.singleton_append, lines_append_cons, lines_append_cons, lines_nil,
      List.append_nil]

theorem fields_of_notMem (h : '\n' ∉ line) : fields (· == '\n') line = [line] :=
  fields_of_forall_not fun _ hc => beq_eq_false_iff_ne.2 fun heq => h (heq ▸ hc)

theorem lines_of_notMem (h : '\n' ∉ line) : lines line = openLine (some line) := by
  rw [lines, fields_of_notMem h]
  rfl

theorem lines_append_cons_of_notMem (h : '\n' ∉ line) (rest : List Char) :
    lines (line ++ '\n' :: rest) = dropReturn line :: lines rest := by
  rw [lines_append_cons, fields_of_notMem h, List.map_singleton, List.singleton_append]

theorem lines_append_return_cons_of_notMem (h : '\n' ∉ line) (rest : List Char) :
    lines (line ++ '\r' :: '\n' :: rest) = line :: lines rest := by
  have hfeed : '\n' ∉ line ++ ['\r'] := by simp [h]
  have hdrop : dropReturn (line ++ ['\r']) = line := by
    rw [dropReturn, if_pos List.getLast?_concat, List.dropLast_concat]
  rw [List.append_cons, lines_append_cons_of_notMem hfeed, hdrop]

namespace IsLine

variable (h : IsLine line)

include h

theorem lines_eq : lines line = [line] := by
  obtain ⟨c, cs, rfl⟩ := List.exists_cons_of_ne_nil h.ne_nil
  rw [lines_of_notMem h.feed_notMem, openLine]

theorem lines_append_cons (rest : List Char) :
    lines (line ++ '\n' :: rest) = line :: lines rest := by
  rw [lines_append_cons_of_notMem h.feed_notMem, dropReturn, if_neg h.getLast?_ne]

theorem lines_append_return_cons (rest : List Char) :
    lines (line ++ '\r' :: '\n' :: rest) = line :: lines rest :=
  lines_append_return_cons_of_notMem h.feed_notMem rest

/-- **A line stands by itself** in front of the end of the line. -/
theorem lines_append (hrest : StartsLineEnd rest) :
    lines (line ++ rest) = line :: (lines rest).tail := by
  rcases hrest with rfl | ⟨ds, rfl⟩ | ⟨ds, rfl⟩
  · rw [List.append_nil, h.lines_eq, lines_nil, List.tail_nil]
  · have hend : lines (['\n'] ++ ds) = [] :: lines ds :=
      lines_append_cons_of_notMem List.not_mem_nil ds
    rw [hend, List.tail_cons]
    exact h.lines_append_cons ds
  · have hend : lines (['\r', '\n'] ++ ds) = [] :: lines ds :=
      lines_append_cons_of_notMem (by decide : '\n' ∉ ['\r']) ds
    rw [hend, List.tail_cons]
    exact h.lines_append_return_cons ds

end IsLine

/-! ## Texts behind an open line -/

/-- Every text is made up of lines that have ended and an open one. -/
theorem exists_endsLine_append (cs : List Char) :
    ∃ before line, cs = before ++ line ∧ EndsLine before ∧ '\n' ∉ line := by
  induction cs using List.reverseRecOn with
  | nil => exact ⟨[], [], rfl, .inl rfl, List.not_mem_nil⟩
  | append_singleton cs c ih =>
    by_cases hc : c = '\n'
    · exact ⟨cs ++ [c], [], (List.append_nil _).symm, .inr (hc ▸ List.getLast?_concat),
        List.not_mem_nil⟩
    · obtain ⟨before, line, rfl, hbefore, hline⟩ := ih
      refine ⟨before, line ++ [c], List.append_assoc _ _ _, hbefore, ?_⟩
      simp [hline, Ne.symm hc]

/-- To end an open line adds a line only if there was nothing in it. -/
theorem exists_openLine_append (line : List Char) :
    ∃ blank : List (List Char), (∀ other ∈ blank, other = []) ∧
      [line] = openLine (some line) ++ blank := by
  cases line with
  | nil => exact ⟨[[]], fun _ => List.mem_singleton.1, rfl⟩
  | cons c cs => exact ⟨[], List.forall_mem_nil _, rfl⟩

/-- What ends the open line of a text keeps the lines of the text. -/
theorem lines_append_of_ends {ending : List Char} (h : ∀ before line, cs = before ++ line →
    '\n' ∉ line → lines (line ++ ending) = line :: lines rest) :
    ∃ blank : List (List Char), (∀ other ∈ blank, other = []) ∧
      lines (cs ++ ending) = lines cs ++ blank ++ lines rest := by
  obtain ⟨before, line, rfl, hbefore, hline⟩ := exists_endsLine_append cs
  obtain ⟨blank, hblank, hopen⟩ := exists_openLine_append line
  refine ⟨blank, hblank, ?_⟩
  calc lines (before ++ line ++ ending)
      = lines before ++ ([line] ++ lines rest) := by
        rw [List.append_assoc, lines_append hbefore, h before line rfl hline, List.singleton_append]
    _ = lines (before ++ line) ++ blank ++ lines rest := by
        rw [lines_append hbefore, lines_of_notMem hline, hopen]
        simp only [List.append_assoc]

/-- A line feed behind a text keeps its lines, unless it makes a carriage return part of a line's
end. -/
theorem lines_append_feed (h : cs.getLast? ≠ some '\r') (rest : List Char) :
    ∃ blank : List (List Char), (∀ other ∈ blank, other = []) ∧
      lines (cs ++ '\n' :: rest) = lines cs ++ blank ++ lines rest := by
  refine lines_append_of_ends fun before line hcs hline => ?_
  have hreturn : ¬line.getLast? = some '\r' := by
    rintro hreturn
    rw [hcs, List.getLast?_append, hreturn, Option.some_or] at h
    exact h rfl
  rw [lines_append_cons_of_notMem hline, dropReturn, if_neg hreturn]

/-- A carriage return and a line feed behind a text keep its lines. -/
theorem lines_append_return_feed (cs rest : List Char) :
    ∃ blank : List (List Char), (∀ other ∈ blank, other = []) ∧
      lines (cs ++ '\r' :: '\n' :: rest) = lines cs ++ blank ++ lines rest :=
  lines_append_of_ends fun _ _ _ hline => lines_append_return_cons_of_notMem hline rest

/-- **Lines that are joined with line feeds are the lines** of what they make up. -/
theorem lines_join {texts : List String} (h : ∀ s ∈ texts, IsLine s.toList) :
    lines (join "\n" texts).toList = texts.map String.toList := by
  fun_induction join "\n" texts with
  | case1 => rfl
  | case2 s => exact (h s List.mem_cons_self).lines_eq
  | case3 s t rest ih =>
    obtain ⟨hs, hrest⟩ := List.forall_mem_cons.1 h
    rw [String.toList_append, String.toList_append, List.append_assoc]
    show lines (s.toList ++ '\n' :: (join "\n" (t :: rest)).toList) = _
    rw [hs.lines_append_cons, ih hrest]
    rfl

end StackSeq.Text
