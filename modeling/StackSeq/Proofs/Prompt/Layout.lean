import StackSeq.Prompt.Layout
import StackSeq.Proofs.Problem.Answer
import StackSeq.Proofs.Prompt.Label
import StackSeq.Proofs.Sequence.Text
import StackSeq.Proofs.Text.Lines

/-!
# What is shown

The choices are shown in some order (`choices_perm`), the correct sequence at one place only
(`getElem?_choices_eq_correct_iff`). That is the choice marked as correct if the place of the layout
is one of the choices, and only then is there a marked one (`order_and_mark_agree_iff`).

Each choice is a line by itself behind a label of its own (`lines_choicesText`), and a line tells
which choice it shows behind which label (`mem_lines_choicesText_iff`).
-/

namespace StackSeq.Layout

variable {l : Layout} {p : Problem} {choice : Sequence} {index : Nat}

/-! ## The order of the choices -/

/-- The foils keep their order, with the correct sequence put in at its place. -/
theorem exists_choices_eq_append (l : Layout) (p : Problem) : ∃ before after,
    p.foils.map Foil.sequence = before ++ after ∧
      before.length = min l.correctIndex p.foils.length ∧
      l.choices p = before ++ p.correct :: after := by
  refine List.exists_of_modifyTailIdx (List.cons p.correct) ?_
  rw [List.length_map]
  exact Nat.min_le_right ..

theorem choices_perm (l : Layout) (p : Problem) : (l.choices p).Perm p.choices := by
  obtain ⟨before, after, hfoils, -, hchoices⟩ := l.exists_choices_eq_append p
  rw [hchoices, Problem.choices, hfoils]
  exact List.perm_middle

theorem length_choices (l : Layout) (p : Problem) : (l.choices p).length = p.choiceCount := by
  rw [(l.choices_perm p).length_eq, Problem.choices, List.length_cons, List.length_map,
    Problem.choiceCount]

/-- The correct sequence is at the place of the layout or, where there is no such place, last. -/
theorem getElem?_choices_min (l : Layout) (p : Problem) :
    (l.choices p)[min l.correctIndex p.foils.length]? = some p.correct := by
  obtain ⟨before, after, -, hlength, hchoices⟩ := l.exists_choices_eq_append p
  rw [hchoices, ← hlength, List.getElem?_append_right (Nat.le_refl _), Nat.sub_self]
  rfl

/-- **The correct sequence is at one place only.** -/
theorem getElem?_choices_eq_correct_iff (h : p.choices.Nodup) :
    (l.choices p)[index]? = some p.correct ↔ index = min l.correctIndex p.foils.length := by
  refine ⟨fun hindex => ?_, fun hindex => hindex ▸ l.getElem?_choices_min p⟩
  obtain ⟨hlt, -⟩ := List.getElem?_eq_some_iff.1 hindex
  exact (List.getElem?_inj hlt ((l.choices_perm p).nodup_iff.2 h)).1
    (hindex.trans (l.getElem?_choices_min p).symm)

/-! ## The marked choice -/

/-- Where the place of the layout is one of the choices, the correct sequence is the one marked. -/
theorem isCorrect_iff_of_lt (h : p.choices.Nodup) (hlt : l.correctIndex < p.choiceCount) :
    l.isCorrect index = true ↔ (l.choices p)[index]? = some p.correct := by
  have hle : l.correctIndex ≤ p.foils.length := Nat.le_of_lt_succ hlt
  rw [getElem?_choices_eq_correct_iff h, isCorrect, beq_iff_eq, Nat.min_eq_left hle]

theorem isCorrect_atSlot_iff (h : p.choices.Nodup) (slot : Nat) :
    (atSlot p slot).isCorrect index = true ↔ ((atSlot p slot).choices p)[index]? = some p.correct :=
  isCorrect_iff_of_lt h (Nat.lt_succ_of_le (Nat.min_le_right ..))

/-- A choice is marked exactly if the place of the layout is one of the choices. -/
theorem existsUnique_isCorrect_iff :
    (∃! index, index < p.choiceCount ∧ l.isCorrect index = true)
      ↔ l.correctIndex < p.choiceCount := by
  simp only [isCorrect, beq_iff_eq]
  constructor
  · rintro ⟨_, ⟨hlt, rfl⟩, -⟩
    exact hlt
  · exact fun hlt => ⟨l.correctIndex, ⟨hlt, rfl⟩, fun _ hindex => hindex.2⟩

/-- **The order and the mark agree exactly for places among the choices.** The order has the correct
sequence among the foils once, whatever the place. -/
theorem order_and_mark_agree_iff (h : p.choices.Nodup) (l : Layout) :
    (∃ before after, p.foils.map Foil.sequence = before ++ after ∧
      before.length = min l.correctIndex p.foils.length ∧
      l.choices p = before ++ p.correct :: after) ∧
    (l.choices p).count p.correct = 1 ∧
    ((∀ index < p.choiceCount,
        (l.isCorrect index = true ↔ (l.choices p)[index]? = some p.correct)) ↔
      l.correctIndex < p.choiceCount) ∧
    ((∃! index, index < p.choiceCount ∧ l.isCorrect index = true) ↔
      l.correctIndex < p.choiceCount) := by
  refine ⟨l.exists_choices_eq_append p, ?_, ⟨fun hagree => ?_, fun hlt index _ => ?_⟩,
    existsUnique_isCorrect_iff⟩
  · rw [(l.choices_perm p).count_eq]
    exact List.count_eq_one_of_mem h List.mem_cons_self
  · -- The choice that is correct in the order has to be the one that is marked.
    have hlt : min l.correctIndex p.foils.length < p.choiceCount :=
      Nat.lt_succ_of_le (Nat.min_le_right ..)
    have hmarked := (hagree _ hlt).2 (l.getElem?_choices_min p)
    rw [isCorrect, beq_iff_eq] at hmarked
    rwa [hmarked] at hlt
  · exact isCorrect_iff_of_lt h hlt

/-- Three choices: a place among them, and the first one beyond them. -/
theorem order_and_mark_agree_iff_differences :
    let p : Problem :=
      { program := "6", seedLen := 2, examples := [[2, 1, 1, 0, 1, -1]]
        correct := [1, 2, -1, 3, -4, 7]
        foils := [⟨[1, 2, -1, 3, -4, 3], "496"⟩, ⟨[1, 2, -3, -7, -52, -2711], "a76"⟩] }
    p.choices.Nodup ∧
      (∀ index < 3, ((⟨2⟩ : Layout).isCorrect index = true ↔
        ((⟨2⟩ : Layout).choices p)[index]? = some p.correct)) ∧
      ¬∃! index, index < 3 ∧ (⟨3⟩ : Layout).isCorrect index = true := by
  intro p
  have hnodup : p.choices.Nodup := by decide
  have hwithin := (order_and_mark_agree_iff hnodup ⟨2⟩).2.2.1.2 (by decide)
  have hbeyond := (order_and_mark_agree_iff hnodup ⟨3⟩).2.2.2
  exact ⟨hnodup, hwithin, fun hmarked => absurd (hbeyond.1 hmarked) (by decide)⟩

/-- A place beyond the choices marks none of them, though the correct sequence is shown last. -/
theorem not_order_and_mark_agree :
    ¬∀ (p : Problem) (l : Layout), p.choices.Nodup → ∀ index < p.choiceCount,
      (l.isCorrect index = true ↔ (l.choices p)[index]? = some p.correct) := by
  intro hagree
  let p : Problem :=
    { program := "6", seedLen := 2, examples := [[2, 1, 1, 0, 1, -1]]
      correct := [1, 2, -1, 3, -4, 7]
      foils := [⟨[1, 2, -1, 3, -4, 3], "496"⟩, ⟨[1, 2, -3, -7, -52, -2711], "a76"⟩] }
  have hshown : ((⟨3⟩ : Layout).choices p)[2]? = some p.correct := by decide
  have hunmarked : ¬(⟨3⟩ : Layout).isCorrect 2 = true := by decide
  exact hunmarked ((hagree p ⟨3⟩ (by decide) 2 (by decide)).2 hshown)

/-! ## The lines -/

theorem toList_choiceLine (index : Nat) (choice : Sequence) :
    (choiceLine index choice).toList
      = '(' :: Label.letters index ++ ')' :: ' ' :: choice.text.toList := by
  have hopen : "(".toList = ['('] := rfl
  have hclose : ") ".toList = [')', ' '] := rfl
  simp [choiceLine, Label.ofIndex, hopen, hclose]

/-- A line shows a label and a choice. -/
theorem choiceLine_injective {other : Nat} {shown : Sequence}
    (h : choiceLine index choice = choiceLine other shown) : index = other ∧ choice = shown := by
  have hlabel : ∀ n, ')' ∉ '(' :: Label.letters n := fun n hmem => by
    rcases List.mem_cons.1 hmem with hmem | hmem
    · exact absurd hmem (by decide)
    · exact Label.notMem_letters (by decide) n hmem
  have hcut := congrArg (fun s => Text.cutAt ')' s.toList) h
  simp only [toList_choiceLine, Text.cutAt_append_cons (hlabel _), Option.some.injEq,
    Prod.mk.injEq, List.cons.injEq, true_and] at hcut
  exact ⟨Label.letters_injective hcut.1, Sequence.text_injective (String.toList_injective hcut.2)⟩

theorem mem_choiceLine {c : Char} (h : c ∈ (choiceLine index choice).toList) :
    Response.isCapital c = true ∨ c.isDigit = true ∨ c ∈ ['(', ')', ' ', '-'] := by
  simp only [toList_choiceLine, List.mem_append, List.mem_cons] at h
  rcases h with (rfl | h) | rfl | rfl | h
  · exact .inr (.inr (by decide))
  · exact .inl (Label.isCapital_of_mem_letters h)
  · exact .inr (.inr (by decide))
  · exact .inr (.inr (by decide))
  · rcases Sequence.isDigit_or_of_mem_text h with h | rfl | rfl
    · exact .inr (.inl h)
    · exact .inr (.inr (by decide))
    · exact .inr (.inr (by decide))

theorem isLine_choiceLine (index : Nat) (choice : Sequence) :
    Text.IsLine (choiceLine index choice).toList :=
  .of_notMem (by rw [toList_choiceLine]; exact List.cons_ne_nil _ _)
    (fun h => absurd (mem_choiceLine h) (by decide))
    (fun h => absurd (mem_choiceLine h) (by decide))

/-- **The lines are those of the choices** in a row. -/
theorem lines_choicesText (l : Layout) (p : Problem) :
    Text.lines (l.choicesText p).toList = ((l.choices p).mapIdx choiceLine).map String.toList := by
  refine Text.lines_join fun s hs => ?_
  obtain ⟨index, _, rfl⟩ := List.mem_mapIdx.1 hs
  exact isLine_choiceLine index _

/-- **What a line shows.** -/
theorem mem_lines_choicesText_iff :
    (choiceLine index choice).toList ∈ Text.lines (l.choicesText p).toList
      ↔ (l.choices p)[index]? = some choice := by
  rw [lines_choicesText, List.mem_map_of_injective fun _ _ => String.toList_injective,
    List.mem_mapIdx]
  constructor
  · rintro ⟨other, hlt, heq⟩
    obtain ⟨rfl, rfl⟩ := choiceLine_injective heq
    exact List.getElem?_eq_getElem hlt
  · intro h
    obtain ⟨hlt, rfl⟩ := List.getElem?_eq_some_iff.1 h
    exact ⟨index, hlt, rfl⟩

end StackSeq.Layout
