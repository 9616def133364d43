import StackSeq.Proofs.Prompt.Layout
import StackSeq.Proofs.Prompt.Response

/-!
# Grading

A solver sees the lines of the choices and answers with the label of one of them. Whatever text
stands around the answer line, the answer is graded as the choice that is shown behind the label,
and it is right exactly if that is the correct sequence: `graded_as_shown`. The one label that
cannot be used is `NONE`, which says that no choice fits.
-/

namespace StackSeq.Layout

variable {l : Layout} {p : Problem} {choice : Sequence}

/-- Distinct choices are shown on one line each. -/
theorem existsUnique_mem_lines (l : Layout) (h : p.choices.Nodup) (hc : choice ∈ p.choices) :
    ∃! index, (choiceLine index choice).toList ∈ Text.lines (l.choicesText p).toList := by
  obtain ⟨index, hindex⟩ := List.mem_iff_getElem?.1 ((l.choices_perm p).mem_iff.2 hc)
  refine ⟨index, mem_lines_choicesText_iff.2 hindex, fun other hother => ?_⟩
  obtain ⟨hlt, -⟩ := List.getElem?_eq_some_iff.1 hindex
  have hsame := hindex.trans (mem_lines_choicesText_iff.1 hother).symm
  exact ((List.getElem?_inj hlt ((l.choices_perm p).nodup_iff.2 h)).1 hsame).symm

/-- **Answers are graded by what is shown behind their label**, in a problem that passes the
check. -/
theorem graded_as_shown (h : p.check = .ok ()) (slot : Nat) :
    let l := atSlot p slot
    let shown := Text.lines (l.choicesText p).toList
    (l.choices p).Perm p.choices ∧ shown = ((l.choices p).mapIdx choiceLine).map String.toList ∧
      (∀ choice ∈ p.choices, ∃! index, (choiceLine index choice).toList ∈ shown) ∧
      ((List.range p.choiceCount).map Label.ofIndex).Nodup ∧
      ∀ index : UInt64, index.toNat < p.choiceCount →
        (∃ choice, (choiceLine index.toNat choice).toList ∈ shown) ∧
        (∀ choice, (choiceLine index.toNat choice).toList ∈ shown →
          (l.isCorrect index.toNat = true ↔ choice = p.correct)) ∧
        (Label.ofIndex index.toNat ≠ "NONE" →
          ∀ earlier later : String, Text.EndsLine earlier.toList →
            Text.StartsLineEnd later.toList → ¬"MATCH: ".toList <:+: later.toList →
            Response.choice (earlier ++ "MATCH: (" ++ Label.ofIndex index.toNat ++ ")" ++ later)
              = .ok (some index.toNat)) := by
  intro l shown
  obtain ⟨pattern, hrules⟩ := Problem.check_eq_ok_iff.1 h
  have hnodup := hrules.nodup_choices
  refine ⟨l.choices_perm p, lines_choicesText l p, fun choice => existsUnique_mem_lines l hnodup,
    List.nodup_range.map fun _ _ => Label.ofIndex_injective, fun index hindex => ⟨?_, ?_, ?_⟩⟩
  · have hlt : index.toNat < (l.choices p).length := (l.length_choices p).symm ▸ hindex
    exact ⟨_, mem_lines_choicesText_iff.2 (List.getElem?_eq_getElem hlt)⟩
  · intro choice hshown
    rw [isCorrect_atSlot_iff hnodup, mem_lines_choicesText_iff.1 hshown, Option.some.injEq]
  · intro hnone earlier later hearlier hlater hmarker
    exact Response.choice_answer index.toNat_lt hnone hearlier hlater hmarker

/-- Three choices with the correct one in the middle, and a response that changes its mind. -/
theorem graded_as_shown_differences :
    let p : Problem :=
      { program := "6", seedLen := 2, examples := [[2, 1, 1, 0, 1, -1]]
        correct := [1, 2, -1, 3, -4, 7]
        foils := [⟨[1, 2, -1, 3, -4, 3], "496"⟩, ⟨[1, 2, -3, -7, -52, -2711], "a76"⟩] }
    let l := atSlot p 1
    (choiceLine 1 p.correct).toList ∈ Text.lines (l.choicesText p).toList ∧
      l.isCorrect 1 = true ∧
      Response.choice "MATCH: (A)\nNo, wait.\nMATCH: (B)\r\nThat is it." = .ok (some 1) := by
  intro p l
  have hcheck : p.check = .ok () := by decide +kernel
  have hlabel : Label.ofIndex 1 = "B" := congrArg String.ofList (Label.letters_of_lt (by decide))
  obtain ⟨-, -, -, -, hall⟩ := graded_as_shown hcheck 1
  obtain ⟨⟨choice, hshown⟩, hcorrect, hgraded⟩ := hall 1 (by decide)
  have hright : l.isCorrect 1 = true := by decide
  obtain rfl : choice = p.correct := (hcorrect choice hshown).1 hright
  have hread := hgraded (by rw [show (1 : UInt64).toNat = 1 from rfl, hlabel]; decide)
    "MATCH: (A)\nNo, wait.\n" "\r\nThat is it." (.inr (by decide +kernel))
    (.inr (.inr (by decide +kernel))) (by decide +kernel)
  refine ⟨hshown, hright, ?_⟩
  rwa [show (1 : UInt64).toNat = 1 from rfl, hlabel] at hread

end StackSeq.Layout
