import Mathlib.Data.List.Basic
import StackSeq.Proofs.Text.Decimal
import StackSeq.Proofs.Text.Words
import StackSeq.Sequence

/-!
# The text of a sequence

The text of a sequence stands on one line, being made of digits, minus signs and spaces
(`isDigit_or_of_mem_text`), and it shows which sequence it is (`text_injective`): its words are the
texts of the terms, and numbers with one text are equal.
-/

namespace StackSeq.Sequence

variable {terms : Sequence} {c : Char}

theorem isDigit_or_of_mem_text (h : c ∈ (text terms).toList) :
    c.isDigit = true ∨ c = '-' ∨ c = ' ' := by
  rcases Text.mem_join h with h | ⟨s, hs, hc⟩
  · exact .inr (.inr (List.mem_singleton.1 h))
  · obtain ⟨t, -, rfl⟩ := List.mem_map.1 hs
    rcases Text.isDigit_or_eq_minus_of_mem_toString hc with hc | hc
    · exact .inl hc
    · exact .inr (.inl hc)

theorem words_text (terms : Sequence) :
    Text.words (text terms).toList = terms.map fun t => (toString t.toInt).toList := by
  have hword : ∀ t : Int64, Text.words (toString t.toInt).toList = [(toString t.toInt).toList] := by
    intro t
    obtain ⟨hne, hblank⟩ := Text.isWord_toString t.toInt
    exact Text.tokens_of_forall_not hne hblank
  rw [text, Text.words_join, List.flatMap_map]
  simp only [hword]
  exact List.map_eq_flatMap.symm

/-- **No two sequences have the same text.** -/
theorem text_injective {first second : Sequence} (h : first.text = second.text) :
    first = second := by
  have hwords := words_text first
  rw [h, words_text] at hwords
  have hinjective : Function.Injective fun t : Int64 => (toString t.toInt).toList :=
    fun s t hst => Int64.toInt_inj.1 (Text.toString_injective hst)
  exact List.map_injective_iff.2 hinjective hwords.symm

end StackSeq.Sequence
