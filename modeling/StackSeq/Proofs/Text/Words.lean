import Mathlib.Data.List.TakeWhile
import StackSeq.Text.Pieces

/-!
# Words of composed texts

Blanks that are put around a text are dropped by `trim` (`trim_append_blanks`), and blanks are all
that it drops (`exists_eq_append_trim`).

What `fields`, `tokens` and `cutAt` give for a text that was put together from parts. A separator
between two texts separates their tokens (`tokens_append_cons`), and a text without one is a token
by itself (`tokens_of_forall_not`). So a text is put together from its tokens and separators and
from no other items (`areItems_iff`), and the words of texts that are joined with a space are the
words of the texts in a row: `words_join`.
-/

namespace StackSeq.Text

/-! ## Trimmed texts -/

section

variable {before after cs : List Char}

theorem trimEnd_append_blanks (h : ∀ c ∈ after, isBlank c = true) :
    trimEnd (cs ++ after) = trimEnd cs := by
  rw [trimEnd, List.reverse_append, List.dropWhile_append_of_pos, trimEnd]
  exact fun c hc => h c (List.mem_reverse.1 hc)

/-- Blanks on both sides are dropped. -/
theorem trim_append_blanks (hbefore : ∀ c ∈ before, isBlank c = true)
    (hafter : ∀ c ∈ after, isBlank c = true) : trim (before ++ cs ++ after) = trim cs := by
  rw [trim, List.append_assoc, List.dropWhile_append_of_pos hbefore, List.dropWhile_append, trim]
  split
  · next hempty =>
    -- A blank text is dropped as a whole, and so is what is appended to it.
    have hnil : after.dropWhile isBlank = [] := List.dropWhile_eq_nil_iff.2 hafter
    rw [hnil, List.isEmpty_iff.1 hempty]
  · exact trimEnd_append_blanks hafter

theorem exists_eq_trimEnd_append (cs : List Char) :
    ∃ after, cs = trimEnd cs ++ after ∧ ∀ c ∈ after, isBlank c = true := by
  refine ⟨(cs.reverse.takeWhile isBlank).reverse, ?_, fun c hc => ?_⟩
  · rw [trimEnd, ← List.reverse_append, List.takeWhile_append_dropWhile, List.reverse_reverse]
  · exact List.mem_takeWhile_imp (List.mem_reverse.1 hc)

/-- **Blanks at the two ends are all that is dropped.** -/
theorem exists_eq_append_trim (cs : List Char) : ∃ before after, cs = before ++ trim cs ++ after ∧
    (∀ c ∈ before, isBlank c = true) ∧ ∀ c ∈ after, isBlank c = true := by
  obtain ⟨after, hafter, hblank⟩ := exists_eq_trimEnd_append (cs.dropWhile isBlank)
  refine ⟨cs.takeWhile isBlank, after, ?_, fun _ => List.mem_takeWhile_imp, hblank⟩
  rw [trim, List.append_assoc, ← hafter, List.takeWhile_append_dropWhile]

@[simp] theorem trim_trim (cs : List Char) : trim (trim cs) = trim cs := by
  obtain ⟨before, after, hcs, hbefore, hafter⟩ := exists_eq_append_trim cs
  calc trim (trim cs)
    _ = trim (before ++ trim cs ++ after) := (trim_append_blanks hbefore hafter).symm
    _ = trim cs := by rw [← hcs]

end

variable {isSeparator : Char → Bool} {mark c : Char} {word : List Char}

/-! ## Fields and tokens -/

/-- The pieces of two texts with a separator between them are those of the two. -/
theorem fields_append_cons (hc : isSeparator c = true) (cs ds : List Char) :
    fields isSeparator (cs ++ c :: ds) = fields isSeparator cs ++ fields isSeparator ds := by
  induction cs with
  | nil =>
    show fields isSeparator (c :: ds) = [] :: fields isSeparator ds
    rw [fields, if_pos hc]
  | cons a cs ih =>
    rw [List.cons_append, fields, fields, ih]
    by_cases ha : isSeparator a = true
    · rw [if_pos ha, if_pos ha, List.cons_append]
    · rw [if_neg ha, if_neg ha]
      -- There is a first piece that the character goes in front of.
      cases h : fields isSeparator cs with
      | nil => exact absurd h (fields_ne_nil isSeparator cs)
      | cons piece pieces => rfl

theorem fields_of_forall_not (h : ∀ c ∈ word, isSeparator c = false) :
    fields isSeparator word = [word] := by
  induction word with
  | nil => rfl
  | cons a word ih =>
    have ha : ¬isSeparator a = true := by simp [h a]
    rw [fields, if_neg ha, ih fun c hc => h c (List.mem_cons_of_mem a hc)]

theorem tokens_append_cons (hc : isSeparator c = true) (cs ds : List Char) :
    tokens isSeparator (cs ++ c :: ds) = tokens isSeparator cs ++ tokens isSeparator ds := by
  rw [tokens, fields_append_cons hc, List.filter_append]
  rfl

/-- A text without separators is its own only token. -/
theorem tokens_of_forall_not (hne : word ≠ []) (h : ∀ c ∈ word, isSeparator c = false) :
    tokens isSeparator word = [word] := by
  rw [tokens, fields_of_forall_not h]
  simp [hne]

/-! ## Items -/

/-- The text is these items with separators between each two of them, and maybe in front of the
first and behind the last. An item is not empty, holds no separator, and has one behind it unless
the text ends. -/
inductive AreItems (isSeparator : Char → Bool) : List (List Char) → List Char → Prop
  | nil : AreItems isSeparator [] []
  | separator {c : Char} {items : List (List Char)} {cs : List Char} (hc : isSeparator c = true)
      (h : AreItems isSeparator items cs) : AreItems isSeparator items (c :: cs)
  | item {word : List Char} {items : List (List Char)} {cs : List Char} (hne : word ≠ [])
      (hword : ∀ c ∈ word, isSeparator c = false) (hnext : ∀ c ∈ cs.head?, isSeparator c = true)
      (h : AreItems isSeparator items cs) : AreItems isSeparator (word :: items) (word ++ cs)

theorem AreItems.tokens_eq {items : List (List Char)} {cs : List Char}
    (h : AreItems isSeparator items cs) : tokens isSeparator cs = items := by
  induction h with
  | nil => rfl
  | separator hc _ ih => rw [tokens_cons_separator hc, ih]
  | @item word items cs hne hword hnext _ ih =>
    cases cs with
    | nil =>
      obtain rfl : [] = items := ih
      rw [List.append_nil, tokens_of_forall_not hne hword]
    | cons c cs =>
      have hc := hnext c rfl
      rw [tokens_append_cons hc, tokens_of_forall_not hne hword, ← tokens_cons_separator hc, ih]
      rfl

theorem exists_areItems (isSeparator : Char → Bool) (cs : List Char) :
    ∃ items, AreItems isSeparator items cs := by
  induction cs with
  | nil => exact ⟨[], .nil⟩
  | cons c cs ih =>
    obtain ⟨items, h⟩ := ih
    by_cases hc : isSeparator c = true
    · exact ⟨items, .separator hc h⟩
    · -- The character begins an item or belongs to the one that follows.
      rw [Bool.not_eq_true] at hc
      have hone : ∀ d ∈ [c], isSeparator d = false := List.forall_mem_singleton.2 hc
      cases h with
      | nil => exact ⟨[[c]], .item (List.cons_ne_nil c []) hone nofun .nil⟩
      | separator hd h =>
        exact ⟨[c] :: items, .item (List.cons_ne_nil c []) hone
          (fun d hmem => Option.some.inj hmem ▸ hd) (.separator hd h)⟩
      | @item word items cs _ hword hnext h =>
        exact ⟨(c :: word) :: items, .item (List.cons_ne_nil c word)
          (List.forall_mem_cons.2 ⟨hc, hword⟩) hnext h⟩

/-- **Every text is put together from its tokens**, and from no other items. -/
theorem areItems_iff {items : List (List Char)} {cs : List Char} :
    AreItems isSeparator items cs ↔ tokens isSeparator cs = items := by
  refine ⟨AreItems.tokens_eq, fun h => ?_⟩
  obtain ⟨others, hothers⟩ := exists_areItems isSeparator cs
  rwa [← h, hothers.tokens_eq]

instance (isSeparator : Char → Bool) (items : List (List Char)) (cs : List Char) :
    Decidable (AreItems isSeparator items cs) :=
  decidable_of_iff _ areItems_iff.symm

/-! ## Words -/

/-- **The words of joined texts are the words of the texts.** -/
theorem words_join (texts : List String) :
    words (join " " texts).toList = texts.flatMap fun s => words s.toList := by
  fun_induction join " " texts with
  | case1 => rfl
  | case2 s => simp
  | case3 s t rest ih =>
    have hspace : isBlank ' ' = true := by decide
    rw [String.toList_append, String.toList_append, List.append_assoc]
    show words (s.toList ++ ' ' :: (join " " (t :: rest)).toList) = _
    rw [words, tokens_append_cons hspace, ← words, ← words, ih]
    rfl

theorem join_append {glue : String} {texts others : List String} (h : texts ≠ [])
    (hothers : others ≠ []) :
    join glue (texts ++ others) = join glue texts ++ glue ++ join glue others := by
  fun_induction join glue texts with
  | case1 => exact absurd rfl h
  | case2 s =>
    obtain ⟨t, rest, rfl⟩ := List.exists_cons_of_ne_nil hothers
    rfl
  | case3 s t rest ih =>
    have hrest := ih (List.cons_ne_nil t rest)
    rw [List.cons_append] at hrest ⊢
    rw [List.cons_append, join_cons_cons, hrest]
    simp only [String.append_assoc]

/-- What stands in joined texts. -/
theorem mem_join {glue : String} {texts : List String} (h : c ∈ (join glue texts).toList) :
    c ∈ glue.toList ∨ ∃ s ∈ texts, c ∈ s.toList := by
  fun_induction join glue texts with
  | case1 => cases h
  | case2 s => exact .inr ⟨s, List.mem_singleton_self s, h⟩
  | case3 s t rest ih =>
    rw [String.toList_append, String.toList_append, List.mem_append, List.mem_append] at h
    rcases h with (h | h) | h
    · exact .inr ⟨s, List.mem_cons_self, h⟩
    · exact .inl h
    · rcases ih h with h | ⟨u, hu, hc⟩
      · exact .inl h
      · exact .inr ⟨u, List.mem_cons_of_mem s hu, hc⟩

/-! ## Cuts -/

/-- The first mark is where a text is cut. -/
theorem cutAt_append_cons (h : mark ∉ word) (rest : List Char) :
    cutAt mark (word ++ mark :: rest) = some (word, rest) := by
  induction word with
  | nil => rw [List.nil_append, cutAt, if_pos rfl]
  | cons a word ih =>
    rw [List.mem_cons, not_or] at h
    rw [List.cons_append, cutAt, if_neg (Ne.symm h.1), ih h.2]
    rfl

theorem cutAt_of_not_mem (h : mark ∉ word) : cutAt mark word = none := by
  induction word with
  | nil => rfl
  | cons a word ih =>
    rw [List.mem_cons, not_or] at h
    rw [cutAt, if_neg (Ne.symm h.1), ih h.2]
    rfl

/-- What a cut text was put together from. -/
theorem eq_append_of_cutAt {cs before after : List Char}
    (h : cutAt mark cs = some (before, after)) :
    mark ∉ before ∧ cs = before ++ mark :: after := by
  induction cs generalizing before with
  | nil => cases h
  | cons a cs ih =>
    rw [cutAt] at h
    split at h
    · next ha =>
      cases h
      exact ⟨List.not_mem_nil, by rw [ha]; rfl⟩
    · next ha =>
      obtain ⟨⟨before', after'⟩, hcut, heq⟩ := Option.map_eq_some_iff.1 h
      cases heq
      obtain ⟨hmem, rfl⟩ := ih hcut
      refine ⟨?_, rfl⟩
      rw [List.mem_cons, not_or]
      exact ⟨Ne.symm ha, hmem⟩

end StackSeq.Text
