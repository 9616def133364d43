import Mathlib.Algebra.GroupWithZero.Nat
import StackSeq.Program.Mnemonic
import StackSeq.Proofs.Rational.Literal

/-!
# The text of a program

The text of a program is read back as the program, and its words are the slots of the program:
`text_round_trip`. The words of the text are the tokens of the operations in a row
(`words_opsText`), for no token is empty or holds a blank, and the words of an operation are read
back as that operation whatever follows (`opsOfWords_tokens_append`). A literal is taken for no
mnemonic, since it has a digit and mnemonics have none.
-/

namespace StackSeq

/-! ## Tokens -/

namespace Op

/-- The tokens of the operation as words. -/
def words (op : Op) : List (List Char) := op.tokens.map String.toList

theorem length_words (op : Op) : op.words.length = op.width := by
  rw [words, List.length_map, length_tokens]

theorem isWord_of_all {word : List Char} (hne : word ≠ [])
    (h : word.all (fun c => !Text.isBlank c) = true) :
    word ≠ [] ∧ ∀ c ∈ word, Text.isBlank c = false :=
  ⟨hne, fun c hc => by simpa using List.all_eq_true.1 h c hc⟩

/-- Tokens are not empty and hold no blanks. -/
theorem isWord_of_mem_tokens {op : Op} {token : String} (h : token ∈ op.tokens) :
    token.toList ≠ [] ∧ ∀ c ∈ token.toList, Text.isBlank c = false := by
  cases op with
  | push value =>
    obtain rfl := List.mem_singleton.1 h
    exact ⟨value.text_ne_nil, fun c hc => value.isBlank_of_mem_text hc⟩
  | bgtz offset =>
    rcases List.mem_cons.1 h with rfl | h
    · exact isWord_of_all (by decide) (by decide)
    · obtain rfl := List.mem_singleton.1 h
      exact Text.isWord_toString offset.toNat
  | binary op =>
    obtain rfl := List.mem_singleton.1 h
    cases op <;> exact isWord_of_all (by decide) (by decide)
  | dup | swap | rot | unrot | len =>
    obtain rfl := List.mem_singleton.1 h
    exact isWord_of_all (by decide) (by decide)

/-- **The words of the text of an operation are its tokens.** -/
theorem words_text (op : Op) : Text.words op.text.toList = op.words := by
  have hword : ∀ t ∈ op.tokens, Text.words t.toList = [t.toList] := by
    intro t ht
    obtain ⟨hne, hblank⟩ := isWord_of_mem_tokens ht
    exact Text.tokens_of_forall_not hne hblank
  rw [text, Text.words_join, List.flatMap_def, List.map_congr_left hword, ← List.flatMap_def,
    ← List.map_eq_flatMap, words]

/-! ## Reading one operation -/

/-- No mnemonic has a digit. -/
theorem not_isDigit_of_mem_mnemonic {op : Op} (h : op ∈ plain) {c : Char}
    (hc : c ∈ op.mnemonic.toList) : c.isDigit = false := by
  have hall : ∀ op ∈ plain, op.mnemonic.toList.all (fun c => !c.isDigit) = true := by decide
  simpa using List.all_eq_true.1 (hall op h) c hc

/-- A word with a digit is no mnemonic. -/
theorem ofMnemonic?_of_isDigit {word : List Char} (h : ∃ c ∈ word, c.isDigit = true) :
    ofMnemonic? (String.ofList word) = none := by
  obtain ⟨c, hc, hd⟩ := h
  unfold ofMnemonic?
  rw [List.find?_eq_none]
  intro op hop heq
  rw [beq_iff_eq] at heq
  have := not_isDigit_of_mem_mnemonic hop (c := c) (by rw [heq, String.toList_ofList]; exact hc)
  rw [hd] at this
  cases this

theorem ofWord?_text (r : Rational) : ofWord? r.text.toList = some (push r) := by
  rw [ofWord?, ofMnemonic?_of_isDigit r.exists_isDigit_mem_text, Rational.ofLiteral?_text]
  rfl

end Op

theorem opsText_append {ops others : List Op} (h : ops ≠ []) (hothers : others ≠ []) :
    opsText (ops ++ others) = opsText ops ++ " " ++ opsText others := by
  rw [opsText, List.map_append,
    Text.join_append (mt List.map_eq_nil_iff.1 h) (mt List.map_eq_nil_iff.1 hothers)]
  rfl

namespace Program

/-- A word that is not `bgtz` and stands for an operation is read as that operation. -/
theorem opsOfWords_cons {word : List Char} {op : Op} (hword : word ≠ ['b', 'g', 't', 'z'])
    (h : Op.ofWord? word = some op) (position : Nat) (rest : List (List Char)) :
    opsOfWords position (word :: rest) = (opsOfWords (position + 1) rest).map (op :: ·) := by
  rw [opsOfWords.eq_def]
  simp only [if_neg hword, h]

/-- **The tokens of an operation are read as that operation**, whatever follows. -/
theorem opsOfWords_words_append (op : Op) (position : Nat) (rest : List (List Char)) :
    opsOfWords position (op.words ++ rest)
      = (opsOfWords (position + op.width) rest).map (op :: ·) := by
  cases op with
  | push value =>
    refine opsOfWords_cons (fun h => ?_) (Op.ofWord?_text value) position rest
    obtain ⟨c, hc, hd⟩ := value.exists_isDigit_mem_text
    have hletters : ['b', 'g', 't', 'z'].any Char.isDigit = true :=
      List.any_eq_true.2 ⟨c, h ▸ hc, hd⟩
    cases hletters
  | bgtz offset =>
    show opsOfWords position (['b', 'g', 't', 'z'] :: (toString offset.toNat).toList :: rest) = _
    rw [opsOfWords, if_pos rfl]
    simp only [Text.word?_toString]
    rfl
  | binary op => cases op <;> exact opsOfWords_cons (by decide) (by decide) position rest
  | dup => exact opsOfWords_cons (by decide) (by decide) position rest
  | swap => exact opsOfWords_cons (by decide) (by decide) position rest
  | rot => exact opsOfWords_cons (by decide) (by decide) position rest
  | unrot => exact opsOfWords_cons (by decide) (by decide) position rest
  | len => exact opsOfWords_cons (by decide) (by decide) position rest

/-! ## Programs -/

theorem words_opsText (ops : List Op) :
    Text.words (opsText ops).toList = ops.flatMap Op.words := by
  rw [opsText, Text.words_join, List.flatMap_map]
  exact congrArg (List.flatMap · ops) (funext Op.words_text)

/-- The tokens of operations in a row are read as those operations. -/
theorem opsOfWords_flatMap_words (ops : List Op) (position : Nat) :
    opsOfWords position (ops.flatMap Op.words) = .ok ops := by
  induction ops generalizing position with
  | nil => rfl
  | cons op ops ih =>
    rw [List.flatMap_cons, opsOfWords_words_append, ih]
    rfl

theorem length_flatMap_words (ops : List Op) :
    (ops.flatMap Op.words).length = (ops.map Op.width).sum := by
  rw [List.length_flatMap]
  exact congrArg (fun f => (ops.map f).sum) (funext Op.length_words)

/-- **The text of a program is read back as the program**, and has as many words as the operations
have slots. -/
theorem text_round_trip (p : Program) :
    parse p.text = .ok p ∧ (Text.words p.text.toList).length = (p.code.map Op.width).sum := by
  rw [text, parse, words_opsText, opsOfWords_flatMap_words]
  exact ⟨rfl, length_flatMap_words p.code⟩

end Program

end StackSeq
