import Mathlib.Data.List.Nodup
import StackSeq.Check
import StackSeq.Proofs.Program.Text

/-!
# The grammar of programs

A text is a program if its words are phrases in a row, each a mnemonic, a literal, or `bgtz` with
its offset: `IsPhrase` and `ArePhrases` say it without a reader. Main statement:
`parse_follows_grammar`, the reader takes the texts of the grammar for the operations of their
phrases, and of any other text it blames the first word after the longest part in front that is
phrases in a row.

A phrase is read whatever follows (`opsOfWords_append`), so phrases in front only move the position
at which the rest is read. What is left when no phrase comes next is blamed on its first word
(`exists_phrases`), and no part in front that reaches beyond that word can be phrases, since it
would have moved the blame behind it (`position_le_of_opsOfWords`).
-/

namespace StackSeq

/-! ## Grammar -/

namespace Op

/-- The words are one phrase: they stand for this operation. -/
inductive IsPhrase : List (List Char) → Op → Prop
  | mnemonic {op : Op} (h : op ∈ plain) : IsPhrase [op.mnemonic.toList] op
  | literal {word : List Char} {r : Rational} (h : Rational.IsLiteral word r) :
    IsPhrase [word] (push r)
  | branch {offset : List Char} {k : UInt64} (h : Text.IsUnsigned offset k.toNat) :
      IsPhrase [['b', 'g', 't', 'z'], offset] (bgtz k)

theorem IsPhrase.length_pos {phrase : List (List Char)} {op : Op} (h : op.IsPhrase phrase) :
    0 < phrase.length := by
  cases h <;> exact Nat.succ_pos _

end Op

namespace Program

/-- The words are phrases in a row, which stand for these operations. -/
inductive ArePhrases : List (List Char) → List Op → Prop
  | nil : ArePhrases [] []
  | cons {phrase words : List (List Char)} {op : Op} {ops : List Op} (h : op.IsPhrase phrase)
      (hrest : ArePhrases words ops) : ArePhrases (phrase ++ words) (op :: ops)

/-- The words in front are phrases in a row, and no more words in front are. -/
def IsLongestPart (front words : List (List Char)) : Prop :=
  front <+: words ∧ (∃ ops, ArePhrases front ops) ∧
    ∀ other ops, other <+: words → ArePhrases other ops → other.length ≤ front.length

end Program

/-! ## Reading a phrase -/

namespace Op

variable {word : List Char} {op : Op}

/-- The words that are read as a mnemonic. -/
theorem ofMnemonic?_eq_some_iff {s : String} :
    ofMnemonic? s = some op ↔ op ∈ plain ∧ op.mnemonic = s := by
  have hall : ∀ op ∈ plain, ofMnemonic? op.mnemonic = some op := by decide
  constructor
  · intro h
    exact ⟨List.mem_of_find?_eq_some h, by simpa using List.find?_some h⟩
  · rintro ⟨hop, rfl⟩
    exact hall op hop

example : plain.map mnemonic
    = ["+", "-", "*", "/", "%", "dup", "swap", "rot", "unrot", "len"] := by decide

/-- **The words read as an operation are its phrases of one word.** -/
theorem ofWord?_eq_some_iff : ofWord? word = some op ↔ IsPhrase [word] op := by
  rw [ofWord?, Option.or_eq_some_iff, ofMnemonic?_eq_some_iff, Option.map_eq_some_iff]
  simp only [Rational.ofLiteral?_eq_some_iff]
  constructor
  · rintro (⟨hop, hword⟩ | ⟨-, r, hr, rfl⟩)
    · rw [← String.toList_ofList (l := word), ← hword]
      exact .mnemonic hop
    · exact .literal hr
  · intro h
    cases h with
    | mnemonic hop => exact .inl ⟨hop, String.ofList_toList.symm⟩
    | literal hr => exact .inr ⟨ofMnemonic?_of_isDigit hr.exists_isDigit, _, hr, rfl⟩

theorem ofWord?_bgtz : ofWord? ['b', 'g', 't', 'z'] = none := by decide

end Op

namespace ProgramTextError

/-- The error that blames the word at this position. -/
def blame (word : List Char) (position : Nat) : ProgramTextError :=
  if word = ['b', 'g', 't', 'z'] then missingOffset position
  else unknownToken (String.ofList word) position

/-- The index of the word that is blamed. -/
def position : ProgramTextError → Nat
  | unknownToken _ position => position
  | missingOffset position => position

@[simp] theorem position_blame (word : List Char) (n : Nat) : (blame word n).position = n := by
  unfold blame
  split <;> rfl

/-- What is shown of the error: where the word stands, and the word itself if it is no `bgtz`. -/
theorem diagnostic_blame (word : List Char) (n : Nat) :
    (blame word n).diagnostic.kind = .parseFailed ∧
      (blame word n).diagnostic.detail? "position" = some (toString n) ∧
      (blame word n).diagnostic.detail? "token"
        = if word = ['b', 'g', 't', 'z'] then none else some (String.ofList word) := by
  unfold blame
  split
  · exact ⟨rfl, rfl, rfl⟩
  · exact ⟨rfl, rfl, rfl⟩

end ProgramTextError

namespace Program

open ProgramTextError

variable {phrase front words : List (List Char)} {op : Op} {ops : List Op}

/-- **A phrase is read as its operation**, whatever follows. -/
theorem opsOfWords_phrase_append (h : op.IsPhrase phrase) (position : Nat)
    (rest : List (List Char)) :
    opsOfWords position (phrase ++ rest)
      = (opsOfWords (position + phrase.length) rest).map (op :: ·) := by
  -- A phrase of one word is none that starts with `bgtz`.
  have hone : ∀ {word : List Char}, op.IsPhrase [word] →
      opsOfWords position (word :: rest) = (opsOfWords (position + 1) rest).map (op :: ·) := by
    intro word hword
    have hread := Op.ofWord?_eq_some_iff.2 hword
    refine opsOfWords_cons ?_ hread position rest
    rintro rfl
    rw [Op.ofWord?_bgtz] at hread
    cases hread
  cases h with
  | mnemonic hop => exact hone (.mnemonic hop)
  | literal hr => exact hone (.literal hr)
  | branch hk =>
    show opsOfWords position (['b', 'g', 't', 'z'] :: _ :: rest) = _
    rw [opsOfWords, if_pos rfl]
    simp only [Text.word?_eq_some_iff.2 hk]
    rfl

/-- **Phrases in front are read as their operations**, whatever follows. -/
theorem opsOfWords_append (h : ArePhrases front ops) (position : Nat) (rest : List (List Char)) :
    opsOfWords position (front ++ rest)
      = (opsOfWords (position + front.length) rest).map (ops ++ ·) := by
  induction h generalizing position with
  | nil =>
    show opsOfWords position rest = (opsOfWords position rest).map ([] ++ ·)
    cases opsOfWords position rest <;> rfl
  | @cons phrase words op ops hop _ ih =>
    rw [List.append_assoc, opsOfWords_phrase_append hop, ih, List.length_append, Nat.add_assoc]
    cases opsOfWords (position + (phrase.length + words.length)) rest <;> rfl

/-- Where no phrase comes next, the next word is blamed. -/
theorem opsOfWords_eq_blame {word : List Char} {after : List (List Char)}
    (h : ∀ op phrase, Op.IsPhrase phrase op → ¬phrase <+: word :: after) (position : Nat) :
    opsOfWords position (word :: after) = .error (blame word position) := by
  by_cases hword : word = ['b', 'g', 't', 'z']
  · subst hword
    cases after with
    | nil => rfl
    | cons offset after =>
      have hoffset : Text.word? offset = none := by
        cases hk : Text.word? offset with
        | none => rfl
        | some k =>
          exact absurd (List.prefix_append _ after) (h _ _ (.branch (Text.word?_eq_some_iff.1 hk)))
      rw [opsOfWords, if_pos rfl]
      simp only [hoffset]
      rfl
  · have hread : Op.ofWord? word = none := by
      cases hop : Op.ofWord? word with
      | none => rfl
      | some op =>
        exact absurd (List.prefix_append [word] after) (h _ _ (Op.ofWord?_eq_some_iff.1 hop))
    rw [opsOfWords.eq_def]
    simp only [if_neg hword, hread, blame]

/-- Words are phrases in a row up to where no phrase comes next. -/
theorem exists_phrases (words : List (List Char)) :
    ∃ front ops rest, words = front ++ rest ∧ ArePhrases front ops ∧
      ∀ op phrase, Op.IsPhrase phrase op → ¬phrase <+: rest := by
  induction hn : words.length using Nat.strongRecOn generalizing words with
  | ind n ih =>
    by_cases hnext : ∃ op phrase, Op.IsPhrase phrase op ∧ phrase <+: words
    · obtain ⟨op, phrase, hop, rest, rfl⟩ := hnext
      have hpos := hop.length_pos
      rw [List.length_append] at hn
      obtain ⟨front, ops, rest, rfl, hfront, hstop⟩ := ih rest.length (by omega) rest rfl
      exact ⟨phrase ++ front, op :: ops, rest, (List.append_assoc ..).symm, .cons hop hfront, hstop⟩
    · exact ⟨[], [], words, rfl, .nil,
        fun op phrase hop hprefix => hnext ⟨op, phrase, hop, hprefix⟩⟩

/-- The blame is on none of the words in front of what is read. -/
theorem position_le_of_opsOfWords {position : Nat} {e : ProgramTextError}
    (h : opsOfWords position words = .error e) : position ≤ e.position := by
  obtain ⟨front, ops, rest, rfl, hfront, hstop⟩ := exists_phrases words
  rw [opsOfWords_append hfront] at h
  cases rest with
  | nil => cases h
  | cons word after =>
    rw [opsOfWords_eq_blame hstop] at h
    cases h
    rw [position_blame]
    omega

/-! ## Programs -/

/-- **Words are read as operations exactly if they are phrases in a row for them.** -/
theorem opsOfWords_eq_ok_iff {position : Nat} :
    opsOfWords position words = .ok ops ↔ ArePhrases words ops := by
  constructor
  · intro h
    obtain ⟨front, ops', rest, rfl, hfront, hstop⟩ := exists_phrases words
    rw [opsOfWords_append hfront] at h
    cases rest with
    | nil =>
      obtain rfl : ops' = ops := by simpa [opsOfWords, Except.map] using h
      rwa [List.append_nil]
    | cons word after =>
      rw [opsOfWords_eq_blame hstop] at h
      cases h
  · intro h
    have := opsOfWords_append h position []
    rw [List.append_nil, opsOfWords] at this
    rw [this]
    exact congrArg Except.ok (List.append_nil ops)

/-- **Words that are no phrases in a row are blamed at the end of the longest part that is.** -/
theorem exists_blame (h : ∀ ops, ¬ArePhrases words ops) :
    ∃ front word after, words = front ++ word :: after ∧ IsLongestPart front words ∧
      ∀ position, opsOfWords position words = .error (blame word (position + front.length)) := by
  obtain ⟨front, ops, rest, rfl, hfront, hstop⟩ := exists_phrases words
  cases rest with
  | nil => exact absurd (by rwa [List.append_nil]) (h ops)
  | cons word after =>
    have hread : ∀ position, opsOfWords position (front ++ word :: after)
        = .error (blame word (position + front.length)) := by
      intro position
      rw [opsOfWords_append hfront, opsOfWords_eq_blame hstop]
      rfl
    refine ⟨front, word, after, rfl, ⟨List.prefix_append .., ⟨ops, hfront⟩, ?_⟩, hread⟩
    -- Phrases that reach further would have the blame behind them.
    rintro other ops' ⟨rest, heq⟩ hother
    have hblame := hread 0
    rw [← heq, opsOfWords_append hother, map_eq_error_iff] at hblame
    have := position_le_of_opsOfWords hblame
    rw [position_blame] at this
    omega

/-- **A text is a program exactly if its words are phrases in a row**, and then its operations are
theirs. Of any other text the first word after the longest part in front that is phrases in a row is
blamed, by its index and, unless it is a `bgtz` without a usable offset, by name. Blanks only
separate words. -/
theorem parse_follows_grammar (text : String) :
    let words := Text.words text.toList
    (∀ p, parse text = .ok p ↔ ArePhrases words p.code) ∧
      ((∀ ops, ¬ArePhrases words ops) → ∃ front word after e,
        words = front ++ word :: after ∧ IsLongestPart front words ∧ parse text = .error e ∧
          e.diagnostic.kind = .parseFailed ∧
          e.diagnostic.detail? "position" = some (toString front.length) ∧
          e.diagnostic.detail? "token"
            = if word = ['b', 'g', 't', 'z'] then none else some (String.ofList word)) ∧
      ∀ other : String, Text.words other.toList = words → parse other = parse text := by
  intro words
  refine ⟨fun p => ?_, fun h => ?_, fun other h => ?_⟩
  · rw [parse, map_eq_ok_iff]
    simp only [opsOfWords_eq_ok_iff]
    constructor
    · rintro ⟨ops, hops, rfl⟩
      exact hops
    · exact fun h => ⟨p.code, h, rfl⟩
  · obtain ⟨front, word, after, hwords, hlongest, hblame⟩ := exists_blame h
    obtain ⟨hkind, hposition, htoken⟩ := diagnostic_blame word front.length
    refine ⟨front, word, after, _, hwords, hlongest, ?_, hkind, hposition, htoken⟩
    rw [parse, map_eq_error_iff, hblame, Nat.zero_add]
  · rw [parse, h, parse]

/-- Three phrases of two, one and one words, and then a branch whose offset is a fraction. -/
theorem parse_follows_grammar_fraction :
    let text := "bgtz +07 dup\t-6/4 bgtz 1/2 pop"
    let words := Text.words text.toList
    (∀ ops, ¬ArePhrases words ops) ∧ parse text = .error (.missingOffset 4) ∧
      ∃ front word after, words = front ++ word :: after ∧ IsLongestPart front words ∧
        toString front.length = "4" := by
  intro text words
  have hparse : parse text = .error (.missingOffset 4) := by decide +kernel
  obtain ⟨hok, herror, -⟩ := parse_follows_grammar text
  have hnone : ∀ ops, ¬ArePhrases words ops := by
    intro ops hops
    have hprogram := (hok ⟨ops⟩).2 hops
    rw [hparse] at hprogram
    cases hprogram
  obtain ⟨front, word, after, e, hwords, hlongest, he, -, hposition, -⟩ := herror hnone
  rw [hparse] at he
  cases he
  exact ⟨hnone, hparse, front, word, after, hwords, hlongest, (Option.some.inj hposition).symm⟩

end Program

end StackSeq
