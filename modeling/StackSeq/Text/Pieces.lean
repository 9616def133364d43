/-!
# Pieces of a text

A text taken apart and put together from pieces: `trim` drops the blanks at both ends, `fields`
gives all pieces between separators, `tokens` only those that are not empty, `cutAt` the two sides
of the first separator, and `join` puts pieces together again.

Blanks are the characters with the Unicode property `White_Space`. Core's `Char.isWhitespace` knows
ASCII alone and there misses the vertical tab and the form feed, so the class is listed here
(`isBlank_of_isWhitespace` says that it contains core's).

A line ends at a line feed, and a carriage return directly before that line feed belongs to the
line's end. A carriage return anywhere else is part of the line. Text after the last line feed is
a line of its own if there is any, and it keeps a carriage return at its end.
-/

namespace StackSeq.Text

/-! ## Blanks -/

/-- The property `White_Space`: 25 code points, most of them spaces of some width. -/
def isBlank (c : Char) : Bool :=
  let n := c.toNat
  (9 ≤ n && n ≤ 13) || n == 0x20 || n == 0x85 || n == 0xA0 || n == 0x1680
    || (0x2000 ≤ n && n ≤ 0x200A) || n == 0x2028 || n == 0x2029 || n == 0x202F
    || n == 0x205F || n == 0x3000

/-- Core's ASCII blanks are blanks. -/
theorem isBlank_of_isWhitespace {c : Char} (h : c.isWhitespace = true) : isBlank c = true := by
  simp only [Char.isWhitespace, Bool.or_eq_true, decide_eq_true_eq] at h
  rcases h with ((rfl | rfl) | rfl) | rfl <;> decide

/-! ## Trimming -/

/-- The text without the blanks at its end. -/
def trimEnd (cs : List Char) : List Char :=
  (cs.reverse.dropWhile isBlank).reverse

/-- The text without the blanks at its two ends. -/
def trim (cs : List Char) : List Char :=
  trimEnd (cs.dropWhile isBlank)

theorem trimEnd_append_blank {cs : List Char} {c : Char} (h : isBlank c = true) :
    trimEnd (cs ++ [c]) = trimEnd cs := by
  simp [trimEnd, h]

theorem trim_cons_blank {cs : List Char} {c : Char} (h : isBlank c = true) :
    trim (c :: cs) = trim cs := by
  simp [trim, h]

/-- A text without blanks is left as it is. -/
theorem trim_of_all_not_blank {cs : List Char} (h : ∀ c ∈ cs, isBlank c = false) :
    trim cs = cs := by
  have keep : ∀ l : List Char, (∀ c ∈ l, isBlank c = false) → l.dropWhile isBlank = l := by
    intro l hl
    cases l with
    | nil => rfl
    | cons c l => simp [hl c (by simp)]
  rw [trim, keep cs h, trimEnd, keep _ (by simpa using h), List.reverse_reverse]

/-! ## Fields and tokens -/

/-- The pieces between separators, empty ones included: one more than there are separators. -/
def fields (isSeparator : Char → Bool) : List Char → List (List Char)
  | [] => [[]]
  | c :: cs =>
    if isSeparator c then [] :: fields isSeparator cs
    else match fields isSeparator cs with
      | [] => [[c]]
      | piece :: pieces => (c :: piece) :: pieces

theorem fields_ne_nil (isSeparator : Char → Bool) (cs : List Char) :
    fields isSeparator cs ≠ [] := by
  cases cs with
  | nil => simp [fields]
  | cons c cs =>
    rw [fields]
    split
    · simp
    · split <;> simp

/-- The non-empty pieces between separators. -/
def tokens (isSeparator : Char → Bool) (cs : List Char) : List (List Char) :=
  (fields isSeparator cs).filter (!·.isEmpty)

@[simp] theorem tokens_nil (isSeparator : Char → Bool) : tokens isSeparator [] = [] := rfl

/-- A separator in front changes no token. -/
theorem tokens_cons_separator {isSeparator : Char → Bool} {c : Char} (h : isSeparator c = true)
    (cs : List Char) : tokens isSeparator (c :: cs) = tokens isSeparator cs := by
  simp [tokens, fields, h]

/-- The words of a text: the non-empty pieces between blanks. -/
def words (cs : List Char) : List (List Char) :=
  tokens isBlank cs

/-- The text before the first occurrence of `mark` and the text after it, if it occurs. -/
def cutAt (mark : Char) : List Char → Option (List Char × List Char)
  | [] => none
  | c :: cs => if c = mark then some ([], cs) else (cutAt mark cs).map fun p => (c :: p.1, p.2)

/-! ## Lines -/

/-- The line without one carriage return at its end. -/
def dropReturn (line : List Char) : List Char :=
  if line.getLast? = some '\r' then line.dropLast else line

/-- The text after the last line feed counts as a line if it is not empty. -/
def openLine : Option (List Char) → List (List Char)
  | some (c :: cs) => [c :: cs]
  | _ => []

/-- The lines of a text, first to last. -/
def lines (cs : List Char) : List (List Char) :=
  let pieces := fields (· == '\n') cs
  pieces.dropLast.map dropReturn ++ openLine pieces.getLast?

@[simp] theorem lines_nil : lines [] = [] := rfl

/-! ## Putting together -/

/-- Texts with `glue` between each two neighbours. -/
def join (glue : String) : List String → String
  | [] => ""
  | [s] => s
  | s :: t :: rest => s ++ glue ++ join glue (t :: rest)

@[simp] theorem join_nil (glue : String) : join glue [] = "" := rfl

@[simp] theorem join_singleton (glue s : String) : join glue [s] = s := rfl

@[simp] theorem join_cons_cons (glue s t : String) (rest : List String) :
    join glue (s :: t :: rest) = s ++ glue ++ join glue (t :: rest) := rfl

/-- The text with spaces in front, up to `width` characters. -/
def padLeft (width : Nat) (s : String) : String :=
  String.ofList (List.replicate (width - s.length) ' ') ++ s

/-- A text that is wide enough is left as it is. -/
theorem padLeft_of_le {width : Nat} {s : String} (h : width ≤ s.length) :
    padLeft width s = s := by
  simp [padLeft, Nat.sub_eq_zero_of_le h]

end StackSeq.Text
