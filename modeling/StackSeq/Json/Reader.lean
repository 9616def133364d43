import StackSeq.Json
import StackSeq.Text.Numeral

/-!
# Reading structured data

A reader for JSON texts, strict about the grammar: no trailing commas, no leading zeros, no raw
control characters in strings, nothing but blanks around the value. Every function takes the text
and returns what it read and the rest of the text, or nothing if the text does not fit.

Nesting needs a second measure besides the text, because a list of items is as long as the value
that it starts with. `readValue` takes it as fuel, two for each character, and `parse?` provides
it.
-/

namespace StackSeq.Json

/-! ## Blanks and numbers -/

/-- Space, tab, line feed and carriage return. -/
def isBlank (c : Char) : Bool :=
  c == ' ' || c == '\t' || c == '\n' || c == '\r'

/-- The text from its first character that is not blank. -/
def skipBlanks (cs : List Char) : List Char :=
  cs.dropWhile isBlank

/-- A run of ASCII digits and the rest. -/
def spanDigits (cs : List Char) : List Char × List Char :=
  (cs.takeWhile Char.isDigit, cs.dropWhile Char.isDigit)

/-- The digits before the point: one zero, or digits that start with none. -/
def readWhole (cs : List Char) : Option (List Char × List Char) :=
  match spanDigits cs with
  | ([], _) => none
  | ('0' :: _ :: _, _) => none
  | (digits, rest) => some (digits, rest)

/-- The digits after the point, if there is a point. -/
def readFraction : List Char → Option (List Char × List Char)
  | '.' :: cs =>
    match spanDigits cs with
    | ([], _) => none
    | (digits, rest) => some (digits, rest)
  | cs => some ([], cs)

/-- The digits of an exponent without its mark, with its sign. -/
def readExponentDigits (negative : Bool) (cs : List Char) : Option (Int × List Char) :=
  match spanDigits cs with
  | ([], _) => none
  | (digits, rest) =>
    let n : Int := Nat.ofDigitChars 10 digits 0
    some (if negative then -n else n, rest)

/-- The exponent, if there is one. -/
def readExponent : List Char → Option (Option Int × List Char)
  | c :: cs =>
    if c = 'e' ∨ c = 'E' then
      (match cs with
        | '+' :: cs => readExponentDigits false cs
        | '-' :: cs => readExponentDigits true cs
        | cs => readExponentDigits false cs).map fun (n, rest) => (some n, rest)
    else some (none, c :: cs)
  | [] => some (none, [])

/-- The number with this sign and these parts. A zero with a minus sign is no integer. -/
def ofNumberParts (negative : Bool) (whole fraction : List Char) (exponent : Option Int) : Json :=
  let magnitude := Nat.ofDigitChars 10 (whole ++ fraction) 0
  let signed : Int := if negative then -(magnitude : Int) else magnitude
  if fraction = [] ∧ exponent = none ∧ ¬(negative = true ∧ magnitude = 0) then .int signed
  else .decimal signed (exponent.getD 0 - (fraction.length : Nat))

/-- A number whose sign has been read. -/
def readMagnitude (negative : Bool) (cs : List Char) : Option (Json × List Char) := do
  let (whole, rest) ← readWhole cs
  let (fraction, rest) ← readFraction rest
  let (exponent, rest) ← readExponent rest
  some (ofNumberParts negative whole fraction exponent, rest)

/-- A number. -/
def readNumber : List Char → Option (Json × List Char)
  | '-' :: cs => readMagnitude true cs
  | cs => readMagnitude false cs

/-! ## Strings -/

/-- The code of the character that a letter after a backslash stands for. -/
def simpleEscape? (c : Char) : Option Nat :=
  if c = '\x22' ∨ c = '\\' ∨ c = '/' then some c.toNat
  else if c = 'b' then some 0x08
  else if c = 'f' then some 0x0C
  else if c = 'n' then some 0x0A
  else if c = 'r' then some 0x0D
  else if c = 't' then some 0x09
  else none

/-- The value of four hexadecimal digits. -/
def hexUnit? (a b c d : Char) : Option Nat := do
  let a ← Text.hexValue? a
  let b ← Text.hexValue? b
  let c ← Text.hexValue? c
  let d ← Text.hexValue? d
  some (((a * 16 + b) * 16 + c) * 16 + d)

/-- The codes of a string from after its opening quote up to its closing one: a character stands
for its code point, an escape for the code that it names. -/
def readUnits : List Char → Option (List Nat × List Char)
  | [] => none
  | c :: cs =>
    if c = '\x22' then some ([], cs)
    else if c = '\\' then
      match cs with
      | 'u' :: h₁ :: h₂ :: h₃ :: h₄ :: rest =>
        match hexUnit? h₁ h₂ h₃ h₄, readUnits rest with
        | some unit, some (units, rest) => some (unit :: units, rest)
        | _, _ => none
      | e :: rest =>
        match simpleEscape? e, readUnits rest with
        | some unit, some (units, rest) => some (unit :: units, rest)
        | _, _ => none
      | [] => none
    else if c.toNat < 0x20 then none
    else
      match readUnits cs with
      | some (units, rest) => some (c.toNat :: units, rest)
      | none => none

/-- Whether the code is the first half of a surrogate pair. -/
def isLeadingHalf (unit : Nat) : Bool := decide (0xD800 ≤ unit ∧ unit < 0xDC00)

/-- Whether the code is the second half of a surrogate pair. -/
def isTrailingHalf (unit : Nat) : Bool := decide (0xDC00 ≤ unit ∧ unit < 0xE000)

/-- The characters that the codes name, if each half of a pair has its other half. -/
def charsOfUnits : List Nat → Option (List Char)
  | [] => some []
  | u :: rest =>
    if isLeadingHalf u then
      match rest with
      | v :: rest =>
        if isTrailingHalf v then
          (charsOfUnits rest).map
            (Char.ofNat (0x10000 + (u - 0xD800) * 0x400 + (v - 0xDC00)) :: ·)
        else none
      | [] => none
    else if isTrailingHalf u then none
    else (charsOfUnits rest).map (Char.ofNat u :: ·)

/-- A string from after its opening quote; `none` as its value if it names no text. -/
def readString (cs : List Char) : Option (Option String × List Char) :=
  (readUnits cs).map fun (units, rest) => ((charsOfUnits units).map String.ofList, rest)

/-! ## Values -/

/-- A value that is neither array nor object. -/
def readScalar : List Char → Option (Json × List Char)
  | '\x22' :: cs =>
    (readString cs).map fun (s, rest) => (s.elim .unpaired .str, rest)
  | 't' :: 'r' :: 'u' :: 'e' :: rest => some (.bool true, rest)
  | 'f' :: 'a' :: 'l' :: 's' :: 'e' :: rest => some (.bool false, rest)
  | 'n' :: 'u' :: 'l' :: 'l' :: rest => some (.null, rest)
  | cs => readNumber cs

/-- The members with their keys, if every key names a text. -/
def namedMembers? : List (Option String × Json) → Option (List (String × Json))
  | [] => some []
  | (none, _) :: _ => none
  | (some key, v) :: rest => (namedMembers? rest).map ((key, v) :: ·)

/-- The object with these members; no value if a key names no text. -/
def ofMembers (members : List (Option String × Json)) : Json :=
  (namedMembers? members).elim .unpaired .obj

mutual

/-- A value, with blanks in front. -/
def readValue : (fuel : Nat) → List Char → Option (Json × List Char)
  | 0, _ => none
  | fuel + 1, cs =>
    match skipBlanks cs with
    | '[' :: rest =>
      match skipBlanks rest with
      | ']' :: rest => some (.arr [], rest)
      | rest => (readItems fuel rest).map fun (items, rest) => (.arr items, rest)
    | '\x7b' :: rest =>
      match skipBlanks rest with
      | '\x7d' :: rest => some (.obj [], rest)
      | rest => (readMembers fuel rest).map fun (members, rest) => (ofMembers members, rest)
    | rest => readScalar rest

/-- The items of an array, at least one, and its closing bracket. -/
def readItems : (fuel : Nat) → List Char → Option (List Json × List Char)
  | 0, _ => none
  | fuel + 1, cs =>
    match readValue fuel cs with
    | none => none
    | some (v, rest) =>
      match skipBlanks rest with
      | ',' :: rest => (readItems fuel rest).map fun (vs, rest) => (v :: vs, rest)
      | ']' :: rest => some ([v], rest)
      | _ => none

/-- The members of an object, at least one, and its closing brace. -/
def readMembers : (fuel : Nat) → List Char → Option (List (Option String × Json) × List Char)
  | 0, _ => none
  | fuel + 1, cs =>
    match skipBlanks cs with
    | '\x22' :: cs =>
      match readString cs with
      | none => none
      | some (key, rest) =>
        match skipBlanks rest with
        | ':' :: rest =>
          match readValue fuel rest with
          | none => none
          | some (v, rest) =>
            match skipBlanks rest with
            | ',' :: rest =>
              (readMembers fuel rest).map fun (ms, rest) => ((key, v) :: ms, rest)
            | '\x7d' :: rest => some ([(key, v)], rest)
            | _ => none
        | _ => none
    | _ => none

end

/-- The value that a text holds, with nothing but blanks around it. -/
def parseChars? (cs : List Char) : Option Json :=
  match readValue (2 * cs.length + 1) cs with
  | some (v, rest) => if skipBlanks rest = [] then some v else none
  | none => none

/-- The value that a text holds, with nothing but blanks around it. -/
def parse? (text : String) : Option Json :=
  parseChars? text.toList

end StackSeq.Json
