/-!
# Structured data

JSON values and their two written forms, the compact one without blanks and the pretty one with
an indentation of two spaces. Objects keep their members in order, repeated keys included, and
integers are exact.

`unpaired` stands for a piece of text that is well formed and yet names no value, because an
escape in a string of it is half of a surrogate pair. A reader that skips such a piece has no
quarrel with it; nothing writes it.
-/

namespace StackSeq

/-- A JSON value. -/
inductive Json where
  | null
  | bool (b : Bool)
  /-- A number written without fraction and exponent. -/
  | int (n : Int)
  /-- Any other number: `mantissa` times ten to the power `exponent`. -/
  | decimal (mantissa exponent : Int)
  | str (s : String)
  | arr (items : List Json)
  | obj (members : List (String × Json))
  /-- Half of a surrogate pair stands in a string of this value. -/
  | unpaired

namespace Json

/-! ## Strings -/

/-- A character within quotes. Quote, backslash and control characters are escaped, and nothing
else is. -/
def escapeChar (c : Char) : List Char :=
  if c = '\x22' then ['\\', '\x22']
  else if c = '\\' then ['\\', '\\']
  else if c = '\x08' then ['\\', 'b']
  else if c = '\t' then ['\\', 't']
  else if c = '\n' then ['\\', 'n']
  else if c = '\x0c' then ['\\', 'f']
  else if c = '\r' then ['\\', 'r']
  else if c.toNat < 0x20 then
    ['\\', 'u', '0', '0', (c.toNat / 16).digitChar, (c.toNat % 16).digitChar]
  else [c]

/-- A string within quotes. -/
def quote (s : String) : List Char :=
  '\x22' :: (s.toList.flatMap escapeChar ++ ['\x22'])

/-! ## Compact form -/

/-- A value that is neither array nor object. -/
def scalar : Json → List Char
  | bool true => "true".toList
  | bool false => "false".toList
  | int n => (toString n).toList
  | decimal mantissa exponent => (toString mantissa ++ "e" ++ toString exponent).toList
  | str s => quote s
  | null | arr _ | obj _ | unpaired => "null".toList

mutual

/-- The value without blanks. -/
def compactChars : Json → List Char
  | arr items => '[' :: (compactItems items ++ [']'])
  | obj members => '\x7b' :: (compactMembers members ++ ['\x7d'])
  | v => v.scalar

/-- The items of an array without its brackets. -/
def compactItems : List Json → List Char
  | [] => []
  | [v] => v.compactChars
  | v :: w :: rest => v.compactChars ++ ',' :: compactItems (w :: rest)

/-- The members of an object without its braces. -/
def compactMembers : List (String × Json) → List Char
  | [] => []
  | [(key, v)] => quote key ++ ':' :: v.compactChars
  | (key, v) :: m :: rest =>
    quote key ++ ':' :: (v.compactChars ++ ',' :: compactMembers (m :: rest))

end

/-- The compact form. -/
def compact (v : Json) : String := String.ofList v.compactChars

/-! ## Pretty form -/

/-- The line break in front of an item at this depth of nesting. -/
def indent (depth : Nat) : List Char :=
  '\n' :: List.replicate (2 * depth) ' '

mutual

/-- The value with each item on a line of its own; empty arrays and objects stay on theirs. -/
def prettyChars (depth : Nat) : Json → List Char
  | arr [] => ['[', ']']
  | arr (v :: rest) => '[' :: (prettyItems (depth + 1) (v :: rest) ++ indent depth ++ [']'])
  | obj [] => ['\x7b', '\x7d']
  | obj (m :: rest) =>
    '\x7b' :: (prettyMembers (depth + 1) (m :: rest) ++ indent depth ++ ['\x7d'])
  | v => v.scalar

/-- The items of an array without its brackets. -/
def prettyItems (depth : Nat) : List Json → List Char
  | [] => []
  | [v] => indent depth ++ v.prettyChars depth
  | v :: w :: rest => indent depth ++ v.prettyChars depth ++ ',' :: prettyItems depth (w :: rest)

/-- The members of an object without its braces. -/
def prettyMembers (depth : Nat) : List (String × Json) → List Char
  | [] => []
  | [(key, v)] => indent depth ++ quote key ++ ':' :: ' ' :: v.prettyChars depth
  | (key, v) :: m :: rest =>
    indent depth ++ quote key ++ ':' :: ' ' :: v.prettyChars depth
      ++ ',' :: prettyMembers depth (m :: rest)

end

/-- The pretty form. -/
def pretty (v : Json) : String := String.ofList (v.prettyChars 0)

end Json

end StackSeq
