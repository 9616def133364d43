import StackSeq.Diagnostic
import StackSeq.Rational
import StackSeq.Text.Pieces

/-!
# Rational literals

The text form of a value: `N` or `N/D` with signed integer literals `N` and `D` in the 64-bit
range and `D` not zero. Reading takes blanks around the literal and brings the quotient to lowest
terms; writing gives the reduced fraction, without the divisor if it is one.
-/

namespace StackSeq

/-- A text that is no rational literal; `text` is what stood there without blanks around it. -/
structure LiteralError where
  text : String
deriving DecidableEq

namespace LiteralError

def diagnostic (e : LiteralError) : Diagnostic where
  kind := .parseFailed
  message := "invalid rational '" ++ e.text ++ "'"
  operation := "rational::parse"
  details := [("text", e.text)]

end LiteralError

namespace Rational

/-- The literal of a value. -/
def text (r : Rational) : String :=
  if r.den = 1 then toString r.num else toString r.num ++ "/" ++ toString r.den

/-- The value of a literal without blanks around it. -/
def ofLiteral? (cs : List Char) : Option Rational :=
  match Text.cutAt '/' cs with
  | none => (Text.int64? cs).map ofTerm
  | some (numerator, denominator) => do
    let n ← Text.int64? numerator
    let d ← Text.int64? denominator
    if d = 0 then none else some (ofQuotient n.toInt d.toInt)

/-- Reads a literal with blanks around it. -/
def parseChars (cs : List Char) : Except LiteralError Rational :=
  match ofLiteral? (Text.trim cs) with
  | some r => .ok r
  | none => .error ⟨String.ofList (Text.trim cs)⟩

/-- Reads a literal with blanks around it. -/
def parse (s : String) : Except LiteralError Rational :=
  parseChars s.toList

/-- What stands between the items of a list: blanks and commas. -/
def isListSeparator (c : Char) : Bool :=
  Text.isBlank c || c == ','

/-- Reads a list of literals; the first malformed item is the error. -/
def parseList (s : String) : Except LiteralError (List Rational) :=
  (Text.tokens isListSeparator s.toList).mapM parseChars

end Rational

end StackSeq
