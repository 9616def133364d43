import StackSeq.Diagnostic
import StackSeq.Prompt.Label
import StackSeq.Text.Alphanumeric
import StackSeq.Text.Pieces

/-!
# Responses

What a solver answers is free text with an answer on a line of its own behind a marker, as in
`MATCH: (B)`. The last line that has the marker counts. A marker must not be the end of a longer
word: the character before it, if there is one, is neither letter nor digit nor underscore.
-/

namespace StackSeq

/-- Why a response to a prompt cannot be used. -/
inductive ResponseError where
  /-- No line has the marker of a choice. -/
  | noMatchLine
  /-- What stands behind the marker names no choice. -/
  | noChoice (answer : String)
  /-- The choice does not exist. -/
  | unknownChoice (index : Nat)
deriving DecidableEq

namespace ResponseError

def message : ResponseError → String
  | noMatchLine => "expected a MATCH line"
  | noChoice answer => "expected a choice like (A), (B), ...; got: " ++ answer
  | unknownChoice index => "choice (" ++ Label.ofIndex index ++ ") does not exist"

def diagnostic (e : ResponseError) : Diagnostic where
  kind := .responseInvalid
  message := e.message
  operation := "prompt::parse"

end ResponseError

namespace Response

/-! ## Markers -/

/-- Whether a marker may follow this character or, for `none`, start a line. -/
def isBoundary : Option Char → Bool
  | none => true
  | some c => !(Text.isAlphanumeric c || c == '_')

/-- The rest of a line after the first occurrence of `needle` at a boundary. Occurrences do not
overlap: after one that is not at a boundary, `skip` characters of it are passed over. -/
def valueAfter? (needle : List Char) :
    (skip : Nat) → (previous : Option Char) → List Char → Option (List Char)
  | _, _, [] => none
  | skip + 1, _, c :: rest => valueAfter? needle skip (some c) rest
  | 0, previous, c :: rest =>
    if needle.isPrefixOf (c :: rest) then
      if isBoundary previous then some ((c :: rest).drop needle.length)
      else valueAfter? needle (needle.length - 1) (some c) rest
    else valueAfter? needle 0 (some c) rest

/-- The value behind the marker on the last line that has it. -/
def markerValue? (response marker : String) : Option String :=
  let needle := marker.toList ++ [':', ' ']
  ((Text.lines response.toList).reverse.findSome? (valueAfter? needle 0 none)).map String.ofList

/-! ## Answers -/

def isCapital (c : Char) : Bool := decide (0x41 ≤ c.toNat ∧ c.toNat ≤ 0x5A)

/-- The choice that the response names, or none if it says that no choice fits. -/
def choice (response : String) : Except ResponseError (Option Nat) :=
  match markerValue? response "MATCH" with
  | none => .error .noMatchLine
  | some answer =>
    let capitals := answer.toList.filter isCapital
    if capitals = ['N', 'O', 'N', 'E'] then .ok none
    else match Label.index? capitals with
      | some index => .ok (some index)
      | none => .error (.noChoice answer)

/-- Whether the response says yes. -/
def isYes (response : String) : Bool :=
  match markerValue? response "ANSWER" with
  | some answer => Text.trim answer.toList == ['Y', 'E', 'S']
  | none => false

end Response

end StackSeq
