import StackSeq.Json.Reader
import StackSeq.Problem.Form
import StackSeq.Text.Base64Url
import StackSeq.Text.Pieces

/-!
# Problem tokens

A problem as one word that can be passed on: the compact JSON array of a format version and the
parts of the problem, in base64 for URLs. Reading drops blanks around the token and accepts
nothing but a valid problem.
-/

namespace StackSeq

/-- Why a text is no problem token. -/
inductive TokenError where
  /-- It is not base64 for URLs. -/
  | notBase64
  /-- What it encodes is not the array of a problem. -/
  | notRecord
  /-- It has another format version. -/
  | version (version : UInt32)
  /-- Its problem breaks a rule. -/
  | fault (fault : ProblemFault)
deriving DecidableEq

namespace TokenError

def message : TokenError → String
  | notBase64 => "not base64url: malformed text"
  | notRecord => "not a problem record: malformed data"
  | version v => "unsupported problem ID version " ++ toString v.toNat
  | fault f => f.message

def diagnostic (e : TokenError) : Diagnostic where
  kind := .decodeFailed
  message := e.message
  operation := "problem::decode"
  details :=
    match e with
    | version v => [("version", toString v.toNat)]
    | _ => []

end TokenError

namespace Problem

/-- The version of the token format. -/
def tokenVersion : UInt32 := 1

/-- The array that a token encodes. -/
def toRecord (p : Problem) : Json :=
  .arr
    [.ofHalfWord tokenVersion,
      .str p.program,
      .ofWord p.seedLen,
      .arr (p.examples.map Sequence.toJson),
      p.correct.toJson,
      .arr (p.foils.map fun foil => .arr [foil.sequence.toJson, .str foil.source])]

/-- The foil of a pair in the array. -/
def foilOfRecord? : Json → Option Foil
  | .arr [sequence, source] => do
    let sequence ← Sequence.ofJson? sequence
    let source ← source.toText?
    some { sequence, source }
  | _ => none

/-- The version and the problem in an array. -/
def ofRecord? : Json → Option (UInt32 × Problem)
  | .arr [version, program, seedLen, examples, correct, foils] => do
    let version ← version.toHalfWord?
    let program ← program.toText?
    let seedLen ← seedLen.toWord?
    let examples ← examples.toList? Sequence.ofJson?
    let correct ← Sequence.ofJson? correct
    let foils ← foils.toList? foilOfRecord?
    some (version, { program, seedLen, examples, correct, foils })
  | _ => none

/-- The token of a problem. -/
def token (p : Problem) : String :=
  String.ofList (Text.Base64Url.encode p.toRecord.compact.toUTF8.data.toList)

/-- The array that the bytes of a token hold. -/
def recordOfBytes? (bytes : List UInt8) : Option (UInt32 × Problem) :=
  (String.fromUTF8? ⟨bytes.toArray⟩).bind fun text => (Json.parse? text).bind ofRecord?

/-- The problem of a token. -/
def ofToken (token : String) : Except TokenError Problem :=
  match Text.Base64Url.decode? (Text.trim token.toList) with
  | none => .error .notBase64
  | some bytes =>
    match recordOfBytes? bytes with
    | none => .error .notRecord
    | some (version, p) =>
      if version ≠ tokenVersion then .error (.version version)
      else match p.check with
        | .error fault => .error (.fault fault)
        | .ok () => .ok p

/-- A problem that a token yields breaks no rule. -/
theorem check_of_ofToken {token : String} {p : Problem} (h : ofToken token = .ok p) :
    p.check = .ok () := by
  unfold ofToken at h
  split at h
  · cases h
  · split at h
    · cases h
    · split at h
      · cases h
      · split at h
        · cases h
        · next hc =>
          cases h
          exact hc

end Problem

end StackSeq
