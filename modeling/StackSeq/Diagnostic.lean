import StackSeq.Text.Pieces

/-!
# Diagnostics

What a user is told when something fails. Each part of the library reports its failures as values
of its own, one constructor a cause; a diagnostic is what such a cause looks like from outside: a
kind to branch on, a message, the operation that failed and details as key and value.
-/

namespace StackSeq

/-- The kinds of failure. -/
inductive DiagnosticKind where
  /-- Settings that no search can use. -/
  | configInvalid
  /-- A value that breaks the rules of what it claims to be. -/
  | invalidArgument
  /-- Malformed program text or number. -/
  | parseFailed
  /-- Malformed program identifier or problem token. -/
  | decodeFailed
  /-- A program without an identifier. -/
  | encodeFailed
  /-- A search stopped by its observer. -/
  | cancelled
  /-- A template with a placeholder that has no value. -/
  | templateInvalid
  /-- A response without the part that was asked for. -/
  | responseInvalid
  /-- Malformed structured data. -/
  | serializationFailed
  /-- A file that does not exist. -/
  | fileNotFound
  /-- A file that cannot be read. -/
  | ioFailed
deriving DecidableEq

namespace DiagnosticKind

/-- The name of the kind. -/
def name : DiagnosticKind → String
  | configInvalid => "ConfigInvalid"
  | invalidArgument => "InvalidArgument"
  | parseFailed => "ParseFailed"
  | decodeFailed => "DecodeFailed"
  | encodeFailed => "EncodeFailed"
  | cancelled => "Cancelled"
  | templateInvalid => "TemplateInvalid"
  | responseInvalid => "ResponseInvalid"
  | serializationFailed => "SerializationFailed"
  | fileNotFound => "FileNotFound"
  | ioFailed => "IoFailed"

/-- Whether the failure comes from input that the user can mend. -/
def isCorrectable : DiagnosticKind → Bool
  | configInvalid | invalidArgument | parseFailed | decodeFailed | encodeFailed
  | templateInvalid => true
  | cancelled | responseInvalid | serializationFailed | fileNotFound | ioFailed => false

end DiagnosticKind

/-- A failure as it is shown. -/
structure Diagnostic where
  kind : DiagnosticKind
  message : String
  /-- The operation that failed, empty if none is named. -/
  operation : String := ""
  /-- Details, in the order in which they are shown. -/
  details : List (String × String) := []
deriving DecidableEq

namespace Diagnostic

/-- The value of the first detail with this key. -/
def detail? (d : Diagnostic) (key : String) : Option String :=
  (d.details.find? (·.1 == key)).map (·.2)

/-- One line: kind, operation, message, details. -/
def render (d : Diagnostic) : String :=
  let operation := if d.operation.isEmpty then "" else " in " ++ d.operation
  let details :=
    if d.details.isEmpty then ""
    else " [" ++ Text.join ", " (d.details.map fun p => p.1 ++ "=" ++ p.2) ++ "]"
  d.kind.name ++ operation ++ ": " ++ d.message ++ details

/-- What is printed for the user: the bare message if it helps to mend the input, else all. -/
def summary (d : Diagnostic) : String :=
  if d.kind.isCorrectable then d.message else d.render

end Diagnostic

end StackSeq
