import StackSeq.Diagnostic

/-!
# Files

What a program can learn from a file that it is told to read as text: that there is none, that it
holds no text, or its text.
-/

namespace StackSeq

/-- What is found under the name of a file. -/
inductive FileContent where
  /-- Nothing. -/
  | missing
  /-- Something that is no readable text: a directory, or bytes that are not UTF-8. -/
  | unreadable
  | text (content : String)
deriving DecidableEq

namespace FileContent

/-- The content of a file with these bytes. -/
def ofBytes (bytes : ByteArray) : FileContent :=
  match String.fromUTF8? bytes with
  | some content => text content
  | none => unreadable

end FileContent

/-- Why nothing could be loaded from a file. -/
inductive FileError where
  | missing
  | unreadable
  /-- The text is not of the expected form. -/
  | malformed
deriving DecidableEq

namespace FileError

def diagnostic : FileError → Diagnostic
  | missing => { kind := .fileNotFound, message := "no such file", operation := "io" }
  | unreadable =>
    { kind := .ioFailed, message := "file is not readable as text", operation := "io" }
  | malformed =>
    { kind := .serializationFailed, message := "malformed data", operation := "json" }

end FileError

namespace FileContent

/-- The text of a file. -/
def read : FileContent → Except FileError String
  | missing => .error .missing
  | unreadable => .error .unreadable
  | text content => .ok content

end FileContent

end StackSeq
