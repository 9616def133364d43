import StackSeq.Program

/-!
# Program text

A program is written as words between blanks. A word is a fixed mnemonic, a rational literal, or
`bgtz`, which takes the word after it as its offset, an unsigned 64-bit literal. Words are read
from left to right and the first that fits nothing is reported with its index; a branch without a
usable offset is reported at its `bgtz`.
-/

namespace StackSeq

/-- Why a text is no program. -/
inductive ProgramTextError where
  /-- The word at `position` is neither a mnemonic nor a literal. -/
  | unknownToken (token : String) (position : Nat)
  /-- The `bgtz` at `position` has no usable offset after it. -/
  | missingOffset (position : Nat)
deriving DecidableEq

namespace ProgramTextError

def diagnostic : ProgramTextError → Diagnostic
  | unknownToken token position =>
    { kind := .parseFailed
      message := "unknown token '" ++ token ++ "'"
      operation := "opcode::parse"
      details := [("token", token), ("position", toString position)] }
  | missingOffset position =>
    { kind := .parseFailed
      message := "bgtz must be followed by a non-negative integer offset"
      operation := "opcode::parse"
      details := [("position", toString position)] }

end ProgramTextError

/-- The operation written as one word. -/
def Op.ofWord? (word : List Char) : Option Op :=
  (Op.ofMnemonic? (String.ofList word)).or ((Rational.ofLiteral? word).map Op.push)

namespace Program

/-- The operations written by a list of words, of which the first has index `position`. -/
def opsOfWords : (position : Nat) → List (List Char) → Except ProgramTextError (List Op)
  | _, [] => .ok []
  | position, word :: rest =>
    if word = ['b', 'g', 't', 'z'] then
      match rest with
      | [] => .error (.missingOffset position)
      | offset :: rest =>
        match Text.word? offset with
        | none => .error (.missingOffset position)
        | some k => (opsOfWords (position + 2) rest).map (Op.bgtz k :: ·)
    else
      match Op.ofWord? word with
      | none => .error (.unknownToken (String.ofList word) position)
      | some op => (opsOfWords (position + 1) rest).map (op :: ·)

/-- Reads the text of a program. -/
def parse (text : String) : Except ProgramTextError Program :=
  (opsOfWords 0 (Text.words text.toList)).map Program.mk

end Program

end StackSeq
