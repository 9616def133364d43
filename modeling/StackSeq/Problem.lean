import StackSeq.Check
import StackSeq.Program.Identifier
import StackSeq.Sequence

/-!
# Problems

A puzzle on number sequences. A hidden program has grown the example sequences; of the choices one
is grown by it too, and the others, the *foils*, come from programs that agree with it on every
example and yet go on differently.

`Problem.check` says which rule a problem breaks first. The rules are checked in a fixed order:
the program's identifier, the lengths, repeated choices, the sequences of the pattern, and then
foil by foil where it comes from.
-/

namespace StackSeq

/-- A wrong choice: a sequence and the identifier of the program that grows it. -/
structure Foil where
  sequence : Sequence
  source : String
deriving DecidableEq

/-- A puzzle. -/
structure Problem where
  /-- Identifier of the hidden program. -/
  program : String
  /-- How many terms of every sequence are its seed. -/
  seedLen : UInt64
  examples : List Sequence
  correct : Sequence
  foils : List Foil
deriving DecidableEq

/-- The rule that a problem breaks. -/
inductive ProblemFault where
  /-- An identifier in it names no program. -/
  | identifier (cause : IdentifierError)
  /-- The correct sequence has no terms besides its seed. -/
  | noGrowth (terms : Nat) (seedLen : UInt64)
  /-- A sequence is shorter or longer than the correct one. -/
  | lengths
  /-- A choice occurs twice. -/
  | duplicateChoice (choice : Sequence)
  /-- A sequence is not grown by the program that it is said to come from. -/
  | notProduced (sequence : Sequence) (program : String)
  /-- A foil has the identifier of the pattern. -/
  | reusedProgram
  /-- The program of a foil does not grow an example. -/
  | disagreement (program : String)
deriving DecidableEq

namespace ProblemFault

/-- What is said about the rule. -/
def message : ProblemFault → String
  | identifier cause => cause.diagnostic.message
  | noGrowth terms seedLen =>
    "sequences have " ++ toString terms ++ " terms, not more than the "
      ++ toString seedLen.toNat ++ " seed terms"
  | lengths => "sequences differ in length"
  | duplicateChoice choice => "duplicate choice " ++ choice.bracketed
  | notProduced sequence program =>
    sequence.bracketed ++ " is not produced by program " ++ program
  | reusedProgram => "a foil reuses the pattern's program"
  | disagreement program => "foil program " ++ program ++ " disagrees with the example sequences"

def diagnostic : ProblemFault → Diagnostic
  | identifier cause => cause.diagnostic
  | fault =>
    { kind := .invalidArgument, message := fault.message, operation := "problem::validate" }

end ProblemFault

namespace Problem

/-- The number of choices, the correct one included. -/
def choiceCount (p : Problem) : Nat := p.foils.length + 1

/-- The hidden program. -/
def pattern (p : Problem) : Except IdentifierError Program :=
  Program.ofIdentifier p.program

/-- The first foil whose sequence was seen before, at an earlier foil or in `seen`. -/
def duplicate? (seen : List Sequence) : List Foil → Option Sequence
  | [] => none
  | foil :: rest =>
    if foil.sequence ∈ seen then some foil.sequence
    else duplicate? (foil.sequence :: seen) rest

/-- Checks where a foil comes from. -/
def checkFoil (p : Problem) (foil : Foil) : Except ProblemFault Unit := do
  require (foil.source != p.program) .reusedProgram
  let source ← (Program.ofIdentifier foil.source).mapError .identifier
  require (source.reproduces foil.sequence p.seedLen.toNat) (.notProduced foil.sequence foil.source)
  require (p.examples.all fun terms => source.reproduces terms p.seedLen.toNat)
    (.disagreement foil.source)

/-- Checks the rules of a problem. -/
def check (p : Problem) : Except ProblemFault Unit := do
  let pattern ← p.pattern.mapError .identifier
  require (decide (p.seedLen.toNat < p.correct.length)) (.noGrowth p.correct.length p.seedLen)
  require
    (p.examples.all (·.length == p.correct.length)
      && p.foils.all (·.sequence.length == p.correct.length))
    .lengths
  match duplicate? [p.correct] p.foils with
  | some choice => .error (.duplicateChoice choice)
  | none => .ok ()
  requireAll
    (fun terms =>
      require (pattern.reproduces terms p.seedLen.toNat) (.notProduced terms p.program))
    (p.examples ++ [p.correct])
  requireAll p.checkFoil p.foils

end Problem

end StackSeq
