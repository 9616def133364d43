import StackSeq.CommandLine.Command
import StackSeq.Program.Form
import StackSeq.Program.Mnemonic
import StackSeq.Search
import StackSeq.Settings.File

/-!
# The command line

What the program prints for a command, given the files. Text printed before something fails stays,
and the failure is reported on the error stream: its bare message if it helps to mend the input,
and otherwise all that is known of it.
-/

namespace StackSeq

/-! ## Output -/

/-- What a command prints, and its failure if it fails. -/
structure Printed where
  out : String := ""
  err : String := ""
  failure : Option Diagnostic := none
deriving DecidableEq

namespace Printed

/-- A line on the output stream. -/
def line (text : String) : Printed := { out := text ++ "\n" }

def fail (d : Diagnostic) : Printed := { failure := some d }

/-- What is printed first, and then the rest unless the first fails. -/
def andThen (first rest : Printed) : Printed :=
  match first.failure with
  | some _ => first
  | none =>
    { out := first.out ++ rest.out, err := first.err ++ rest.err, failure := rest.failure }

/-- All that is printed in turn, up to the first failure. -/
def all (parts : List Printed) : Printed := parts.foldr andThen {}

/-- What is printed for a result, or its failure. -/
def ofResult {ε α : Type} (diagnostic : ε → Diagnostic) (result : Except ε α)
    (print : α → Printed) : Printed :=
  match result with
  | .ok a => print a
  | .error e => fail (diagnostic e)

end Printed

/-- What is left when the program ends. -/
structure Outcome where
  code : UInt32
  out : String
  err : String
deriving DecidableEq

namespace Command

open Printed

/-! ## Programs -/

/-- Values in brackets. -/
def valuesText (values : List Rational) : String :=
  "[" ++ Text.join ", " (values.map Rational.text) ++ "]"

/-- A point of a run: what is left of the program, and the stack. -/
def pointLine (remaining : List Op) (stack : String) : Printed :=
  line (Text.padLeft 32 (opsText remaining) ++ " | " ++ stack)

def printToHex (program : String) : Printed :=
  ofResult ProgramTextError.diagnostic (Program.parse program) fun p =>
    ofResult UnencodableOp.diagnostic p.identifier line

def printFromHex (id : String) : Printed :=
  ofResult IdentifierError.diagnostic (Program.ofIdentifier id) fun p => { out := p.overview }

def printEval (program stack : String) (trace : Bool) : Printed :=
  ofResult ProgramTextError.diagnostic (Program.parse program) fun p =>
    ofResult LiteralError.diagnostic (Rational.parseList stack) fun values =>
      let points :=
        if trace then
          (p.trace values).map fun b => pointLine b.remaining (valuesText b.stack.toList)
        else []
      all (points ++ [line (valuesText (p.evaluate values))])

/-- An integer with its sign, which zero has too. -/
def signedText (n : Int) : String :=
  if 0 ≤ n then "+" ++ toString n else toString n

def printAnalyze (program : String) (originDepth : UInt64) (trace : Bool) : Printed :=
  ofResult ProgramTextError.diagnostic (Program.parse program) fun p =>
    let exploration := p.explore originDepth.toNat
    let result := exploration.outcome
    let points :=
      if trace then exploration.points.map fun b => pointLine b.remaining b.stack.text else []
    let top :=
      match result.topOfStack? with
      | some slot => slot.text
      | none => "(paths end at different heights)"
    all <| points ++
      [line ("stack:        " ++ result.text),
        line ("top:          " ++ top),
        line ("depth change: " ++ signedText result.depthChange),
        line ("length >=     " ++ toString result.lengthBound)]

/-! ## Sequences -/

/-- Why a text is no list of seed terms. -/
inductive SeedError where
  | literal (cause : LiteralError)
  /-- A value has a fractional part. -/
  | fraction (value : Rational)

namespace SeedError

def diagnostic : SeedError → Diagnostic
  | literal cause => cause.diagnostic
  | fraction value =>
    { kind := .parseFailed, message := "seed term " ++ value.text ++ " is not an integer" }

end SeedError

/-- The terms that a text lists. -/
def parseTerms (text : String) : Except SeedError Sequence := do
  let values ← (Rational.parseList text).mapError .literal
  values.mapM fun value =>
    match value.toTerm? with
    | some term => .ok term
    | none => .error (.fraction value)

def printSequence (program seed : String) (length : UInt64) (maxTerm : Int64) : Printed :=
  ofResult ProgramTextError.diagnostic (Program.parse program) fun p =>
    ofResult SeedError.diagnostic (parseTerms seed) fun seed =>
      match p.extend seed length.toNat maxTerm with
      | some terms => line terms.text
      | none =>
        line ("(degenerate: empty stack, fraction, or a term beyond "
          ++ toString maxTerm.toInt ++ ")")

/-! ## Problems -/

/-- The settings of a file that were checked, or the default ones. -/
def withSettings (files : String → FileContent) (name : Option String)
    (print : Settings → Printed) : Printed :=
  match name with
  | none => print {}
  | some name =>
    ofResult FileError.diagnostic (Settings.load (files name)) fun s =>
      ofResult SettingsFault.diagnostic s.check fun _ => print s

/-- A problem with its solution, the choices in the order of a layout. -/
def printProblemText (p : Problem) (l : Layout) : Printed :=
  ofResult IdentifierError.diagnostic p.pattern fun pattern =>
    all <|
      [line ("pattern: " ++ p.program ++ "  (" ++ pattern.text ++ ")")]
        ++ p.examples.map (fun terms => line ("  " ++ terms.text))
        ++ [line "choices:"]
        ++ (l.choices p).mapIdx fun index choice =>
          line ((if l.isCorrect index then "* " else "  ") ++ Layout.choiceLine index choice)

/-- A report of progress, which overwrites the one before it. -/
def progressText (report : Progress) : String :=
  "\rscanned " ++ toString report.scanned ++ "/" ++ toString report.total ++ " ("
    ++ toString report.groups ++ " sequences)"

def printGenerate (files : String → FileContent) (settings : Option String)
    (difficulty : Option UInt32) (poolSize : Option UInt64) (json : Bool) : Printed :=
  withSettings files settings fun s =>
    let s :=
      { s with
        difficulty := difficulty.getD s.difficulty
        poolSize := poolSize.getD s.poolSize }
    let result := s.resolve fun _ _ => .proceed
    let progress : Printed := { err := String.join (result.reports.map progressText) ++ "\n" }
    progress.andThen <|
      ofResult SearchError.diagnostic result.outcome fun problems =>
        if json then line (Json.arr (problems.map Problem.toJson)).pretty
        else
          all <| problems.flatMap fun p => [line p.token, printProblemText p ⟨0⟩, line ""]

/-- A prompt below a heading. -/
def underHeading (title text : String) : Printed :=
  line ("\n=== " ++ title ++ " ===\n" ++ text)

def printProblem (files : String → FileContent) (id : String) (settings : Option String)
    (slot : UInt64) (prompts : Bool) (pattern : Option String) : Printed :=
  withSettings files settings fun s =>
    ofResult TokenError.diagnostic (Problem.ofToken id) fun p =>
      let l := Layout.atSlot p slot.toNat
      let solver : List Printed :=
        if prompts then
          [ofResult TemplateError.diagnostic (s.prompts.solverPrompt p l) (underHeading "SOLVER")]
        else []
      let verifier (pattern : String) : Printed :=
        ofResult TemplateError.diagnostic (s.prompts.verifierPrompt p l pattern)
          (underHeading "VERIFIER")
      let checker (pattern : String) (index : Nat) : Printed :=
        ofResult PromptError.diagnostic (s.prompts.checkerPrompt p l pattern index)
          (underHeading ("CHECKER (" ++ Label.ofIndex index ++ ")"))
      let judges : List Printed :=
        match pattern with
        | none => []
        | some pattern => verifier pattern :: (List.range p.choiceCount).map (checker pattern)
      all (printProblemText p l :: (solver ++ judges))

/-- What is said about a choice. -/
def gradeText (l : Layout) : Option Nat → String
  | some index =>
    if l.isCorrect index then "correct (" ++ Label.ofIndex index ++ ")"
    else
      "incorrect: picked (" ++ Label.ofIndex index ++ "), answer is ("
        ++ Label.ofIndex l.correctIndex ++ ")"
  | none => "no match claimed, answer is (" ++ Label.ofIndex l.correctIndex ++ ")"

def printGrade (files : String → FileContent) (id response : String) (slot : UInt64) : Printed :=
  ofResult TokenError.diagnostic (Problem.ofToken id) fun p =>
    ofResult FileError.diagnostic (files response).read fun text =>
      ofResult ResponseError.diagnostic (Response.choice text) fun choice =>
        line (gradeText (Layout.atSlot p slot.toNat) choice)

def printSettings (files : String → FileContent) (file : Option String) : Printed :=
  withSettings files file fun s => line s.save

/-! ## All commands -/

/-- What is printed for a command. -/
def print (files : String → FileContent) : Command → Printed
  | version => line "stackbee 0.1.0"
  | toHex program => printToHex program
  | fromHex id => printFromHex id
  | eval program stack trace => printEval program stack trace
  | analyze program originDepth trace => printAnalyze program originDepth trace
  | sequence program seed length maxTerm => printSequence program seed length maxTerm
  | generate file difficulty poolSize json => printGenerate files file difficulty poolSize json
  | problem id file slot prompts pattern => printProblem files id file slot prompts pattern
  | grade id response slot => printGrade files id response slot
  | settings file => printSettings files file

/-- How the program ends for a command. -/
def run (files : String → FileContent) (command : Command) : Outcome :=
  let printed := command.print files
  match printed.failure with
  | none => ⟨0, printed.out, printed.err⟩
  | some d => ⟨1, printed.out, printed.err ++ "Error: " ++ d.summary ++ "\n"⟩

/-- How the program ends for a command line that makes no sense. -/
def misused : Outcome := ⟨2, "", "error: unknown command or arguments\n"⟩

/-- How the program ends for a command line. -/
def runWords (files : String → FileContent) (words : List String) : Outcome :=
  match parse? words with
  | none => misused
  | some command => command.run files

end Command

end StackSeq
