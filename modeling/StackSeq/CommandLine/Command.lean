import StackSeq.CommandLine.Arguments
import StackSeq.Text.Numeral

/-!
# Commands

What can be asked of the program on its command line. The first word that is no option names the
command, and the words after it are its arguments. Two options may stand before it: `-v` asks for
log output, of which there is none, and `-V` for the version.
-/

namespace StackSeq

/-- What is asked of the program. -/
inductive Command where
  /-- The name and version of the program. -/
  | version
  /-- The identifier of a program. -/
  | toHex (program : String)
  /-- The program of an identifier. -/
  | fromHex (id : String)
  /-- A run on a stack. -/
  | eval (program stack : String) (trace : Bool)
  /-- A run on an unknown stack. -/
  | analyze (program : String) (originDepth : UInt64) (trace : Bool)
  /-- A sequence. -/
  | sequence (program seed : String) (length : UInt64) (maxTerm : Int64)
  /-- A set of problems. -/
  | generate (settings : Option String) (difficulty : Option UInt32) (poolSize : Option UInt64)
      (json : Bool)
  /-- A problem and its prompts. -/
  | problem (id : String) (settings : Option String) (slot : UInt64) (prompts : Bool)
      (pattern : Option String)
  /-- The grade of a response in a file. -/
  | grade (id response : String) (slot : UInt64)
  /-- The default settings, or those of a file. -/
  | settings (file : Option String)
deriving DecidableEq

namespace Command

/-! ## Options -/

/-- The option that all commands know. -/
def verbose : OptionSpec := { name := "verbose", letter := some 'v', takesValue := false }

/-- The option for the points of a run. -/
def traceOption : OptionSpec := { name := "trace", letter := some 't', takesValue := false }

/-- The options of the command with this name. -/
def options? : String → Option (List OptionSpec)
  | "to-hex" | "from-hex" | "settings" => some [verbose]
  | "eval" => some [verbose, traceOption, { name := "stack", letter := some 's' }]
  | "analyze" => some [verbose, traceOption, { name := "origin-depth", letter := some 'o' }]
  | "sequence" =>
    some
      [verbose, { name := "seed", letter := some 's' }, { name := "len", letter := some 'l' },
        { name := "max-term", letter := some 'm' }]
  | "generate" =>
    some
      [verbose, { name := "settings" }, { name := "difficulty", letter := some 'd' },
        { name := "pool-size", letter := some 'p' }, { name := "json", takesValue := false }]
  | "problem" =>
    some
      [verbose, { name := "settings" }, { name := "slot" },
        { name := "prompts", takesValue := false }, { name := "pattern" }]
  | "grade" => some [verbose, { name := "response", letter := some 'r' }, { name := "slot" }]
  | _ => none

/-! ## Values -/

def word? (s : String) : Option UInt64 := Text.word? s.toList

def halfWord? (s : String) : Option UInt32 := Text.halfWord? s.toList

def int64? (s : String) : Option Int64 := Text.int64? s.toList

/-- The name of a file, which is not empty. -/
def fileName? (s : String) : Option String := if s.isEmpty then none else some s

/-- A value that an option may leave out. -/
def optional? {α : Type} (decode : String → Option α) (s : String) : Option (Option α) :=
  (decode s).map some

/-- The command with this name and these arguments. -/
def ofArguments? (name : String) (a : Arguments) : Option Command :=
  match name, a.positionals with
  | "to-hex", [program] => some (.toHex program)
  | "from-hex", [id] => some (.fromHex id)
  | "eval", [program] => do
    let stack ← a.settingOr "stack" some ""
    some (.eval program stack (a.hasFlag "trace"))
  | "analyze", [program] => do
    let originDepth ← a.settingOr "origin-depth" word? 1
    some (.analyze program originDepth (a.hasFlag "trace"))
  | "sequence", [program] => do
    let seed ← a.settingOr "seed" some "1 2"
    let length ← a.settingOr "len" word? 10
    let maxTerm ← a.settingOr "max-term" int64? 1000000
    some (.sequence program seed length maxTerm)
  | "generate", [] => do
    let settings ← a.settingOr "settings" (optional? fileName?) none
    let difficulty ← a.settingOr "difficulty" (optional? halfWord?) none
    let poolSize ← a.settingOr "pool-size" (optional? word?) none
    some (.generate settings difficulty poolSize (a.hasFlag "json"))
  | "problem", [id] => do
    let settings ← a.settingOr "settings" (optional? fileName?) none
    let slot ← a.settingOr "slot" word? 0
    some (.problem id settings slot (a.hasFlag "prompts") (a.setting? "pattern"))
  | "grade", [id] => do
    let response ← (a.setting? "response").bind fileName?
    let slot ← a.settingOr "slot" word? 0
    some (.grade id response slot)
  | "settings", [] => some (.settings none)
  | "settings", [file] => (fileName? file).map fun file => .settings (some file)
  | _, _ => none

/-! ## Command lines -/

/-- The letters of options before the name of the command: whether they ask for the version, or
else for how many log outputs; nothing if a letter stands for no option. -/
def leadingLetters? : List Char → Option (Bool × Nat)
  | [] => some (false, 0)
  | 'V' :: _ => some (true, 0)
  | 'v' :: rest => (leadingLetters? rest).map fun p => (p.1, p.2 + 1)
  | _ => none

/-- The command of a command line of which the options before its name asked `logs` times for log
output; nothing if it makes no sense. -/
def parseAfter? (logs : Nat) : List String → Option Command
  | [] => none
  | word :: rest =>
    if 1 < logs then none
    else match word.toList with
      | '-' :: '-' :: _ =>
        if word = "--version" then some .version
        else if word = "--verbose" then parseAfter? (logs + 1) rest
        else none
      | '-' :: c :: letters => do
        let (asksVersion, more) ← leadingLetters? (c :: letters)
        if asksVersion then if 1 < logs + more then none else some .version
        else parseAfter? (logs + more) rest
      | _ => do
        let options ← options? word
        let arguments ← Arguments.parse? options rest
        ofArguments? word arguments

/-- The command of a command line; nothing if it makes no sense. -/
def parse? (words : List String) : Option Command := parseAfter? 0 words

/-- The names of the files that the command reads. -/
def files : Command → List String
  | generate file _ _ _ => file.toList
  | problem _ file _ _ _ => file.toList
  | grade _ file _ => [file]
  | settings file => file.toList
  | _ => []

end Command

end StackSeq
