import StackSeq.Text.Pieces

/-!
# Arguments of a command

The words after the name of a command: values in their order and, between them, options. A long
option is `--name`, a short one `-c`; several short ones may share a dash. An option that takes a
value finds it behind `=`, behind its letter or in the next word, which must not start with a dash
unless it is a dash alone. After the word `--` everything is a value. No option may occur twice.
-/

namespace StackSeq

/-- An option that a command knows. -/
structure OptionSpec where
  name : String
  /-- The letter that stands for it. -/
  letter : Option Char := none
  takesValue : Bool := true

/-- The arguments of a command. -/
structure Arguments where
  /-- The options that take no value, by name. -/
  flags : List String := []
  /-- The options that take a value, by name and with it. -/
  settings : List (String × String) := []
  /-- The values in their order. -/
  positionals : List String := []

namespace Arguments

def withFlag (a : Arguments) (name : String) : Arguments := { a with flags := name :: a.flags }

def withSetting (a : Arguments) (name value : String) : Arguments :=
  { a with settings := (name, value) :: a.settings }

def withPositional (a : Arguments) (value : String) : Arguments :=
  { a with positionals := value :: a.positionals }

/-- Whether the word starts like an option. -/
def startsLikeOption (word : String) : Bool :=
  match word.toList with
  | '-' :: _ :: _ => true
  | _ => false

/-- What short options sharing a dash say: their flags, and at the end perhaps an option with the
value behind it, or without one if the next word has it. -/
structure Cluster where
  flags : List String := []
  last : Option (String × Option String) := none

/-- Reads the letters behind a dash. -/
def cluster? (specs : List OptionSpec) : List Char → Option Cluster
  | [] => some {}
  | c :: rest => do
    let spec ← specs.find? (·.letter == some c)
    if spec.takesValue then
      let value :=
        match rest with
        | [] => none
        | '=' :: value => some (String.ofList value)
        | value => some (String.ofList value)
      some { last := some (spec.name, value) }
    else
      let others ← cluster? specs rest
      some { others with flags := spec.name :: others.flags }

/-- Reads words; nothing if they do not fit the options. -/
def ofWords? (specs : List OptionSpec) : List String → Option Arguments
  | [] => some {}
  | word :: rest =>
    match word.toList with
    | ['-', '-'] => some { positionals := rest }
    | '-' :: '-' :: long => do
      let (name, attached) :=
        match Text.cutAt '=' long with
        | some (name, value) => (name, some (String.ofList value))
        | none => (long, none)
      let spec ← specs.find? (·.name == String.ofList name)
      match spec.takesValue, attached with
      | false, none => (ofWords? specs rest).map (·.withFlag spec.name)
      | false, some _ => none
      | true, some value => (ofWords? specs rest).map (·.withSetting spec.name value)
      | true, none =>
        match rest with
        | [] => none
        | value :: rest =>
          if startsLikeOption value then none
          else (ofWords? specs rest).map (·.withSetting spec.name value)
    | '-' :: c :: letters => do
      let cluster ← cluster? specs (c :: letters)
      let withFlags (a : Arguments) := cluster.flags.foldr (fun name a => a.withFlag name) a
      match cluster.last with
      | none => (ofWords? specs rest).map withFlags
      | some (name, some value) =>
        (ofWords? specs rest).map fun a => withFlags (a.withSetting name value)
      | some (name, none) =>
        match rest with
        | [] => none
        | value :: rest =>
          if startsLikeOption value then none
          else (ofWords? specs rest).map fun a => withFlags (a.withSetting name value)
    | _ => (ofWords? specs rest).map (·.withPositional word)

/-- The names of all options that occur. -/
def optionNames (a : Arguments) : List String := a.flags ++ a.settings.map (·.1)

/-- Whether no option occurs twice. -/
def isUnambiguous (a : Arguments) : Bool := decide a.optionNames.Nodup

/-- Reads the words of a command line that knows these options. -/
def parse? (specs : List OptionSpec) (words : List String) : Option Arguments :=
  (ofWords? specs words).filter isUnambiguous

/-- Whether an option without a value occurs. -/
def hasFlag (a : Arguments) (name : String) : Bool := a.flags.contains name

/-- The value of an option. -/
def setting? (a : Arguments) (name : String) : Option String := a.settings.lookup name

/-- The value of an option as `decode` reads it, or a default if the option does not occur. -/
def settingOr {α : Type} (a : Arguments) (name : String) (decode : String → Option α)
    (default : α) : Option α :=
  match a.setting? name with
  | none => some default
  | some value => decode value

end Arguments

end StackSeq
