import StackSeq.Problem.Token
import StackSeq.Prompt

/-!
# Settings

What a search for problems and the prompts for them need to know. `Settings.check` says which
field is the first that no search can use; fields are checked in their order, the templates last.
-/

namespace StackSeq

/-- The settings of a search. -/
structure Settings where
  /-- Identifiers of at most this many digits are searched. -/
  difficulty : UInt32 := 4
  /-- How many problems to make. -/
  poolSize : UInt64 := 16
  /-- How many choices a problem has, the correct one included. -/
  choiceCount : UInt64 := 4
  /-- How many terms a sequence has, the seed included. -/
  sequenceLen : UInt64 := 8
  /-- Where sequences start; the first seed gives the choices and the others the examples. -/
  seeds : List Sequence := [[1, 2], [2, 1]]
  /-- The largest magnitude of a term that a program adds. -/
  maxTerm : Int64 := 10000
  /-- Whether programs are left out whose added terms are all equal. -/
  skipConstant : Bool := true
  /-- How deep below the top the origin of the analysis lies. -/
  originDepth : UInt64 := 1
  /-- How many identifiers are searched between two reports of progress. -/
  progressInterval : UInt64 := 4096
  /-- The seed of the random choice of foils. -/
  rngSeed : UInt64 := 0
  /-- The token of a problem to use instead of a search. -/
  problem : Option String := none
  prompts : Prompts := {}
deriving DecidableEq

/-- The field that no search can use. -/
inductive SettingsFault where
  | difficulty
  | poolSize
  | choiceCount
  | fewSeeds
  | unequalSeeds
  | sequenceLen (seedLen : Nat)
  | maxTerm
  | originDepth (seedLen : Nat)
  | progressInterval
  | problem (cause : TokenError)
  | solver (cause : TemplateError)
  | verifier (cause : TemplateError)
  | checker (cause : TemplateError)
deriving DecidableEq

namespace SettingsFault

/-- The name of the field. -/
def field : SettingsFault → String
  | difficulty => "difficulty"
  | poolSize => "pool_size"
  | choiceCount => "choice_count"
  | fewSeeds | unequalSeeds => "seeds"
  | sequenceLen _ => "sequence_len"
  | maxTerm => "max_term"
  | originDepth _ => "origin_depth"
  | progressInterval => "progress_interval"
  | problem _ => "problem"
  | solver _ => "prompts.solver"
  | verifier _ => "prompts.verifier"
  | checker _ => "prompts.checker"

def message : SettingsFault → String
  | difficulty => "difficulty must be between 1 and 7"
  | poolSize => "pool_size must be at least 1"
  | choiceCount => "choice_count must be at least 2"
  | fewSeeds => "need a primary seed and at least one example seed"
  | unequalSeeds => "seeds must be non-empty and all the same length"
  | sequenceLen seedLen => "sequence_len must exceed the seed length " ++ toString seedLen
  | maxTerm => "max_term must be positive"
  | originDepth seedLen => "origin_depth must not exceed the seed length " ++ toString seedLen
  | progressInterval => "progress_interval must be at least 1"
  | problem cause => cause.message
  | solver cause | verifier cause | checker cause => cause.message

def diagnostic (e : SettingsFault) : Diagnostic where
  kind := .configInvalid
  message := e.message
  details := [("field", e.field)]

end SettingsFault

namespace Settings

/-- The largest difficulty. -/
def maxDifficulty : UInt32 := 7

/-- How many identifiers are searched. -/
def searchSize (s : Settings) : Nat := Nat.pow 16 s.difficulty.toNat

/-- The seed of the choices. -/
def primarySeed (s : Settings) : Sequence := s.seeds.headD []

/-- The seeds of the examples. -/
def exampleSeeds (s : Settings) : List Sequence := s.seeds.tail

/-- The number of terms of a seed. -/
def seedLen (s : Settings) : Nat := s.primarySeed.length

/-- Checks that a search can use the settings. -/
def check (s : Settings) : Except SettingsFault Unit := do
  require (decide (1 ≤ s.difficulty ∧ s.difficulty ≤ maxDifficulty)) .difficulty
  require (s.poolSize != 0) .poolSize
  require (decide (2 ≤ s.choiceCount)) .choiceCount
  require (decide (2 ≤ s.seeds.length)) .fewSeeds
  require (decide (s.seedLen ≠ 0) && s.seeds.all (·.length == s.seedLen)) .unequalSeeds
  require (decide (s.seedLen < s.sequenceLen.toNat)) (.sequenceLen s.seedLen)
  require (decide (1 ≤ s.maxTerm)) .maxTerm
  require (decide (s.originDepth.toNat ≤ s.seedLen)) (.originDepth s.seedLen)
  require (s.progressInterval != 0) .progressInterval
  match s.problem with
  | none => .ok ()
  | some token => ((Problem.ofToken token).map fun _ => ()).mapError .problem
  (Template.check s.prompts.solver Prompts.solverVariables).mapError .solver
  (Template.check s.prompts.verifier Prompts.verifierVariables).mapError .verifier
  (Template.check s.prompts.checker Prompts.checkerVariables).mapError .checker

end Settings

end StackSeq
