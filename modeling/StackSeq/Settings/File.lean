import StackSeq.File
import StackSeq.Settings

/-!
# Settings files

The JSON object in which settings are kept, with a member for each field. In reading, a missing
member stands for the default, and members with other keys are passed over. An array of the first
fields in their order is read as well; the others are at their defaults.
-/

namespace StackSeq

namespace Prompts

def toJson (t : Prompts) : Json :=
  .obj [("solver", .str t.solver), ("verifier", .str t.verifier), ("checker", .str t.checker)]

/-- The keys of the templates, in their order. -/
def keys : List String := ["solver", "verifier", "checker"]

def ofJson? (v : Json) : Option Prompts := do
  let defaults : Prompts := {}
  let members ← v.fields? keys
  let solver ← Json.optional "solver" Json.toText? defaults.solver members
  let verifier ← Json.optional "verifier" Json.toText? defaults.verifier members
  let checker ← Json.optional "checker" Json.toText? defaults.checker members
  some { solver, verifier, checker }

end Prompts

namespace Settings

/-! ## Form -/

def toJson (s : Settings) : Json :=
  .obj
    [("difficulty", .ofHalfWord s.difficulty),
      ("pool_size", .ofWord s.poolSize),
      ("choice_count", .ofWord s.choiceCount),
      ("sequence_len", .ofWord s.sequenceLen),
      ("seeds", .arr (s.seeds.map Sequence.toJson)),
      ("max_term", .ofInt64 s.maxTerm),
      ("skip_constant", .bool s.skipConstant),
      ("origin_depth", .ofWord s.originDepth),
      ("progress_interval", .ofWord s.progressInterval),
      ("rng_seed", .ofWord s.rngSeed),
      ("problem", s.problem.elim .null .str),
      ("prompts", s.prompts.toJson)]

/-- The keys of the fields, in their order. -/
def keys : List String :=
  ["difficulty", "pool_size", "choice_count", "sequence_len", "seeds", "max_term", "skip_constant",
    "origin_depth", "progress_interval", "rng_seed", "problem", "prompts"]

def ofJson? (v : Json) : Option Settings := do
  let defaults : Settings := {}
  let members ← v.fields? keys
  let difficulty ← Json.optional "difficulty" Json.toHalfWord? defaults.difficulty members
  let poolSize ← Json.optional "pool_size" Json.toWord? defaults.poolSize members
  let choiceCount ← Json.optional "choice_count" Json.toWord? defaults.choiceCount members
  let sequenceLen ← Json.optional "sequence_len" Json.toWord? defaults.sequenceLen members
  let seeds ← Json.optional "seeds" (Json.toList? Sequence.ofJson?) defaults.seeds members
  let maxTerm ← Json.optional "max_term" Json.toInt64? defaults.maxTerm members
  let skipConstant ← Json.optional "skip_constant" Json.toBool? defaults.skipConstant members
  let originDepth ← Json.optional "origin_depth" Json.toWord? defaults.originDepth members
  let progressInterval ←
    Json.optional "progress_interval" Json.toWord? defaults.progressInterval members
  let rngSeed ← Json.optional "rng_seed" Json.toWord? defaults.rngSeed members
  let problem ← Json.optional "problem" (Json.toNullable? Json.toText?) defaults.problem members
  let prompts ← Json.optional "prompts" Prompts.ofJson? defaults.prompts members
  some
    { difficulty, poolSize, choiceCount, sequenceLen, seeds, maxTerm, skipConstant, originDepth,
      progressInterval, rngSeed, problem, prompts }

/-! ## Files -/

/-- The text of a settings file. -/
def save (s : Settings) : String := s.toJson.pretty

/-- The settings in the text of a file. -/
def parse? (content : String) : Option Settings :=
  (Json.parse? content).bind ofJson?

/-- The settings in a file. -/
def load (file : FileContent) : Except FileError Settings := do
  let content ← file.read
  match parse? content with
  | some settings => .ok settings
  | none => .error .malformed

end Settings

end StackSeq
