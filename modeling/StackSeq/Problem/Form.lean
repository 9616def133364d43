import StackSeq.Json.Decode
import StackSeq.Problem

/-!
# Problems as structured data

The JSON object of a problem, with a member for each of its parts. An array of the parts in their
order is read as well.
-/

namespace StackSeq

namespace Sequence

def toJson (terms : Sequence) : Json := .arr (terms.map Json.ofInt64)

def ofJson? (v : Json) : Option Sequence := v.toList? Json.toInt64?

end Sequence

namespace Foil

def toJson (foil : Foil) : Json :=
  .obj [("sequence", foil.sequence.toJson), ("source_program", .str foil.source)]

def ofJson? (v : Json) : Option Foil := do
  let members ← v.fields? ["sequence", "source_program"]
  let sequence ← Json.required "sequence" Sequence.ofJson? members
  let source ← Json.required "source_program" Json.toText? members
  some { sequence, source }

end Foil

namespace Problem

def toJson (p : Problem) : Json :=
  .obj
    [("program", .str p.program),
      ("seed_len", .ofWord p.seedLen),
      ("example_sequences", .arr (p.examples.map Sequence.toJson)),
      ("correct_sequence", p.correct.toJson),
      ("incorrect_choices", .arr (p.foils.map Foil.toJson))]

def ofJson? (v : Json) : Option Problem := do
  let members ← v.fields?
    ["program", "seed_len", "example_sequences", "correct_sequence", "incorrect_choices"]
  let program ← Json.required "program" Json.toText? members
  let seedLen ← Json.required "seed_len" Json.toWord? members
  let examples ← Json.required "example_sequences" (Json.toList? Sequence.ofJson?) members
  let correct ← Json.required "correct_sequence" Sequence.ofJson? members
  let foils ← Json.required "incorrect_choices" (Json.toList? Foil.ofJson?) members
  some { program, seedLen, examples, correct, foils }

end Problem

end StackSeq
