import StackSeq.Settings.File
import StackSeq.Proofs.Json.Members
import StackSeq.Proofs.Problem.Token

/-!
# Settings files read back

The file of the settings is read back as the settings, and so is every other file with their
members: the order does not matter, members that nobody asks for may stand in between, and one that
was taken out yields the default of its field (`withDefaults`), also within the object of the
templates. `ofJson?_of_edited` says so of the objects, and `file_round_trip` of the bytes of files.
An array of the first fields is read like the object of these (`ofJson?_firstItems`).
-/

namespace StackSeq

/-- Bytes that were written for a text are read as the text. -/
theorem FileContent.ofBytes_toUTF8 (content : String) : ofBytes content.toUTF8 = text content := by
  have hread : String.fromUTF8? content.toUTF8 = some content := dif_pos content.isValidUTF8
  rw [ofBytes, hread]

/-! ## Templates -/

namespace Prompts

variable {t : Prompts} {removed : List String} {v : Json}

/-- The templates with the defaults in place of those with these keys. -/
def withDefaults (t : Prompts) (removed : List String) : Prompts where
  solver := if "solver" ∈ removed then ({} : Prompts).solver else t.solver
  verifier := if "verifier" ∈ removed then ({} : Prompts).verifier else t.verifier
  checker := if "checker" ∈ removed then ({} : Prompts).checker else t.checker

theorem ofJson?_of_edited (h : t.toJson.Edited removed v) :
    ofJson? v = some (t.withDefaults removed) := by
  obtain ⟨edited, rfl⟩ := h.exists_eq_obj
  have hsolver := h.optional_eq "solver" Json.toText? ({} : Prompts).solver ⟨_, rfl, rfl⟩ rfl
  have hverifier := h.optional_eq "verifier" Json.toText? ({} : Prompts).verifier ⟨_, rfl, rfl⟩ rfl
  have hchecker := h.optional_eq "checker" Json.toText? ({} : Prompts).checker ⟨_, rfl, rfl⟩ rfl
  simp only [ofJson?, Json.fields?_obj, Option.bind_eq_bind, Option.bind_some, hsolver, hverifier,
    hchecker]
  rfl

theorem ofJson?_congr {w : Json} (h : v.fields? keys = w.fields? keys) :
    ofJson? v = ofJson? w := by
  simp only [ofJson?, h]

/-- An array of the first templates is read like an object without the others. -/
theorem ofJson?_firstItems (t : Prompts) (count : Nat) :
    ofJson? (t.toJson.firstItems count) = some (t.withDefaults (keys.drop count)) :=
  Json.read_firstItems ofJson?_congr ⟨_, rfl, rfl⟩ (by decide) count ofJson?_of_edited

theorem paired_toJson (t : Prompts) : t.toJson.Paired := by
  refine .obj ?_
  simp only [List.forall_mem_cons]
  exact ⟨.str _, .str _, .str _, List.forall_mem_nil _⟩

end Prompts

/-! ## Settings -/

namespace Settings

variable {s : Settings} {removed removedPrompts : List String} {prompts v : Json}

/-- The settings with the defaults in place of the fields with these keys, and of the templates with
these keys among the prompts. -/
def withDefaults (s : Settings) (removed removedPrompts : List String) : Settings where
  difficulty := if "difficulty" ∈ removed then ({} : Settings).difficulty else s.difficulty
  poolSize := if "pool_size" ∈ removed then ({} : Settings).poolSize else s.poolSize
  choiceCount := if "choice_count" ∈ removed then ({} : Settings).choiceCount else s.choiceCount
  sequenceLen := if "sequence_len" ∈ removed then ({} : Settings).sequenceLen else s.sequenceLen
  seeds := if "seeds" ∈ removed then ({} : Settings).seeds else s.seeds
  maxTerm := if "max_term" ∈ removed then ({} : Settings).maxTerm else s.maxTerm
  skipConstant := if "skip_constant" ∈ removed then ({} : Settings).skipConstant else s.skipConstant
  originDepth := if "origin_depth" ∈ removed then ({} : Settings).originDepth else s.originDepth
  progressInterval :=
    if "progress_interval" ∈ removed then ({} : Settings).progressInterval else s.progressInterval
  rngSeed := if "rng_seed" ∈ removed then ({} : Settings).rngSeed else s.rngSeed
  problem := if "problem" ∈ removed then ({} : Settings).problem else s.problem
  prompts :=
    if "prompts" ∈ removed then ({} : Settings).prompts else s.prompts.withDefaults removedPrompts

theorem toNullable?_elim (token : Option String) :
    Json.toNullable? Json.toText? (token.elim .null .str) = some token := by
  cases token <;> rfl

theorem ofJson?_of_edited
    (hprompts : Prompts.ofJson? prompts = some (s.prompts.withDefaults removedPrompts))
    (h : (s.toJson.setMember "prompts" prompts).Edited removed v) :
    ofJson? v = some (s.withDefaults removed removedPrompts) := by
  obtain ⟨edited, rfl⟩ := h.exists_eq_obj
  have hdifficulty := h.optional_eq "difficulty" Json.toHalfWord? ({} : Settings).difficulty
    ⟨_, rfl, rfl⟩ (Json.toHalfWord?_ofHalfWord s.difficulty)
  have hpoolSize := h.optional_eq "pool_size" Json.toWord? ({} : Settings).poolSize
    ⟨_, rfl, rfl⟩ (Json.toWord?_ofWord s.poolSize)
  have hchoiceCount := h.optional_eq "choice_count" Json.toWord? ({} : Settings).choiceCount
    ⟨_, rfl, rfl⟩ (Json.toWord?_ofWord s.choiceCount)
  have hsequenceLen := h.optional_eq "sequence_len" Json.toWord? ({} : Settings).sequenceLen
    ⟨_, rfl, rfl⟩ (Json.toWord?_ofWord s.sequenceLen)
  have hseeds := h.optional_eq "seeds" (Json.toList? Sequence.ofJson?) ({} : Settings).seeds
    ⟨_, rfl, rfl⟩ (Json.toList?_arr_map Sequence.ofJson?_toJson s.seeds)
  have hmaxTerm := h.optional_eq "max_term" Json.toInt64? ({} : Settings).maxTerm
    ⟨_, rfl, rfl⟩ (Json.toInt64?_ofInt64 s.maxTerm)
  have hskipConstant := h.optional_eq "skip_constant" Json.toBool? ({} : Settings).skipConstant
    ⟨_, rfl, rfl⟩ rfl
  have horiginDepth := h.optional_eq "origin_depth" Json.toWord? ({} : Settings).originDepth
    ⟨_, rfl, rfl⟩ (Json.toWord?_ofWord s.originDepth)
  have hprogressInterval := h.optional_eq "progress_interval" Json.toWord?
    ({} : Settings).progressInterval ⟨_, rfl, rfl⟩ (Json.toWord?_ofWord s.progressInterval)
  have hrngSeed := h.optional_eq "rng_seed" Json.toWord? ({} : Settings).rngSeed
    ⟨_, rfl, rfl⟩ (Json.toWord?_ofWord s.rngSeed)
  have hproblem := h.optional_eq "problem" (Json.toNullable? Json.toText?) ({} : Settings).problem
    ⟨_, rfl, rfl⟩ (toNullable?_elim s.problem)
  have htemplates := h.optional_eq "prompts" Prompts.ofJson? ({} : Settings).prompts
    ⟨_, rfl, rfl⟩ hprompts
  simp only [ofJson?, Json.fields?_obj, Option.bind_eq_bind, Option.bind_some, hdifficulty,
    hpoolSize, hchoiceCount, hsequenceLen, hseeds, hmaxTerm, hskipConstant, horiginDepth,
    hprogressInterval, hrngSeed, hproblem, htemplates]
  rfl

theorem ofJson?_congr {w : Json} (h : v.fields? keys = w.fields? keys) :
    ofJson? v = ofJson? w := by
  simp only [ofJson?, h]

/-- **An array of the first fields is read like an object without the others**, whichever way the
templates among them are written. -/
theorem ofJson?_firstItems
    (hprompts : Prompts.ofJson? prompts = some (s.prompts.withDefaults removedPrompts))
    (count : Nat) :
    ofJson? ((s.toJson.setMember "prompts" prompts).firstItems count)
      = some (s.withDefaults (keys.drop count) removedPrompts) :=
  Json.read_firstItems ofJson?_congr ⟨_, rfl, rfl⟩ (by decide) count (ofJson?_of_edited hprompts)

/-- A difficulty in an array, and all else at its default. -/
example : ofJson? (.arr [.int 5]) = some { difficulty := 5 } := by rfl

theorem paired_toJson (s : Settings) : s.toJson.Paired := by
  have hproblem : (s.problem.elim Json.null .str).Paired := by
    cases s.problem
    · exact .null
    · exact .str _
  refine .obj ?_
  simp only [List.forall_mem_cons]
  exact ⟨.int _, .int _, .int _, .int _,
    .arr (List.forall_mem_map.2 fun terms _ => terms.paired_toJson), .int _, .bool _, .int _,
    .int _, .int _, hproblem, s.prompts.paired_toJson, List.forall_mem_nil _⟩

/-! ## Files -/

theorem load_toUTF8 {content : String} (hcontent : Json.parse? content = some v)
    (hv : ofJson? v = some s) : load (.ofBytes content.toUTF8) = .ok s := by
  have hread : parse? content = some s := by rw [parse?, hcontent, Option.bind_some, hv]
  simp only [load, FileContent.ofBytes_toUTF8, FileContent.read, bind, Except.bind, hread]

/-- `file` is the object of the settings without its members with the keys `removed`, with others of
keys that it does not have, in any order; and so is the object of the templates within it, as far as
`removedPrompts` says. -/
def EditedFile (s : Settings) (removed removedPrompts : List String) (file : Json) : Prop :=
  ∃ prompts, s.prompts.toJson.Edited removedPrompts prompts ∧
    (s.toJson.setMember "prompts" prompts).Edited removed file

theorem editedFile_self (s : Settings) : s.EditedFile [] [] s.toJson :=
  ⟨s.prompts.toJson, Json.edited_self _, Json.edited_self _⟩

/-- **Settings are read back from their file, and from a file that was edited**: whatever its text
looks like, what was taken out of it is at its default and the rest is as it was. -/
theorem file_round_trip (s : Settings) :
    load (.ofBytes s.save.toUTF8) = .ok s ∧
      ∀ removed removedPrompts file, s.EditedFile removed removedPrompts file →
        (∀ content, Json.parse? content = some file →
          load (.ofBytes content.toUTF8) = .ok (s.withDefaults removed removedPrompts)) ∧
        (file.Paired →
          load (.ofBytes file.pretty.toUTF8) = .ok (s.withDefaults removed removedPrompts) ∧
          load (.ofBytes file.compact.toUTF8) = .ok (s.withDefaults removed removedPrompts)) := by
  have hedited : ∀ removed removedPrompts file, s.EditedFile removed removedPrompts file →
      ofJson? file = some (s.withDefaults removed removedPrompts) := by
    rintro removed removedPrompts file ⟨prompts, hprompts, hfile⟩
    exact ofJson?_of_edited (Prompts.ofJson?_of_edited hprompts) hfile
  refine ⟨load_toUTF8 (Json.parse?_pretty s.paired_toJson) (hedited [] [] _ s.editedFile_self), ?_⟩
  intro removed removedPrompts file hfile
  have hread := hedited removed removedPrompts file hfile
  exact ⟨fun content hcontent => load_toUTF8 hcontent hread, fun hpaired =>
    ⟨load_toUTF8 (Json.parse?_pretty hpaired) hread,
      load_toUTF8 (Json.parse?_compact hpaired) hread⟩⟩

theorem file_round_trip_partial :
    let s : Settings :=
      { difficulty := 3, poolSize := 2, rngSeed := 7, problem := some "6"
        prompts := { solver := "a", verifier := "b" } }
    let content := "\x7b\"comment\":[null],\"prompts\":\x7b\"solver\":\"a\"\x7d,"
      ++ "\"problem\":\"6\",\"rng_seed\":7,\"difficulty\":3\x7d"
    load (.ofBytes s.save.toUTF8) = .ok s ∧
      load (.ofBytes content.toUTF8) =
        .ok
          { s with
            poolSize := 16
            prompts := { s.prompts with verifier := ({} : Prompts).verifier } } := by
  intro s content
  let removed := ["pool_size", "choice_count", "sequence_len", "seeds", "max_term", "skip_constant",
    "origin_depth", "progress_interval"]
  let prompts : Json := .obj [("solver", .str "a")]
  let file : Json := .obj
    [("comment", .arr [.null]), ("prompts", prompts), ("problem", .str "6"), ("rng_seed", .int 7),
      ("difficulty", .int 3)]
  have hprompts : s.prompts.toJson.Edited ["verifier", "checker"] prompts :=
    ⟨_, [], _, rfl, rfl, List.forall_mem_nil _, .refl _⟩
  have hfile : (s.toJson.setMember "prompts" prompts).Edited removed file :=
    ⟨_, [("comment", .arr [.null])], _, rfl, rfl, List.forall_mem_singleton.2 (by decide),
      List.reverse_perm [_, _, _, _, _]⟩
  have hpaired : file.Paired := by
    refine .obj ?_
    simp only [List.forall_mem_cons]
    exact ⟨.arr (List.forall_mem_singleton.2 .null), .obj (List.forall_mem_singleton.2 (.str _)),
      .str _, .int _, .int _, List.forall_mem_nil _⟩
  have hcontent : file.compact = content := by rfl
  obtain ⟨hsaved, hedited⟩ := file_round_trip s
  obtain ⟨-, hprinted⟩ := hedited removed ["verifier", "checker"] file ⟨prompts, hprompts, hfile⟩
  exact ⟨hsaved, hcontent ▸ (hprinted hpaired).2⟩

end Settings

end StackSeq
