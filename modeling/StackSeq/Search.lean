import Std.Data.HashMap
import StackSeq.Random
import StackSeq.Settings
import StackSeq.Symbolic.Exploration

/-!
# The search for problems

Program identifiers are enumerated up to the difficulty, and each program grows a sequence from
every seed. Programs that grow the same examples form a *family*; within a family the first
program with a given primary sequence represents all that grow the same. A representative whose
family has enough others is a *pattern*: it makes a problem whose foils are drawn from the rest of
its family, so they agree with it on every example and yet differ from it in the end. The last
patterns, whose programs are the longest, become the problems.

The search reports its progress at fixed points and stops if it is told to.
-/

namespace StackSeq

/-! ## Candidates -/

/-- A program of the enumeration with the sequences that it grows. -/
structure Candidate where
  /-- Its number in the enumeration. -/
  index : Nat
  primary : Sequence
  examples : List Sequence
deriving DecidableEq

namespace Candidate

/-- The identifier of the program. -/
def identifier (c : Candidate) : String := Program.enumerated c.index

end Candidate

namespace Settings

/-- The sequence that the program grows from a seed. -/
def grow? (s : Settings) (p : Program) (seed : Sequence) : Option Sequence :=
  p.extend seed s.sequenceLen.toNat s.maxTerm

/-- The primary sequence and the examples of a program, if it grows all of them and the primary
one is not left out for being constant. -/
def outputs? (s : Settings) (p : Program) : Option (Sequence × List Sequence) := do
  let primary ← s.grow? p s.primarySeed
  guard !(s.skipConstant && primary.isConstant s.seedLen)
  let examples ← s.exampleSeeds.mapM (s.grow? p)
  some (primary, examples)

/-- The same, but without running a program that the analysis shows to be constant. -/
def prunedOutputs? (s : Settings) (p : Program) : Option (Sequence × List Sequence) :=
  if s.skipConstant && p.isProvablyConstant s.originDepth.toNat then none else s.outputs? p

/-- The candidate with this number. -/
def candidate? (s : Settings) (index : Nat) : Option Candidate :=
  match Program.ofIdentifier (Program.enumerated index) with
  | .error _ => none
  | .ok p => (s.prunedOutputs? p).map fun (primary, examples) => { index, primary, examples }

end Settings

/-! ## Families -/

/-- What a search has found so far. -/
structure Findings where
  /-- The representatives with the same examples, in the order of their numbers. -/
  families : Std.HashMap (List Sequence) (Array Candidate) := ∅
  /-- All representatives in the order of their numbers. -/
  representatives : Array Candidate := #[]

namespace Findings

/-- The representatives with these examples. -/
def family (f : Findings) (examples : List Sequence) : Array Candidate :=
  f.families.getD examples #[]

/-- The number of families. -/
def familyCount (f : Findings) : Nat := f.families.size

/-- The findings with a candidate added, unless another represents it. -/
def insert (f : Findings) (c : Candidate) : Findings :=
  let family := f.family c.examples
  if family.any (·.primary == c.primary) then f
  else
    { families := f.families.insert c.examples (family.push c)
      representatives := f.representatives.push c }

/-- The findings after one more identifier. -/
def visit (s : Settings) (f : Findings) (index : Nat) : Findings :=
  match s.candidate? index with
  | none => f
  | some c => f.insert c

/-- The representatives with enough others in their families, in the order of their numbers. -/
def patterns (f : Findings) (s : Settings) : List Candidate :=
  f.representatives.toList.filter fun c =>
    decide (s.choiceCount.toNat ≤ (f.family c.examples).size)

/-- The problem of a pattern, and the source of random numbers after its foils are drawn. -/
def problemOf (f : Findings) (s : Settings) (c : Candidate) (r : Random) : Problem × Random :=
  let others := (f.family c.examples).toList.filter (·.index != c.index)
  let shuffled := r.shuffle others
  ({ program := c.identifier
     seedLen := .ofNat s.seedLen
     examples := c.examples
     correct := c.primary
     foils := (shuffled.1.take (s.choiceCount.toNat - 1)).map fun o =>
       { sequence := o.primary, source := o.identifier } },
    shuffled.2)

/-- The problems of these patterns in order. -/
def problemsOf (f : Findings) (s : Settings) : List Candidate → Random → List Problem
  | [], _ => []
  | c :: rest, r =>
    let made := f.problemOf s c r
    made.1 :: problemsOf f s rest made.2

end Findings

/-! ## The search -/

/-- How far a search is. -/
structure Progress where
  /-- How many identifiers were visited. -/
  scanned : Nat
  /-- How many identifiers there are. -/
  total : Nat
  /-- How many families were found. -/
  groups : Nat
deriving DecidableEq

/-- What a search is told when it reports its progress. -/
inductive Verdict where
  | proceed
  | stop
deriving DecidableEq

/-- What a search is told at each report, by the report's number and content. -/
abbrev Policy := Nat → Progress → Verdict

/-- Why a search makes no problems. -/
inductive SearchError where
  | settings (cause : SettingsFault)
  /-- It was told to stop. -/
  | cancelled (scanned : Nat)
  | fewPatterns (found needed : Nat) (difficulty : UInt32)
  /-- The token that replaces the search is no problem. -/
  | token (cause : TokenError)
deriving DecidableEq

namespace SearchError

def diagnostic : SearchError → Diagnostic
  | settings cause => cause.diagnostic
  | cancelled scanned =>
    { kind := .cancelled
      message := "scan cancelled after " ++ toString scanned ++ " candidates"
      operation := "generator::generate"
      details := [("scanned", toString scanned)] }
  | fewPatterns found needed difficulty =>
    { kind := .configInvalid
      message := "only " ++ toString found ++ " patterns at difficulty "
        ++ toString difficulty.toNat
        ++ " have enough foils agreeing on the example seeds, need " ++ toString needed
      operation := "generator::generate"
      details :=
        [("field", "pool_size"), ("found", toString found), ("needed", toString needed)] }
  | token cause => cause.diagnostic

end SearchError

/-- A search that has ended. -/
structure SearchResult where
  /-- The reports of its progress. -/
  reports : List Progress
  outcome : Except SearchError (List Problem)

namespace Settings

/-- Visits `left` identifiers from number `index` on, after these reports. A report is due after
every `progressInterval` identifiers and at the end. -/
def scanFrom (s : Settings) (policy : Policy) :
    (left index : Nat) → Findings → (reports : Array Progress) →
      Array Progress × Except SearchError Findings
  | 0, index, f, reports =>
    let report : Progress := ⟨index, s.searchSize, f.familyCount⟩
    match policy reports.size report with
    | .stop => (reports.push report, .error (.cancelled index))
    | .proceed => (reports.push report, .ok f)
  | left + 1, index, f, reports =>
    if index ≠ 0 ∧ index % s.progressInterval.toNat = 0 then
      let report : Progress := ⟨index, s.searchSize, f.familyCount⟩
      match policy reports.size report with
      | .stop => (reports.push report, .error (.cancelled index))
      | .proceed => scanFrom s policy left (index + 1) (f.visit s index) (reports.push report)
    else scanFrom s policy left (index + 1) (f.visit s index) reports

/-- The problems that the findings of a whole search make. -/
def problems (s : Settings) (f : Findings) : Except SearchError (List Problem) :=
  let patterns := f.patterns s
  if patterns.length < s.poolSize.toNat then
    .error (.fewPatterns patterns.length s.poolSize.toNat s.difficulty)
  else
    .ok (f.problemsOf s (patterns.drop (patterns.length - s.poolSize.toNat)) (.ofSeed s.rngSeed))

/-- Searches for problems. -/
def search (s : Settings) (policy : Policy) : SearchResult :=
  match s.check with
  | .error fault => ⟨[], .error (.settings fault)⟩
  | .ok () =>
    let (reports, found) := s.scanFrom policy s.searchSize 0 {} #[]
    ⟨reports.toList, found.bind s.problems⟩

/-- The problem of the settings, if they name one, or else those of a search. -/
def resolve (s : Settings) (policy : Policy) : SearchResult :=
  match s.problem with
  | some token => ⟨[], ((Problem.ofToken token).map fun p => [p]).mapError .token⟩
  | none => s.search policy

end Settings

end StackSeq
