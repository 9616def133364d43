import StackSeq.Prompt.Layout
import StackSeq.Prompt.Response
import StackSeq.Prompt.Template

/-!
# Prompts

The three texts of a solving round. The solver sees the examples and all choices and states a rule
and a choice; the verifier sees the stated rule and the choices; the checker judges one choice by
the stated rule. Each is a template with its own variables.
-/

namespace StackSeq

/-- The templates of a solving round. -/
structure Prompts where
  solver : String :=
    "Each sequence below starts with \x7b\x7bSEED_LEN\x7d\x7d seed terms; every later term is "
      ++ "computed from the terms before it by one hidden rule.\n\n"
      ++ "Here are \x7b\x7bEXAMPLE_COUNT\x7d\x7d sequences that follow the rule:\n"
      ++ "\x7b\x7bEXAMPLES\x7d\x7d\n\n"
      ++ "Which of these sequences follows the same rule?\n"
      ++ "\x7b\x7bCHOICES\x7d\x7d\n\n"
      ++ "Describe the rule on a line starting with PATTERN: and give your answer on a final line "
      ++ "of the form MATCH: (X), or MATCH: NONE if no choice fits."
  verifier : String :=
    "Each sequence below starts with \x7b\x7bSEED_LEN\x7d\x7d seed terms. Later terms follow this "
      ++ "rule:\n\x7b\x7bPATTERN\x7d\x7d\n\n"
      ++ "Which of these sequences follows the rule?\n"
      ++ "\x7b\x7bCHOICES\x7d\x7d\n\n"
      ++ "Give your answer on a final line of the form MATCH: (X), "
      ++ "or MATCH: NONE if no choice fits."
  checker : String :=
    "Each sequence below starts with \x7b\x7bSEED_LEN\x7d\x7d seed terms. Someone claims the later "
      ++ "terms follow this rule:\n\x7b\x7bPATTERN\x7d\x7d\n\n"
      ++ "It does hold for these sequences:\n\x7b\x7bEXAMPLES\x7d\x7d\n\n"
      ++ "Does it also hold for this one?\n\x7b\x7bCHOICE\x7d\x7d\n\n"
      ++ "Answer on a final line with ANSWER: YES or ANSWER: NO."
deriving DecidableEq

/-- Why there is no prompt. -/
inductive PromptError where
  | template (cause : TemplateError)
  | response (cause : ResponseError)
deriving DecidableEq

namespace PromptError

def diagnostic : PromptError → Diagnostic
  | template cause => cause.diagnostic
  | response cause => cause.diagnostic

end PromptError

namespace Prompts

/-! ## Variables -/

def solverVariables : List Variable := [.seedLen, .examples, .exampleCount, .choices]

def verifierVariables : List Variable := [.seedLen, .pattern, .choices]

def checkerVariables : List Variable := [.seedLen, .pattern, .examples, .choice]

/-- The examples of a problem line by line. -/
def examplesText (p : Problem) : String :=
  Text.join "\n" (p.examples.map Sequence.text)

def solverBindings (p : Problem) (l : Layout) : Bindings
  | .seedLen => some (toString p.seedLen.toNat)
  | .examples => some (examplesText p)
  | .exampleCount => some (toString p.examples.length)
  | .choices => some (l.choicesText p)
  | _ => none

def verifierBindings (p : Problem) (l : Layout) (pattern : String) : Bindings
  | .seedLen => some (toString p.seedLen.toNat)
  | .pattern => some pattern
  | .choices => some (l.choicesText p)
  | _ => none

def checkerBindings (p : Problem) (pattern : String) (choice : Sequence) : Bindings
  | .seedLen => some (toString p.seedLen.toNat)
  | .pattern => some pattern
  | .examples => some (examplesText p)
  | .choice => some choice.text
  | _ => none

/-! ## Texts -/

/-- The prompt for the solver. -/
def solverPrompt (t : Prompts) (p : Problem) (l : Layout) : Except TemplateError String :=
  Template.render t.solver (solverBindings p l)

/-- The prompt for the verifier of a stated pattern. -/
def verifierPrompt (t : Prompts) (p : Problem) (l : Layout) (pattern : String) :
    Except TemplateError String :=
  Template.render t.verifier (verifierBindings p l pattern)

/-- The prompt for the checker of the choice with this index. -/
def checkerPrompt (t : Prompts) (p : Problem) (l : Layout) (pattern : String) (index : Nat) :
    Except PromptError String :=
  match (l.choices p)[index]? with
  | none => .error (.response (.unknownChoice index))
  | some choice =>
    (Template.render t.checker (checkerBindings p pattern choice)).mapError .template

end Prompts

end StackSeq
