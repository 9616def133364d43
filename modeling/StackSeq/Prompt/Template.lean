import StackSeq.Diagnostic
import StackSeq.Text.Pieces

/-!
# Templates

Plain text with placeholders: a name within double braces, with blanks around it allowed. Nothing
in a template is evaluated. `pieces` takes a template apart from left to right; double braces that
are opened and never closed are text. `render` puts values in, each once and as it is, so that
braces in a value mean nothing.
-/

namespace StackSeq

/-- What a placeholder may stand for. -/
inductive Variable where
  | seedLen
  | examples
  | exampleCount
  | choices
  | pattern
  | choice
deriving DecidableEq

namespace Variable

def all : List Variable := [seedLen, examples, exampleCount, choices, pattern, choice]

/-- The name in a placeholder. -/
def name : Variable → String
  | seedLen => "SEED_LEN"
  | examples => "EXAMPLES"
  | exampleCount => "EXAMPLE_COUNT"
  | choices => "CHOICES"
  | pattern => "PATTERN"
  | choice => "CHOICE"

def ofName? (s : String) : Option Variable :=
  all.find? (·.name == s)

theorem ofName?_name (v : Variable) : ofName? v.name = some v := by
  cases v <;> decide

end Variable

/-- The values of the variables of one prompt; a variable without a value must not occur. -/
abbrev Bindings := Variable → Option String

/-- Why a template cannot be rendered. -/
inductive TemplateError where
  /-- A placeholder has a name that is no variable. -/
  | notAllowed (name : String)
  /-- The variable of a placeholder has no value in this prompt. -/
  | notAvailable (name : String)
deriving DecidableEq

namespace TemplateError

/-- The name in the placeholder. -/
def name : TemplateError → String
  | notAllowed name => name
  | notAvailable name => name

def message : TemplateError → String
  | notAllowed name => "template variable '" ++ name ++ "' is not an allowed placeholder"
  | notAvailable name => "template variable '" ++ name ++ "' is not available in this prompt"

def diagnostic (e : TemplateError) : Diagnostic where
  kind := .templateInvalid
  message := e.message
  operation := "prompt::render"
  details := [("variable", e.name)]

end TemplateError

namespace Template

/-! ## Pieces -/

/-- The text before the first place where `mark` stands twice, and the text after it. -/
def cutAtDouble (mark : Char) : List Char → Option (List Char × List Char)
  | [] => none
  | [_] => none
  | a :: b :: rest =>
    if a = mark ∧ b = mark then some ([], rest)
    else (cutAtDouble mark (b :: rest)).map fun p => (a :: p.1, p.2)

theorem length_of_cutAtDouble {mark : Char} {cs before after : List Char}
    (h : cutAtDouble mark cs = some (before, after)) :
    cs.length = before.length + 2 + after.length := by
  induction cs generalizing before with
  | nil => cases h
  | cons a rest ih =>
    cases rest with
    | nil => cases h
    | cons b rest =>
      rw [cutAtDouble] at h
      split at h
      · cases h
        simp only [List.length_cons, List.length_nil]
        omega
      · obtain ⟨⟨before', after'⟩, hcut, heq⟩ := Option.map_eq_some_iff.1 h
        cases heq
        have := ih hcut
        simp only [List.length_cons] at this ⊢
        omega

/-- A part of a template. -/
inductive Piece where
  /-- Text that stays as it is. -/
  | literal (text : List Char)
  /-- A placeholder with this name, blanks around it dropped. -/
  | placeholder (name : List Char)
deriving DecidableEq

/-- The parts of a template from left to right. -/
def pieces (cs : List Char) : List Piece :=
  match _hopen : cutAtDouble '\x7b' cs with
  | none => [.literal cs]
  | some (before, rest) =>
    match _hclose : cutAtDouble '\x7d' rest with
    | none => [.literal cs]
    | some (name, after) => .literal before :: .placeholder (Text.trim name) :: pieces after
termination_by cs.length
decreasing_by
  have := length_of_cutAtDouble _hopen
  have := length_of_cutAtDouble _hclose
  omega

/-! ## Rendering -/

/-- The value that a placeholder with this name has. -/
def lookUp (bindings : Bindings) (name : String) : Except TemplateError String :=
  match Variable.ofName? name with
  | none => .error (.notAllowed name)
  | some v =>
    match bindings v with
    | none => .error (.notAvailable name)
    | some value => .ok value

/-- The text of a part. -/
def renderPiece (bindings : Bindings) : Piece → Except TemplateError (List Char)
  | .literal text => .ok text
  | .placeholder name => (lookUp bindings (String.ofList name)).map String.toList

/-- The text of all parts in a row; the first placeholder without a value is the error. -/
def renderPieces (bindings : Bindings) : List Piece → Except TemplateError (List Char)
  | [] => .ok []
  | piece :: rest => do
    let text ← renderPiece bindings piece
    let following ← renderPieces bindings rest
    .ok (text ++ following)

/-- The template with values in the place of its placeholders. -/
def render (template : String) (bindings : Bindings) : Except TemplateError String :=
  (renderPieces bindings (pieces template.toList)).map String.ofList

/-- A stand-in value for each of these variables. -/
def standIns (allowed : List Variable) : Bindings :=
  fun v => if v ∈ allowed then some ("<" ++ v.name ++ ">") else none

/-- Checks that the template has placeholders for these variables only. -/
def check (template : String) (allowed : List Variable) : Except TemplateError Unit :=
  (render template (standIns allowed)).map fun _ => ()

end Template

end StackSeq
