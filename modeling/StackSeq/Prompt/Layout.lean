import StackSeq.Problem.Form
import StackSeq.Prompt.Label

/-!
# Layouts

In which order the choices of a problem are shown: the foils in their order and the correct
sequence among them at a given place, or last if that place lies beyond them.
-/

namespace StackSeq

/-- The place of the correct sequence. -/
structure Layout where
  correctIndex : Nat
deriving DecidableEq

namespace Layout

/-- The layout for a problem with the correct sequence at this place or, if the problem has fewer
choices, last. -/
def atSlot (p : Problem) (slot : Nat) : Layout := ⟨min slot (p.choiceCount - 1)⟩

/-- The choices as they are shown. -/
def choices (l : Layout) (p : Problem) : List Sequence :=
  (p.foils.map Foil.sequence).insertIdx (min l.correctIndex p.foils.length) p.correct

/-- Whether the choice at this index is the one marked as correct. -/
def isCorrect (l : Layout) (index : Nat) : Bool := index == l.correctIndex

/-- A choice on a line of its own. -/
def choiceLine (index : Nat) (choice : Sequence) : String :=
  "(" ++ Label.ofIndex index ++ ") " ++ choice.text

/-- The choices line by line. -/
def choicesText (l : Layout) (p : Problem) : String :=
  Text.join "\n" ((l.choices p).mapIdx choiceLine)

/-! ## Form -/

def toJson (l : Layout) : Json := .obj [("correct_index", .int l.correctIndex)]

def ofJson? (v : Json) : Option Layout := do
  let members ← v.fields? ["correct_index"]
  let index ← Json.required "correct_index" Json.toWord? members
  some ⟨index.toNat⟩

end Layout

end StackSeq
