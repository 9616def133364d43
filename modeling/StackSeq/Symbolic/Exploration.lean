import StackSeq.Program
import StackSeq.Symbolic.Stack

/-!
# Explorations

All runs of a program on an unknown stack. A branch whose condition is decided goes the one way
that it can go; any other splits the exploration into the run that falls through and the run that
takes it. The result is a tree: `points` lists its points in the order in which they are explored,
`outcome` merges the final stacks of all runs into one.

The tree is built by recursion on the operations, with the slots still to be skipped carried
along, as for a run on a known stack.
-/

namespace StackSeq

/-- The runs of a program from one point on. -/
inductive Exploration where
  /-- The program is over. -/
  | halt (stack : SymbolicStack)
  /-- One way on. -/
  | step (remaining : List Op) (stack : SymbolicStack) (next : Exploration)
  /-- Two ways on: past the branch, and from its target. -/
  | fork (remaining : List Op) (stack : SymbolicStack) (fallThrough taken : Exploration)

/-- A point of an exploration between two operations. -/
structure SymbolicBoundary where
  /-- The operations from here to the end of the program. -/
  remaining : List Op
  stack : SymbolicStack
deriving DecidableEq

namespace Exploration

/-- The points of all runs, what falls through before what is taken. -/
def points : Exploration → List SymbolicBoundary
  | halt stack => [⟨[], stack⟩]
  | step remaining stack next => ⟨remaining, stack⟩ :: next.points
  | fork remaining stack fallThrough taken =>
    ⟨remaining, stack⟩ :: (fallThrough.points ++ taken.points)

/-- The final stacks of all runs, in the order of exploration. -/
def ends : Exploration → List SymbolicStack
  | halt stack => [stack]
  | step _ _ next => next.ends
  | fork _ _ fallThrough taken => fallThrough.ends ++ taken.ends

/-- The runs one by one, each as the list of its points. -/
def paths : Exploration → List (List SymbolicBoundary)
  | halt stack => [[⟨[], stack⟩]]
  | step remaining stack next => next.paths.map (⟨remaining, stack⟩ :: ·)
  | fork remaining stack fallThrough taken =>
    (fallThrough.paths ++ taken.paths).map (⟨remaining, stack⟩ :: ·)

/-- One stack that describes the ends of all runs. -/
def outcome : Exploration → SymbolicStack
  | halt stack => stack
  | step _ _ next => next.outcome
  | fork _ _ fallThrough taken => fallThrough.outcome.merge taken.outcome

end Exploration

/-- The runs of these operations, of which the first has this index, after a skip of `slots`
slots. -/
def exploreOps : List Op → (index slots : Nat) → SymbolicStack → Exploration
  | [], _, _, s => .halt s
  | op :: rest, index, slots + 1, s => exploreOps rest (index + 1) (slots + 1 - op.width) s
  | op :: rest, index, 0, s =>
    match op with
    | .bgtz offset =>
      match s.pop.1.decidePositive with
      | some true => .step (op :: rest) s (exploreOps rest (index + 1) offset.toNat s.pop.2)
      | some false => .step (op :: rest) s (exploreOps rest (index + 1) 0 s.pop.2)
      | none =>
        .fork (op :: rest) s (exploreOps rest (index + 1) 0 s.pop.2)
          (exploreOps rest (index + 1) offset.toNat s.pop.2)
    | op => .step (op :: rest) s (exploreOps rest (index + 1) 0 (s.execute index op))

namespace Program

/-- All runs of the program on a stack of which nothing is known. -/
def explore (p : Program) (originDepth : Nat) : Exploration :=
  exploreOps p.code 0 0 (.initial originDepth)

/-- The stack that describes the ends of all runs. -/
def analyze (p : Program) (originDepth : Nat) : SymbolicStack :=
  (p.explore originDepth).outcome

/-- Whether the analysis shows that the program leaves a fixed value or the former top. -/
def isProvablyConstant (p : Program) (originDepth : Nat) : Bool :=
  match (p.analyze originDepth).topOfStack?.bind ExprSet.single? with
  | some (.lit _) => true
  | some (.top 0) => decide (0 < originDepth)
  | _ => false

end Program

end StackSeq
