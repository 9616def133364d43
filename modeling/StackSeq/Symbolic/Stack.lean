import StackSeq.Symbolic.ExprSet

/-!
# Stacks over an unknown stack

What is known of the stack at one point of a run on an unknown stack. The *origin* lies
`originDepth` places below the initial top. From the bottom up the stack consists of values from
before the run that were never reached, the modelled slots below the origin (`lower`), the values
from before the run between the origin and the lowest one reached (`topRefs` counts those that
were reached), and the modelled slots above (`upper`).

Popping an empty model takes the next value from before the run: first those above the origin,
named `top`, then those below it, named `bottom`. Pushing fills the places below the origin first.
Whether any are free shows in the sign of the height, which is counted with signed 64-bit integers
and wraps on a stack that rises `2 ^ 63` places or more above its origin.

`merge` joins the final stacks of two runs of one program place by place, counted from the
origin. Where they end at different heights the result is *ragged*, and `shortfall` counts the
slots that some run may lack.
-/

namespace StackSeq

/-- A stack in terms of an unknown one; `upper` and `lower` list the topmost slot first. -/
structure SymbolicStack where
  upper : List ExprSet := []
  lower : List ExprSet := []
  /-- How many places the origin lies below the initial top. -/
  originDepth : Nat
  /-- How many values from above the origin were reached. -/
  topRefs : Nat := 0
  /-- How many values from below the origin were reached. -/
  bottomRefs : Nat := 0
  /-- How many of the slots some run may lack. -/
  shortfall : Nat := 0
  /-- Whether runs may end at different heights. -/
  ragged : Bool := false
deriving DecidableEq

namespace SymbolicStack

/-- The stack before the run. -/
def initial (originDepth : Nat) : SymbolicStack := { originDepth }

/-! ## Views -/

/-- The modelled slots above the origin, from the bottom up. -/
def top (s : SymbolicStack) : List ExprSet := s.upper.reverse

/-- The modelled slots below the origin, from the bottom up. -/
def bottom (s : SymbolicStack) : List ExprSet := s.lower.reverse

/-- All modelled slots, from the bottom up. -/
def slots (s : SymbolicStack) : List ExprSet := s.bottom ++ s.top

/-- The values above the origin that were never reached. -/
def unreached (s : SymbolicStack) : Nat := s.originDepth - s.topRefs

/-- The number of modelled slots. -/
def slotCount (s : SymbolicStack) : Nat := s.upper.length + s.lower.length

/-- How far the stack rises above the origin. -/
def span (s : SymbolicStack) : Int :=
  ((s.unreached + s.upper.length + s.lower.length : Nat) : Int) - (s.bottomRefs : Nat)

/-- The height of the stack above the origin, as a signed 64-bit integer. -/
def height (s : SymbolicStack) : Int := Text.wrapInt64 s.span

/-- How much higher the stack is than before the run, as a signed 64-bit integer. -/
def depthChange (s : SymbolicStack) : Int :=
  Text.wrapInt64 (s.height - (s.originDepth : Nat))

/-- A number of values that the stack has at least, whatever lay on it before the run. -/
def lengthBound (s : SymbolicStack) : Nat :=
  s.slotCount - s.shortfall

/-- The top slot; unknown if runs end at different heights. -/
def topOfStack? (s : SymbolicStack) : Option ExprSet :=
  if s.ragged then none
  else match s.upper with
    | slot :: _ => some slot
    | [] =>
      if s.topRefs < s.originDepth then some (.single (.top s.topRefs))
      else match s.lower with
        | slot :: _ => some slot
        | [] => some (.single (.bottom s.bottomRefs))

/-- The stack as text: slots from the bottom up, a bar at the origin if places below it were
reached. -/
def text (s : SymbolicStack) : String :=
  let joined (slots : List ExprSet) := Text.join ", " (slots.map ExprSet.text)
  let below :=
    if 0 < s.bottomRefs ∨ s.lower ≠ [] then joined s.bottom ++ " | " else ""
  "[" ++ below ++ joined s.top ++ "]"

/-! ## Operations -/

/-- The top slot and the stack without it. -/
def pop (s : SymbolicStack) : ExprSet × SymbolicStack :=
  match s.upper with
  | slot :: upper => (slot, { s with upper })
  | [] =>
    if s.topRefs < s.originDepth then
      (.single (.top s.topRefs), { s with topRefs := s.topRefs + 1 })
    else match s.lower with
      | slot :: lower => (slot, { s with lower })
      | [] => (.single (.bottom s.bottomRefs), { s with bottomRefs := s.bottomRefs + 1 })

/-- The stack with a slot put on top; below the origin as long as its places are free. -/
def push (s : SymbolicStack) (slot : ExprSet) : SymbolicStack :=
  if s.height < 0 then { s with lower := slot :: s.lower } else { s with upper := slot :: s.upper }

/-- The stack after the operation with this index, of a branch the part that pops. -/
def execute (s : SymbolicStack) (index : Nat) : Op → SymbolicStack
  | .push value => s.push (.single (.lit value))
  | .dup =>
    let (x, s) := s.pop
    (s.push x).push x
  | .swap =>
    let (x, s) := s.pop
    let (y, s) := s.pop
    (s.push x).push y
  | .rot =>
    let (c, s) := s.pop
    let (b, s) := s.pop
    let (a, s) := s.pop
    ((s.push b).push c).push a
  | .unrot =>
    let (c, s) := s.pop
    let (b, s) := s.pop
    let (a, s) := s.pop
    ((s.push c).push a).push b
  | .binary op =>
    let (x, s) := s.pop
    let (y, s) := s.pop
    s.push (.apply op y x)
  | .len => s.push (.single (.len index))
  | .bgtz _ => s.pop.2

section

variable (s : SymbolicStack) (index : Nat)

theorem execute_dup : s.execute index .dup = (s.pop.2.push s.pop.1).push s.pop.1 := rfl

theorem execute_swap :
    s.execute index .swap = (s.pop.2.pop.2.push s.pop.1).push s.pop.2.pop.1 := rfl

theorem execute_rot :
    s.execute index .rot
      = ((s.pop.2.pop.2.pop.2.push s.pop.2.pop.1).push s.pop.1).push s.pop.2.pop.2.pop.1 := rfl

theorem execute_unrot :
    s.execute index .unrot
      = ((s.pop.2.pop.2.pop.2.push s.pop.1).push s.pop.2.pop.2.pop.1).push s.pop.2.pop.1 := rfl

theorem execute_binary (op : BinOp) :
    s.execute index (.binary op) = s.pop.2.pop.2.push (.apply op s.pop.2.pop.1 s.pop.1) := rfl

end

/-! ## Merging -/

/-- The single slots of the references `low` to `high`, the end excluded, in decreasing order. -/
def refSlots (ref : Nat → Expr) (low high : Nat) : List ExprSet :=
  ((List.range' low (high - low)).map fun i => ExprSet.single (ref i)).reverse

/-- The slots from the bottom up, with those in place that hold a value from before the run and
that a stack with these counts of reached values models. -/
def alignedSlots (s : SymbolicStack) (topRefs bottomRefs : Nat) : List ExprSet :=
  refSlots .bottom s.bottomRefs bottomRefs ++ s.bottom ++ refSlots .top s.topRefs topRefs ++ s.top

/-- The slots of two stacks place by place, from the bottom up; the longer list goes on alone. -/
def unionSlots : List ExprSet → List ExprSet → List ExprSet
  | [], right => right
  | left, [] => left
  | l :: left, r :: right => l.union r :: unionSlots left right

/-- The stack that describes the ends of two runs from one point. -/
def merge (a b : SymbolicStack) : SymbolicStack :=
  let topRefs := max a.topRefs b.topRefs
  let bottomRefs := max a.bottomRefs b.bottomRefs
  let left := a.alignedSlots topRefs bottomRefs
  let right := b.alignedSlots topRefs bottomRefs
  let slots := unionSlots left right
  { upper := (slots.drop bottomRefs).reverse
    lower := (slots.take bottomRefs).reverse
    originDepth := a.originDepth
    topRefs
    bottomRefs
    shortfall := slots.length - min a.lengthBound b.lengthBound
    ragged := a.ragged || b.ragged || left.length != right.length }

end SymbolicStack

end StackSeq
