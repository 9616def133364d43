import StackSeq.Rational

/-!
# Stacks

A stack of values with an endless supply of zeros below it: reading past the bottom yields zero,
and a missing operand that an operation moves comes to lie on the stack. So every operation runs
on every stack.

Values are kept topmost first; `toList` is the view from the bottom up, in which stacks are
written and read.
-/

namespace StackSeq

/-- A stack of values. -/
structure Stack where
  /-- The values from the top down. -/
  topDown : List Rational
deriving DecidableEq

namespace Stack

/-- The stack without values. -/
def empty : Stack := ⟨[]⟩

instance : Inhabited Stack := ⟨empty⟩

/-- The stack of these values, the last one on top. -/
def ofList (values : List Rational) : Stack := ⟨values.reverse⟩

/-- The values from the bottom up. -/
def toList (s : Stack) : List Rational := s.topDown.reverse

@[simp] theorem toList_ofList (values : List Rational) : (ofList values).toList = values :=
  List.reverse_reverse values

@[simp] theorem ofList_toList (s : Stack) : ofList s.toList = s := by
  cases s
  simp [ofList, toList]

/-- The number of values. -/
def depth (s : Stack) : Nat := s.topDown.length

@[simp] theorem depth_ofList (values : List Rational) : (ofList values).depth = values.length :=
  List.length_reverse

@[simp] theorem length_toList (s : Stack) : s.toList.length = s.depth :=
  List.length_reverse

def isEmpty (s : Stack) : Bool := s.topDown.isEmpty

/-- The top, which is zero on an empty stack. -/
def top (s : Stack) : Rational := s.topDown.headD 0

/-- The stack below the top. -/
def rest (s : Stack) : Stack := ⟨s.topDown.tail⟩

/-- The stack with a value put on top. -/
def push (s : Stack) (value : Rational) : Stack := ⟨value :: s.topDown⟩

@[simp] theorem top_push (s : Stack) (value : Rational) : (s.push value).top = value := rfl

@[simp] theorem rest_push (s : Stack) (value : Rational) : (s.push value).rest = s := rfl

@[simp] theorem toList_push (s : Stack) (value : Rational) :
    (s.push value).toList = s.toList ++ [value] := by
  simp [push, toList]

@[simp] theorem depth_push (s : Stack) (value : Rational) : (s.push value).depth = s.depth + 1 :=
  rfl

@[simp] theorem depth_rest (s : Stack) : s.rest.depth = s.depth - 1 := by
  simp [rest, depth]

/-- The stack with its top twice. -/
def dup (s : Stack) : Stack := (s.rest.push s.top).push s.top

/-- The stack with its two values on top exchanged. -/
def swap (s : Stack) : Stack := (s.rest.rest.push s.top).push s.rest.top

/-- The stack with its third value brought to the top. -/
def rot (s : Stack) : Stack :=
  ((s.rest.rest.rest.push s.rest.top).push s.top).push s.rest.rest.top

/-- The stack with its top moved down to third place. -/
def unrot (s : Stack) : Stack :=
  ((s.rest.rest.rest.push s.top).push s.rest.rest.top).push s.rest.top

end Stack

end StackSeq
