import StackSeq.Run

/-!
# Zeros below a stack

An operation that misses operands reads zeros. To put zeros under the stack beforehand changes
nothing but how many of them are left: an operation takes as many of them as it would have missed
(`effect_aboveZeros`), branches go the same way, and so does the whole run (`runOps_aboveZeros`,
`map_course_boundaries_aboveZeros`). Only `len` tells a deep stack from a shallow one.
-/

namespace StackSeq

variable {op : Op} {ops : List Op} {s : Stack} {count slots : Nat}

/-! ## Stacks -/

namespace Stack

/-- The stack with this many zeros put under it. -/
def aboveZeros (s : Stack) (count : Nat) : Stack :=
  ⟨s.topDown ++ List.replicate count 0⟩

theorem ofList_replicate_append (count : Nat) (values : List Rational) :
    ofList (List.replicate count 0 ++ values) = (ofList values).aboveZeros count := by
  simp [ofList, aboveZeros]

theorem toList_aboveZeros (s : Stack) (count : Nat) :
    (s.aboveZeros count).toList = List.replicate count 0 ++ s.toList := by
  simp [toList, aboveZeros]

@[simp] theorem push_aboveZeros (s : Stack) (count : Nat) (value : Rational) :
    (s.aboveZeros count).push value = (s.push value).aboveZeros count := rfl

@[simp] theorem top_aboveZeros (s : Stack) (count : Nat) : (s.aboveZeros count).top = s.top := by
  obtain ⟨values⟩ := s
  cases values with
  | cons value values => rfl
  | nil => cases count <;> rfl

/-- A stack without values takes a zero from below, if there is one. -/
@[simp] theorem rest_aboveZeros (s : Stack) (count : Nat) :
    (s.aboveZeros count).rest = s.rest.aboveZeros (count - (1 - s.depth)) := by
  obtain ⟨values⟩ := s
  cases values with
  | cons value values =>
    have hdepth : 1 - (values.length + 1) = 0 := by omega
    simp [rest, aboveZeros, depth, hdepth]
  | nil => simp [rest, aboveZeros, depth]

end Stack

/-! ## Operations -/

namespace Op

/-- How many values the operation takes off the stack. -/
def operands : Op → Nat
  | push _ | len => 0
  | dup | bgtz _ => 1
  | swap | binary _ => 2
  | rot | unrot => 3

/-- How many of its operands are missing from the stack. -/
def missing (op : Op) (s : Stack) : Nat := op.operands - s.depth

theorem jump_aboveZeros (op : Op) (s : Stack) (count : Nat) :
    op.jump (s.aboveZeros count) = op.jump s := by
  cases op <;> simp [jump]

/-- **Zeros below the stack stand in for missing operands.** -/
theorem effect_aboveZeros (h : op ≠ .len) :
    op.effect (s.aboveZeros count) = (op.effect s).aboveZeros (count - op.missing s) := by
  -- The values are taken one at a time, each of them from below once the stack has run out.
  have htwo : count - (1 - s.depth) - (1 - (s.depth - 1)) = count - (2 - s.depth) := by omega
  have hthree : count - (2 - s.depth) - (1 - (s.depth - 1 - 1)) = count - (3 - s.depth) := by omega
  cases op with
  | len => exact absurd rfl h
  | push value => simp [effect, missing, operands]
  | dup => simp [effect, missing, operands, Stack.dup]
  | bgtz offset => simp [effect, missing, operands]
  | swap => simp [effect, missing, operands, Stack.swap, htwo]
  | binary op => simp [effect, missing, operands, htwo]
  | rot => simp [effect, missing, operands, Stack.rot, htwo, hthree]
  | unrot => simp [effect, missing, operands, Stack.unrot, htwo, hthree]

end Op

/-! ## Runs -/

/-- How many operands a run of these operations finds missing, skipping `slots` slots first. -/
def opsMissing : List Op → (slots : Nat) → Stack → Nat
  | [], _, _ => 0
  | op :: rest, slots + 1, s => opsMissing rest (slots + 1 - op.width) s
  | op :: rest, 0, s => op.missing s + opsMissing rest (op.jump s) (op.effect s)

/-- **A run leaves those zeros of which it has no need.** -/
theorem runOps_aboveZeros (h : .len ∉ ops) (slots : Nat) (s : Stack) (count : Nat) :
    runOps ops slots (s.aboveZeros count)
      = (runOps ops slots s).aboveZeros (count - opsMissing ops slots s) := by
  fun_induction opsMissing ops slots s generalizing count with
  | case1 => rfl
  | case2 op rest slots s ih =>
    rw [runOps, runOps]
    exact ih (fun hrest => h (List.mem_cons_of_mem op hrest)) count
  | case3 op rest s ih =>
    rw [List.mem_cons, not_or] at h
    rw [runOps, runOps, op.jump_aboveZeros, Op.effect_aboveZeros (Ne.symm h.1), ih h.2, Nat.sub_sub]

namespace Boundary

/-- Whether the run is about to take a branch; none where the next operation is no branch. -/
def takesBranch? (b : Boundary) : Option Bool :=
  match b.remaining with
  | .bgtz _ :: _ => some b.stack.top.isPositive
  | _ => none

/-- The way that a run has before it at a point: its operations, and where a branch comes first
whether it is taken. -/
def course (b : Boundary) : List Op × Option Bool := (b.remaining, b.takesBranch?)

theorem course_aboveZeros (ops : List Op) (s : Stack) (count : Nat) :
    course ⟨ops, s.aboveZeros count⟩ = course ⟨ops, s⟩ := by
  simp only [course, takesBranch?, Stack.top_aboveZeros]

end Boundary

/-- **Zeros below the stack change no branch.** -/
theorem map_course_boundaries_aboveZeros (h : .len ∉ ops) (slots : Nat) (s : Stack) (count : Nat) :
    (boundaries ops slots (s.aboveZeros count)).map Boundary.course
      = (boundaries ops slots s).map Boundary.course := by
  fun_induction opsMissing ops slots s generalizing count with
  | case1 => rfl
  | case2 op rest slots s ih =>
    rw [boundaries, boundaries]
    exact ih (fun hrest => h (List.mem_cons_of_mem op hrest)) count
  | case3 op rest s ih =>
    rw [List.mem_cons, not_or] at h
    rw [boundaries, boundaries, List.map_cons, List.map_cons, op.jump_aboveZeros,
      Op.effect_aboveZeros (Ne.symm h.1), ih h.2, Boundary.course_aboveZeros]

namespace Program

/-- How many operands a run on these values finds missing. -/
def missing (p : Program) (values : List Rational) : Nat :=
  opsMissing p.code 0 (.ofList values)

/-- **Missing operands are zeros from an endless supply below the stack.** With zeros under its
stack a program without `len` leaves the same values on top of what is left of them, and takes the
same branches. It uses up as many of them as there were operands missing, or all. -/
theorem evaluate_replicate_append {p : Program} (h : .len ∉ p.code) (values : List Rational)
    (count : Nat) :
    (∃ left ≤ count, left = count - p.missing values ∧
        p.evaluate (List.replicate count 0 ++ values)
          = List.replicate left 0 ++ p.evaluate values) ∧
      (p.trace (List.replicate count 0 ++ values)).map Boundary.course
        = (p.trace values).map Boundary.course := by
  refine ⟨⟨count - p.missing values, Nat.sub_le _ _, rfl, ?_⟩, ?_⟩
  · rw [evaluate, run, Stack.ofList_replicate_append, runOps_aboveZeros h, Stack.toList_aboveZeros]
    rfl
  · rw [trace, Stack.ofList_replicate_append]
    exact map_course_boundaries_aboveZeros h 0 _ count

/-- A rotation misses two of its operands, and the branch behind it is taken all the same. -/
theorem evaluate_replicate_append_rotation :
    let p : Program := ⟨[.rot, .swap, .bgtz 1, .dup, .binary .sub]⟩
    .len ∉ p.code ∧ p.evaluate [1] = [0] ∧ p.missing [1] = 2 ∧
      (∃ left ≤ 3, left = 3 - p.missing [1] ∧
        p.evaluate (List.replicate 3 0 ++ [1]) = List.replicate left 0 ++ p.evaluate [1]) ∧
      (p.trace (List.replicate 3 0 ++ [1])).map Boundary.course
        = (p.trace [1]).map Boundary.course := by
  intro p
  have hlen : .len ∉ p.code := by decide
  exact ⟨hlen, by decide, by decide, evaluate_replicate_append hlen [1] 3⟩

end Program

end StackSeq
