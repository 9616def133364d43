import StackSeq.Program
import StackSeq.Stack

/-!
# Runs

What a program does to a stack. `Op.effect` is the change an operation makes and `Op.jump` the
number of slots that a run skips after it, zero for all but a branch whose condition holds.

A run is defined twice. `runOps` recurses on the operations and carries the slots still to be
skipped; `boundaries` lists the stacks between the operations of the same run. `Machine.step` is
one move of a machine with an index into the program, and there are two loops over it: `finish`
asks after each move whether the machine has halted, `observe` asks before each move and shows the
points of the run to an observer. Branches lead forward only, so every run ends after at most one
move for each operation.
-/

namespace StackSeq

universe u

/-! ## One operation -/

namespace Op

/-- The stack after the operation. -/
def effect : Op → Stack → Stack
  | push value, s => s.push value
  | dup, s => s.dup
  | swap, s => s.swap
  | rot, s => s.rot
  | unrot, s => s.unrot
  | binary op, s => s.rest.rest.push (op.apply s.rest.top s.top)
  | len, s => s.push (.ofCount s.depth)
  | bgtz _, s => s.rest

/-- The slots skipped after the operation. -/
def jump : Op → Stack → Nat
  | bgtz offset, s => if s.top.isPositive then offset.toNat else 0
  | _, _ => 0

end Op

/-! ## A whole run -/

/-- The final stack of a run of these operations that first skips `slots` slots. -/
def runOps : List Op → (slots : Nat) → Stack → Stack
  | [], _, s => s
  | op :: rest, slots + 1, s => runOps rest (slots + 1 - op.width) s
  | op :: rest, 0, s => runOps rest (op.jump s) (op.effect s)

/-- A point of a run between two operations. -/
structure Boundary where
  /-- The operations from here to the end of the program. -/
  remaining : List Op
  stack : Stack
deriving DecidableEq

/-- The points of a run of these operations that first skips `slots` slots, the final one last. -/
def boundaries : List Op → (slots : Nat) → Stack → List Boundary
  | [], _, s => [⟨[], s⟩]
  | op :: rest, slots + 1, s => boundaries rest (slots + 1 - op.width) s
  | op :: rest, 0, s => ⟨op :: rest, s⟩ :: boundaries rest (op.jump s) (op.effect s)

namespace Program

/-- The final stack of a run. -/
def run (p : Program) (s : Stack) : Stack :=
  runOps p.code 0 s

/-- The final values of a run, values being listed from the bottom up. -/
def evaluate (p : Program) (values : List Rational) : List Rational :=
  (p.run (.ofList values)).toList

/-- The points of a run, the final one last. -/
def trace (p : Program) (values : List Rational) : List Boundary :=
  boundaries p.code 0 (.ofList values)

end Program

/-! ## One move at a time -/

/-- A machine in the middle of a run. -/
structure Machine where
  /-- Index of the next operation. -/
  pc : Nat
  stack : Stack
deriving DecidableEq

namespace Machine

/-- The machine before its first move. -/
def start (values : List Rational) : Machine :=
  ⟨0, .ofList values⟩

/-- Whether no operation is left. -/
def isHalted (p : Program) (m : Machine) : Bool :=
  decide (p.length ≤ m.pc)

/-- The operations not yet reached. -/
def remaining (p : Program) (m : Machine) : List Op :=
  p.code.drop m.pc

/-- The machine after one operation; a machine that has halted stays as it is. -/
def step (p : Program) (m : Machine) : Machine :=
  match p.code[m.pc]? with
  | none => m
  | some op => ⟨p.branchTarget m.pc (op.jump m.stack), op.effect m.stack⟩

/-- A halted machine does not move. -/
theorem step_of_isHalted {p : Program} {m : Machine} (h : m.isHalted p = true) :
    m.step p = m := by
  rw [isHalted, decide_eq_true_eq, Program.length] at h
  rw [step, List.getElem?_eq_none h]

/-- Every move of a machine that has not halted leads forward. -/
theorem pc_lt_step {p : Program} {m : Machine} (h : m.isHalted p = false) :
    m.pc < (m.step p).pc := by
  rw [isHalted, decide_eq_false_iff_not, Program.length, Nat.not_le] at h
  rw [step, List.getElem?_eq_getElem h]
  exact p.lt_branchTarget m.pc _

theorem isHalted_step {p : Program} {m : Machine} (h : m.isHalted p = true) :
    (m.step p).isHalted p = true := by
  rw [step_of_isHalted h]
  exact h

/-- A machine that has not halted comes closer to the end of the program. -/
theorem sub_pc_step_lt {p : Program} {m : Machine} (h : ¬m.isHalted p = true) :
    p.length - (m.step p).pc < p.length - m.pc := by
  rw [Bool.not_eq_true] at h
  have hstep := pc_lt_step h
  rw [isHalted, decide_eq_false_iff_not] at h
  omega

/-- The point of the run that the machine has come to. -/
def boundary (p : Program) (m : Machine) : Boundary := ⟨m.remaining p, m.stack⟩

/-! ## Loops -/

/-- The machine after moves up to the first one that leaves it halted; there is at least one. -/
def finish (p : Program) (m : Machine) : Machine :=
  if _h : (m.step p).isHalted p = true then m.step p else finish p (m.step p)
termination_by p.length - m.pc
decreasing_by exact sub_pc_step_lt fun hm => _h (isHalted_step hm)

/-- The final stack of the machine's run, and what an observer has gathered who starts with `seen`
and is shown each point of the run in turn, the final one last. -/
def observe {σ : Type u} (p : Program) (see : σ → Boundary → σ) (m : Machine) (seen : σ) :
    σ × Stack :=
  let seen := see seen (m.boundary p)
  if _h : m.isHalted p = true then (seen, m.stack) else observe p see (m.step p) seen
termination_by p.length - m.pc
decreasing_by exact sub_pc_step_lt _h

end Machine

namespace Program

/-- The final values of a run, one move after another. -/
def evaluateByMoves (p : Program) (values : List Rational) : List Rational :=
  ((Machine.start values).finish p).stack.toList

/-- What an observer gathers from a run, and the final values. -/
def evaluateObserved {σ : Type u} (p : Program) (see : σ → Boundary → σ) (seen : σ)
    (values : List Rational) : σ × List Rational :=
  ((Machine.start values).observe p see seen).map id Stack.toList

end Program

end StackSeq
