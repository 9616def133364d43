import StackSeq.Op

/-!
# Expressions over an unknown stack

What is known of a value in a run on an unknown stack: a literal, a value that lay on the stack
before the run, a depth that `len` pushed, or an arithmetic operation on two such. Values from
before the run are counted down from the initial top (`top`) and, below the origin of the
analysis, down from there (`bottom`); a depth is named by the index of its `len`.

* `fold` applies an operation and simplifies what holds for every value of the unknowns.
* `text` writes an expression in postfix, as a program would compute it.
* `value` is the meaning of an expression when the unknowns are known.
* `compare` is a total order; it decides how sets of expressions are listed.
-/

namespace StackSeq

/-- A value in terms of the unknowns of a run. -/
inductive Expr where
  /-- A known value. -/
  | lit (value : Rational)
  /-- The value `i` places below the initial top, above the origin. -/
  | top (i : Nat)
  /-- The value `i` places below the origin. -/
  | bottom (i : Nat)
  /-- The depth pushed by the `len` with this index. -/
  | len (index : Nat)
  /-- The result of an operation. -/
  | apply (op : BinOp) (lhs rhs : Expr)
deriving DecidableEq

namespace Expr

/-- The value of an expression that is a literal. -/
def literal? : Expr → Option Rational
  | lit value => some value
  | _ => none

/-- Applies an operation to operands of which one is unknown. The result is simplified if zero or
one as an operand decides it, or if a value is taken from itself. -/
def simplify : BinOp → Expr → Expr → Expr
  | .add, lhs, rhs => if rhs = lit 0 then lhs else if lhs = lit 0 then rhs else apply .add lhs rhs
  | .sub, lhs, rhs => if rhs = lit 0 then lhs else if lhs = rhs then lit 0 else apply .sub lhs rhs
  | .mul, lhs, rhs =>
    if lhs = lit 0 ∨ rhs = lit 0 then lit 0
    else if rhs = lit 1 then lhs
    else if lhs = lit 1 then rhs
    else apply .mul lhs rhs
  | .div, lhs, rhs =>
    if lhs = lit 0 ∨ rhs = lit 0 then lit 0
    else if rhs = lit 1 then lhs
    else apply .div lhs rhs
  | .mod, lhs, rhs =>
    if lhs = lit 0 ∨ rhs = lit 0 then lit 0
    else if lhs = rhs then lit 0
    else apply .mod lhs rhs

/-- Applies an operation: two literals are computed with, anything else is simplified. -/
def fold (op : BinOp) (lhs rhs : Expr) : Expr :=
  match lhs.literal?, rhs.literal? with
  | some a, some b => lit (op.apply a b)
  | _, _ => simplify op lhs rhs

/-- The expression in postfix: `t`, `b` and `n` with a number are the unknowns. -/
def text : Expr → String
  | lit value => value.text
  | top i => "t" ++ toString i
  | bottom i => "b" ++ toString i
  | len i => "n" ++ toString i
  | apply op lhs rhs => lhs.text ++ " " ++ rhs.text ++ " " ++ op.symbol

/-! ## Meaning -/

/-- Values for the unknowns. -/
structure Assignment where
  top : Nat → Rational
  bottom : Nat → Rational
  len : Nat → Rational

/-- The value of an expression when the unknowns have these values. -/
def value (env : Assignment) : Expr → Rational
  | lit r => r
  | top i => env.top i
  | bottom i => env.bottom i
  | len i => env.len i
  | apply op lhs rhs => op.apply (lhs.value env) (rhs.value env)

/-! ## Order -/

/-- Literals come first, in the order of their values, then the unknowns by kind and number, then
operations by symbol, left operand and right operand. -/
def compare : Expr → Expr → Ordering
  | lit a, lit b => a.compare b
  | lit _, _ => .lt
  | _, lit _ => .gt
  | top i, top j => Ord.compare i j
  | top _, _ => .lt
  | _, top _ => .gt
  | bottom i, bottom j => Ord.compare i j
  | bottom _, _ => .lt
  | _, bottom _ => .gt
  | len i, len j => Ord.compare i j
  | len _, _ => .lt
  | _, len _ => .gt
  | apply f a b, apply g c d =>
    (Ord.compare f.rank g.rank).then ((compare a c).then (compare b d))

instance : Ord Expr := ⟨compare⟩

/-- Expressions compare equal exactly when they are equal. -/
theorem compare_eq_iff {a b : Expr} : compare a b = .eq ↔ a = b := by
  induction a generalizing b with
  | lit a => cases b <;> simp [compare]
  | top i => cases b <;> simp [compare]
  | bottom i => cases b <;> simp [compare]
  | len i => cases b <;> simp [compare]
  | apply f l r hl hr =>
    cases b with
    | apply g c d =>
      simp only [compare, Ordering.then_eq_eq, hl, hr, Nat.compare_eq_eq, apply.injEq]
      exact ⟨fun ⟨h, t⟩ => ⟨BinOp.rank_injective h, t⟩, fun ⟨h, t⟩ => ⟨congrArg _ h, t⟩⟩
    | _ => simp [compare]

theorem compare_swap (a b : Expr) : (compare a b).swap = compare b a := by
  induction a generalizing b with
  | lit a =>
    cases b with
    | lit b => exact Rational.compare_swap a b
    | _ => simp [compare]
  | top i => cases b <;> simp [compare, Nat.compare_swap]
  | bottom i => cases b <;> simp [compare, Nat.compare_swap]
  | len i => cases b <;> simp [compare, Nat.compare_swap]
  | apply f l r hl hr =>
    cases b with
    | apply g c d => simp [compare, Ordering.swap_then, hl, hr, Nat.compare_swap]
    | _ => simp [compare]

theorem compare_lt_trans {a b c : Expr} (hab : compare a b = .lt) (hbc : compare b c = .lt) :
    compare a c = .lt := by
  induction a generalizing b c with
  | lit a =>
    cases c with
    | lit c =>
      cases b with
      | lit b => exact Rational.compare_lt_trans hab hbc
      | _ => simp [compare] at hbc
    | _ => simp [compare]
  | top i =>
    cases b <;> cases c <;> simp_all only [compare, Nat.compare_eq_lt, reduceCtorEq]
    exact Nat.lt_trans hab hbc
  | bottom i =>
    cases b <;> cases c <;> simp_all only [compare, Nat.compare_eq_lt, reduceCtorEq]
    exact Nat.lt_trans hab hbc
  | len i =>
    cases b <;> cases c <;> simp_all only [compare, Nat.compare_eq_lt, reduceCtorEq]
    exact Nat.lt_trans hab hbc
  | apply f l r hl hr =>
    cases b with
    | apply g l' r' =>
      cases c with
      | apply h l'' r'' =>
        simp only [compare, Ordering.then_eq_lt, Nat.compare_eq_lt, Nat.compare_eq_eq,
          compare_eq_iff] at hab hbc ⊢
        rcases hab with hfg | ⟨hfg, hll | ⟨rfl, hrr⟩⟩
        · exact .inl (by rcases hbc with hgh | ⟨hgh, -⟩ <;> omega)
        · rcases hbc with hgh | ⟨hgh, hll' | ⟨rfl, -⟩⟩
          · exact .inl (by omega)
          · exact .inr ⟨by omega, .inl (hl hll hll')⟩
          · exact .inr ⟨by omega, .inl hll⟩
        · rcases hbc with hgh | ⟨hgh, hll' | ⟨rfl, hrr'⟩⟩
          · exact .inl (by omega)
          · exact .inr ⟨by omega, .inl hll'⟩
          · exact .inr ⟨by omega, .inr ⟨rfl, hr hrr hrr'⟩⟩
      | _ => simp [compare] at hbc
    | _ => simp [compare] at hab

theorem isLE_compare {a b : Expr} : (compare a b).isLE = true ↔ compare a b = .lt ∨ a = b := by
  rw [← compare_eq_iff]
  cases compare a b <;> simp

instance : Std.TransCmp compare where
  eq_swap := (compare_swap ..).symm
  isLE_trans hab hbc := by
    rw [isLE_compare] at *
    rcases hab with hab | rfl
    · rcases hbc with hbc | rfl
      · exact .inl (compare_lt_trans hab hbc)
      · exact .inl hab
    · exact hbc

instance : Std.LawfulEqCmp compare where
  compare_self := compare_eq_iff.2 rfl
  eq_of_compare := compare_eq_iff.1

end Expr

end StackSeq
