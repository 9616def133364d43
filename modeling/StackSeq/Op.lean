import StackSeq.Rational.Literal
import StackSeq.Text.Pieces

/-!
# Operations

The instruction set of the stack language. An operation is written as one token, a branch as two:
`bgtz` and its offset. The number of tokens is the operation's *width*; branch offsets count these
slots, not operations.
-/

namespace StackSeq

/-! ## Arithmetic -/

/-- The arithmetic operations on two values. -/
inductive BinOp where
  | add | sub | mul | div | mod
deriving DecidableEq

namespace BinOp

/-- All arithmetic operations, in their order. -/
def all : List BinOp := [add, sub, mul, div, mod]

/-- The result for a left operand and a right one, which was on top. -/
def apply : BinOp → Rational → Rational → Rational
  | add, a, b => a + b
  | sub, a, b => a - b
  | mul, a, b => a * b
  | div, a, b => a / b
  | mod, a, b => a % b

def symbol : BinOp → String
  | add => "+"
  | sub => "-"
  | mul => "*"
  | div => "/"
  | mod => "%"

/-- The word for the operation in structured data. -/
def name : BinOp → String
  | add => "add"
  | sub => "sub"
  | mul => "mul"
  | div => "div"
  | mod => "mod"

def ofSymbol? (s : String) : Option BinOp :=
  all.find? (·.symbol == s)

def ofName? (s : String) : Option BinOp :=
  all.find? (·.name == s)

def isCommutative : BinOp → Bool
  | add | mul => true
  | sub | div | mod => false

/-- The place of an operation among all. -/
def rank : BinOp → Nat
  | add => 0
  | sub => 1
  | mul => 2
  | div => 3
  | mod => 4

theorem rank_injective {a b : BinOp} (h : a.rank = b.rank) : a = b := by
  cases a <;> cases b <;> simp_all [rank]

theorem ofSymbol?_symbol (op : BinOp) : ofSymbol? op.symbol = some op := by
  cases op <;> decide

theorem ofName?_name (op : BinOp) : ofName? op.name = some op := by
  cases op <;> decide

end BinOp

/-! ## Operations -/

/-- One instruction of the stack language. -/
inductive Op where
  /-- Push a literal. -/
  | push (value : Rational)
  /-- Duplicate the top. -/
  | dup
  /-- Swap the two values on top. -/
  | swap
  /-- Bring the third value from the top to the top. -/
  | rot
  /-- Move the top to third place; undoes `rot`. -/
  | unrot
  /-- Replace the two values on top by a result. -/
  | binary (op : BinOp)
  /-- Push the number of values on the stack. -/
  | len
  /-- Pop a value and skip `offset` slots of the program if it is positive. -/
  | bgtz (offset : UInt64)
deriving DecidableEq

namespace Op

/-- The slots an operation fills in the text of a program. -/
def width : Op → Nat
  | bgtz _ => 2
  | _ => 1

theorem width_pos (op : Op) : 0 < op.width := by
  cases op <;> simp [width]

def isBranch : Op → Bool
  | bgtz _ => true
  | _ => false

def binary? : Op → Option BinOp
  | binary op => some op
  | _ => none

/-- The word for the operation, without its operands. -/
def mnemonic : Op → String
  | push _ => "push"
  | dup => "dup"
  | swap => "swap"
  | rot => "rot"
  | unrot => "unrot"
  | binary op => op.symbol
  | len => "len"
  | bgtz _ => "bgtz"

/-- The tokens of the operation. -/
def tokens : Op → List String
  | push value => [value.text]
  | bgtz offset => ["bgtz", toString offset.toNat]
  | op => [op.mnemonic]

theorem length_tokens (op : Op) : op.tokens.length = op.width := by
  cases op <;> rfl

/-- The text of the operation: its tokens, one space apart. -/
def text (op : Op) : String :=
  Text.join " " op.tokens

/-- The operations whose text is a fixed word. -/
def plain : List Op :=
  BinOp.all.map binary ++ [dup, swap, rot, unrot, len]

/-- The operation whose text is this word. -/
def ofMnemonic? (word : String) : Option Op :=
  plain.find? (·.mnemonic == word)

end Op

end StackSeq
