import StackSeq.Json.Decode
import StackSeq.Run

/-!
# Programs as structured data

The JSON forms of values, operations, programs, stacks and the points of a run. A value is the
string of its literal; an operation is an object whose member `op` names it. That member may stand
anywhere, so the others are stored until it is found. In an array the name comes first and the
operand, if there is one, behind it.
-/

namespace StackSeq

namespace Rational

def toJson (r : Rational) : Json := .str r.text

def ofJson? (v : Json) : Option Rational :=
  v.toText?.bind fun s => (parse s).toOption

end Rational

namespace BinOp

def toJson (op : BinOp) : Json := .str op.name

/-- The operation named by a string, or by the only key of an object that holds nothing else. -/
def ofJson? : Json → Option BinOp
  | .str s => ofName? s
  | .obj [(key, .null)] => ofName? key
  | _ => none

end BinOp

namespace Op

/-- The word for an operation in its member `op`. -/
def tag : Op → String
  | binary op => op.name
  | op => op.mnemonic

/-- The operations without members of their own. -/
def ofTag? (word : String) : Option Op :=
  plain.find? (·.tag == word)

def toJson (op : Op) : Json :=
  .obj <| ("op", .str op.tag) :: match op with
    | push value => [("value", value.toJson)]
    | bgtz offset => [("offset", .ofWord offset)]
    | _ => []

/-- The operation with this word and, among these members, its operand. -/
def ofMembers? (word : String) (members : List (String × Json)) : Option Op :=
  if word = "push" then
    (Json.required "value" Rational.ofJson? members).map push
  else if word = "bgtz" then
    (Json.required "offset" Json.toWord? members).map bgtz
  else ofTag? word

/-- The members that an operation with this word has besides its name. -/
def operandKeys (word : String) : List String :=
  if word = "push" then ["value"] else if word = "bgtz" then ["offset"] else []

/-- The operation of an object or an array that stands at this level of nesting. -/
def ofJson? (level : Nat) : Json → Option Op
  | .obj members => do
    guard (Json.areMembersStorable (Json.nestingLimit - level) members)
    let word ← Json.required "op" Json.toText? members
    ofMembers? word members
  | .arr (name :: operands) => do
    let word ← name.toText?
    let members ← (Json.arr operands).fields? (operandKeys word)
    ofMembers? word members
  | _ => none

end Op

namespace Program

def toJson (p : Program) : Json :=
  .obj [("code", .arr (p.code.map Op.toJson))]

def ofJson? (v : Json) : Option Program := do
  let members ← v.fields? ["code"]
  let code ← Json.required "code" (Json.toList? (Op.ofJson? 3)) members
  some ⟨code⟩

end Program

namespace Stack

/-- The values from the bottom up. -/
def toJson (s : Stack) : Json := .arr (s.toList.map Rational.toJson)

def ofJson? (v : Json) : Option Stack :=
  (v.toList? Rational.ofJson?).map ofList

end Stack

namespace Boundary

def toJson (b : Boundary) : Json :=
  .obj [("remaining", .arr (b.remaining.map Op.toJson)), ("stack", b.stack.toJson)]

def ofJson? (v : Json) : Option Boundary := do
  let members ← v.fields? ["remaining", "stack"]
  let remaining ← Json.required "remaining" (Json.toList? (Op.ofJson? 3)) members
  let stack ← Json.required "stack" Stack.ofJson? members
  some ⟨remaining, stack⟩

end Boundary

end StackSeq
