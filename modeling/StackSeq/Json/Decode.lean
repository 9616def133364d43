import StackSeq.Json
import StackSeq.Text.Numeral

/-!
# Taking structured data apart

What the readers of domain values share: exact integers within a range, lists, and the fields of a
record. A record is written as an object and read from an object or an array. In an object a member
that is asked for may occur once at most, and members that nobody asks for are passed over, whatever
they hold. An array holds the fields in their order and may end early, but has nothing behind them.
-/

namespace StackSeq.Json

/-! ## Scalars and lists -/

def toInt64? : Json → Option Int64
  | int n => if Text.FitsInt64 n then some (Int64.ofInt n) else none
  | _ => none

/-- An unsigned 64-bit integer. -/
def toWord? : Json → Option UInt64
  | int n => if 0 ≤ n ∧ n < 0x1_0000_0000_0000_0000 then some (UInt64.ofNat n.toNat) else none
  | _ => none

/-- An unsigned 32-bit integer. -/
def toHalfWord? : Json → Option UInt32
  | int n => if 0 ≤ n ∧ n < 0x1_0000_0000 then some (UInt32.ofNat n.toNat) else none
  | _ => none

def toBool? : Json → Option Bool
  | bool b => some b
  | _ => none

def toText? : Json → Option String
  | str s => some s
  | _ => none

/-- An array of which every item reads as `decode` says. -/
def toList? {α : Type} (decode : Json → Option α) : Json → Option (List α)
  | arr items => items.mapM decode
  | _ => none

/-- A value that may be null instead. -/
def toNullable? {α : Type} (decode : Json → Option α) : Json → Option (Option α)
  | null => some none
  | v => (decode v).map some

def ofInt64 (n : Int64) : Json := int n.toInt

def ofWord (n : UInt64) : Json := int n.toNat

def ofHalfWord (n : UInt32) : Json := int n.toNat

@[simp] theorem toInt64?_ofInt64 (n : Int64) : (ofInt64 n).toInt64? = some n := by
  have fits : Text.FitsInt64 n.toInt := ⟨n.le_toInt, n.toInt_lt⟩
  simp [ofInt64, toInt64?, fits]

@[simp] theorem toWord?_ofWord (n : UInt64) : (ofWord n).toWord? = some n := by
  have fits : (n.toNat : Int) < 0x1_0000_0000_0000_0000 := by
    have := n.toNat_lt
    omega
  rw [ofWord, toWord?, if_pos ⟨Int.natCast_nonneg _, fits⟩]
  simp

@[simp] theorem toHalfWord?_ofHalfWord (n : UInt32) : (ofHalfWord n).toHalfWord? = some n := by
  have fits : (n.toNat : Int) < 0x1_0000_0000 := by
    have := n.toNat_lt
    omega
  rw [ofHalfWord, toHalfWord?, if_pos ⟨Int.natCast_nonneg _, fits⟩]
  simp

/-- A list whose items are written one by one reads back item by item. -/
theorem toList?_arr_map {α : Type} {decode : Json → Option α} {encode : α → Json}
    (h : ∀ a, decode (encode a) = some a) (as : List α) :
    (arr (as.map encode)).toList? decode = some as := by
  rw [toList?]
  induction as with
  | nil => rfl
  | cons a as ih => simp [h, ih]

/-! ## Records -/

/-- The members of an object. -/
def members? : Json → Option (List (String × Json))
  | obj members => some members
  | _ => none

/-- The members of a record with the fields `keys`: those of an object, or the items of an array,
each for the field in its place. -/
def fields? (keys : List String) : Json → Option (List (String × Json))
  | arr items => if items.length ≤ keys.length then some (keys.zip items) else none
  | v => v.members?

@[simp] theorem fields?_obj (keys : List String) (members : List (String × Json)) :
    (obj members).fields? keys = some members := rfl

/-- The value of a member; nothing is found if the key occurs twice, and `some none` if it does
not occur. -/
def member? (key : String) (members : List (String × Json)) : Option (Option Json) :=
  match members.filter (·.1 == key) with
  | [] => some none
  | [m] => some (some m.2)
  | _ => none

/-- The decoded value of a member that has to be there. -/
def required {α : Type} (key : String) (decode : Json → Option α)
    (members : List (String × Json)) : Option α :=
  match member? key members with
  | some (some v) => decode v
  | _ => none

/-- The decoded value of a member, or a default if it is missing. -/
def optional {α : Type} (key : String) (decode : Json → Option α) (default : α)
    (members : List (String × Json)) : Option α :=
  match member? key members with
  | some (some v) => decode v
  | some none => some default
  | none => none

/-! ## Stored values

A member may have to be stored before it is known what it is for. Storing asks more of a value
than passing over it: each string must name a text, each number must be within the range of
doubles, and nesting is limited.
-/

/-- The levels of nesting that stored values may reach. -/
def nestingLimit : Nat := 127

/-- The least number that rounds to an infinite double. -/
def doubleLimit : Nat := Nat.pow 2 1024 - Nat.pow 2 970

/-- Whether `mantissa` times ten to the power `exponent` is within the range of doubles. -/
def fitsDouble (mantissa exponent : Int) : Bool :=
  let m := mantissa.natAbs
  if m = 0 then true
  else if 0 ≤ exponent then
    decide (exponent ≤ 308 ∧ m * Nat.pow 10 exponent.toNat < doubleLimit)
  else decide (m < doubleLimit * Nat.pow 10 (min exponent.natAbs (Nat.toDigits 10 m).length))

mutual

/-- Whether a value can be stored where `room` more levels of nesting are allowed. -/
def isStorable (room : Nat) : Json → Bool
  | null | bool _ | str _ => true
  | int n => fitsDouble n 0
  | decimal mantissa exponent => fitsDouble mantissa exponent
  | arr items => decide (0 < room) && areItemsStorable (room - 1) items
  | obj members => decide (0 < room) && areMembersStorable (room - 1) members
  | unpaired => false

def areItemsStorable (room : Nat) : List Json → Bool
  | [] => true
  | v :: rest => isStorable room v && areItemsStorable room rest

def areMembersStorable (room : Nat) : List (String × Json) → Bool
  | [] => true
  | (_, v) :: rest => isStorable room v && areMembersStorable room rest

end

end StackSeq.Json
