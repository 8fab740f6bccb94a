/-
Module: DocStore.Json.Basic
Purpose: JSON values, with integers and floating-point numbers kept apart.
Main exports:
  Number, Json, Json.field, Json.same, Json.normalize, Json.object, Json.size
-/
import DocStore.Dict
import DocStore.Decimal.Double
import DocStore.Text.Numeral

namespace DocStore

/-- A JSON number.  `5` and `5.0` are different numbers. -/
inductive Number where
  | integer (value : Int)
  | real (value : Double)
deriving DecidableEq, Repr, Inhabited

namespace Number

/-- The nearest double. -/
def toDouble : Number → Double
  | integer value => .ofInt value
  | real value => value

/-- Equality of numbers: integers with integers, doubles with doubles, the two
zeros being equal. -/
def same : Number → Number → Bool
  | integer a, integer b => a == b
  | real a, real b => a.units == b.units
  | _, _ => false

/-- Order of two numbers by their nearest doubles. -/
def order (a b : Number) : Ordering :=
  compare a.toDouble.units b.toDouble.units

end Number

/-- A JSON value. -/
inductive Json where
  | null
  | bool (value : Bool)
  | num (value : Number)
  | str (value : String)
  | arr (items : List Json)
  | obj (members : Dict Json)
deriving Inhabited

namespace Json

/-- An object from a list of members, a later member winning over an earlier one
of the same name. -/
def object (members : List (String × Json)) : Json :=
  .obj (.ofList members)

/-- An integer. -/
def int (value : Int) : Json :=
  .num (.integer value)

/-- A text or null. -/
def ofText? : Option String → Json
  | none => .null
  | some text => .str text

/-- A list of texts. -/
def texts (items : List String) : Json :=
  .arr (items.map .str)

/-- The member of an object, if it is an object with such a member. -/
def get? (key : String) : Json → Option Json
  | .obj members => members.get? key
  | _ => none

/-- The member of an object, or null. -/
def field (key : String) (j : Json) : Json :=
  (j.get? key).getD .null

/-- The item of an array, or null. -/
def item (index : Nat) : Json → Json
  | .arr items => items.getD index .null
  | _ => .null

/-- The text of a text value. -/
def text? : Json → Option String
  | .str value => some value
  | _ => none

/-- The truth value of a Boolean. -/
def bool? : Json → Option Bool
  | .bool value => some value
  | _ => none

/-- The items of an array. -/
def items? : Json → Option (List Json)
  | .arr items => some items
  | _ => none

/-- The members of an object. -/
def members? : Json → Option (Dict Json)
  | .obj members => some members
  | _ => none

/-- The value of an integer in the range of signed words of 64 bits. -/
def signed? : Json → Option Int
  | .num (.integer value) => if value ≤ Text.signedLimit then some value else none
  | _ => none

/-- The value of an integer that is not negative. -/
def natural? : Json → Option Nat
  | .num (.integer value) => if 0 ≤ value then some value.toNat else none
  | _ => none

/-- Whether a value is null. -/
def isNull : Json → Bool
  | .null => true
  | _ => false

/-- Whether a value is a text. -/
def isText (j : Json) : Bool :=
  j.text?.isSome

/-- Whether a value is a number. -/
def isNumber : Json → Bool
  | .num _ => true
  | _ => false

/-- Whether a value is the given text. -/
def isTextOf (text : String) (j : Json) : Bool :=
  j.text? == some text

mutual

/-- Equality of values: numbers as `Number.same` has it, all else part by part. -/
def same : Json → Json → Bool
  | .null, .null => true
  | .bool a, .bool b => a == b
  | .num a, .num b => a.same b
  | .str a, .str b => a == b
  | .arr a, .arr b => sameItems a b
  | .obj ⟨a⟩, .obj ⟨b⟩ => sameMembers a b
  | _, _ => false

/-- Equality of arrays, item by item. -/
def sameItems : List Json → List Json → Bool
  | [], [] => true
  | a :: as, b :: bs => a.same b && sameItems as bs
  | _, _ => false

/-- Equality of objects, member by member. -/
def sameMembers : List (String × Json) → List (String × Json) → Bool
  | [], [] => true
  | (k, a) :: as, (l, b) :: bs => k == l && a.same b && sameMembers as bs
  | _, _ => false

end

instance : BEq Json := ⟨same⟩

mutual

/-- How many values a value consists of. -/
def size : Json → Nat
  | .null => 1
  | .bool _ => 1
  | .num _ => 1
  | .str _ => 1
  | .arr items => sizeItems items + 1
  | .obj ⟨members⟩ => sizeMembers members + 1

/-- The sizes of the items, added up. -/
def sizeItems : List Json → Nat
  | [] => 0
  | item :: items => item.size + sizeItems items

/-- The sizes of the members, added up. -/
def sizeMembers : List (String × Json) → Nat
  | [] => 0
  | (_, value) :: members => value.size + sizeMembers members

end

mutual

/-- The value with the members of every object in ascending order of their
names, the last of several with one name being kept. -/
def normalize : Json → Json
  | .null => .null
  | .bool value => .bool value
  | .num value => .num value
  | .str value => .str value
  | .arr items => .arr (normalizeItems items)
  | .obj ⟨members⟩ => .obj (.ofList (normalizeMembers members))

/-- Every item in its normal form. -/
def normalizeItems : List Json → List Json
  | [] => []
  | item :: items => item.normalize :: normalizeItems items

/-- Every member's value in its normal form. -/
def normalizeMembers : List (String × Json) → List (String × Json)
  | [] => []
  | (key, value) :: members => (key, value.normalize) :: normalizeMembers members

end

/-- The place of a value's kind in the order of all values: null, Booleans,
numbers, texts, arrays, objects. -/
def rank : Json → Nat
  | .null => 0
  | .bool _ => 1
  | .num _ => 2
  | .str _ => 3
  | .arr _ => 4
  | .obj _ => 5

/-- The order in which query results are sorted.  Arrays are not told apart from
each other, nor are objects. -/
def order : Json → Json → Ordering
  | .num a, .num b => a.order b
  | .str a, .str b => compareOfLessAndEq a b
  | .bool a, .bool b => compare a.toNat b.toNat
  | a, b => compare a.rank b.rank

theorem size_pos (j : Json) : 0 < j.size := by
  cases j with
  | obj members => cases members; simp [size]
  | _ => simp [size]

theorem size_lt_of_mem {j : Json} {items : List Json} (h : j ∈ items) :
    j.size ≤ sizeItems items := by
  induction items with
  | nil => cases h
  | cons item items ih =>
      rw [sizeItems]
      cases h with
      | head => omega
      | tail _ h => have := ih h; omega

theorem size_le_of_mem_members {key : String} {j : Json} {members : List (String × Json)}
    (h : (key, j) ∈ members) : j.size ≤ sizeMembers members := by
  induction members with
  | nil => cases h
  | cons member members ih =>
      obtain ⟨k, v⟩ := member
      rw [sizeMembers]
      cases h with
      | head => omega
      | tail _ h => have := ih h; omega

end Json

end DocStore
