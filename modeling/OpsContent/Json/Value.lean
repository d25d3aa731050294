import OpsContent.Decimal.Double
import OpsContent.Table

/-!
# JSON values

A value holds whole numbers exactly as long as they fit a 64-bit word, signed or not, and
every other number as a double. The fields of an object are a table, so they are sorted by
key and a key occurs once.
-/

namespace OpsContent

/-- A number as it is written: whole, or in double precision. -/
inductive Number where
  | integer (value : Int)
  | double (value : Double)
  deriving DecidableEq

/-- A JSON value. -/
inductive Json where
  | null
  | bool (value : Bool)
  | number (value : Number)
  | string (value : String)
  | array (items : List Json)
  | object (fields : List (String × Json))

instance : Inhabited Json := ⟨.null⟩

namespace Json

/-- The value of a field, if this is an object. -/
def field? (key : String) : Json → Option Json
  | .object fields => Table.find? fields key
  | _ => none

def text? : Json → Option String
  | .string value => some value
  | _ => none

def textField? (key : String) (value : Json) : Option String :=
  (value.field? key).bind text?

/-- The items, if this is a list. -/
def items? : Json → Option (List Json)
  | .array items => some items
  | _ => none

def isObject : Json → Bool
  | .object _ => true
  | _ => false

/-- An object of these fields. -/
def ofFields (fields : List (String × Json)) : Json :=
  .object (Table.ofList fields)

def ofNat (value : Nat) : Json :=
  .number (.integer value)

def ofText? : Option String → Json
  | some text => .string text
  | none => .null

def ofTexts (texts : List String) : Json :=
  .array (texts.map .string)

def ofTextTable (table : Table String) : Json :=
  .object (table.mapValues .string)

mutual

/-- Equality of values, field by field. -/
def same : Json → Json → Bool
  | .null, .null => true
  | .bool left, .bool right => left == right
  | .number left, .number right => left == right
  | .string left, .string right => left == right
  | .array left, .array right => sameItems left right
  | .object left, .object right => sameFields left right
  | _, _ => false

def sameItems : List Json → List Json → Bool
  | [], [] => true
  | left :: lefts, right :: rights => same left right && sameItems lefts rights
  | _, _ => false

def sameFields : List (String × Json) → List (String × Json) → Bool
  | [], [] => true
  | (leftKey, left) :: lefts, (rightKey, right) :: rights =>
    leftKey == rightKey && same left right && sameFields lefts rights
  | _, _ => false

end

instance : BEq Json := ⟨same⟩

end Json

end OpsContent
