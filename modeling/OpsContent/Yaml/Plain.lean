import OpsContent.Decimal.Reading
import OpsContent.Yaml.Event

/-!
# What a plain text looks like

A plain text may look like nothing, a truth value, a whole number or a decimal. This library
takes every text as it is; what it looks like shows only in messages about a text that stands
where something else was expected.
-/

namespace OpsContent.Yaml

/-- Does the plain text mean nothing? -/
def isNull (text : String) : Bool :=
  ["null", "Null", "NULL", "~"].contains text

/-- The truth value that a plain text means. -/
def truthValue? (text : String) : Option Bool :=
  if ["true", "True", "TRUE"].contains text then some true
  else if ["false", "False", "FALSE"].contains text then some false
  else none

/-- Digits with a zero in front are no number. -/
def isPadded (chars : List Char) : Bool :=
  let digits := match chars with
    | '-' :: rest => rest
    | '+' :: rest => rest
    | _ => chars
  match digits with
  | '0' :: first :: rest => (first :: rest).all Char.isDigit
  | _ => false

/-- The number of digits in a base. -/
def numberIn? (base : Nat) (chars : List Char) : Option Nat :=
  if chars.isEmpty then none
  else chars.foldlM (fun value char => do
    let digit ← JsonToken.hexValue? char
    if digit < base then some (value * base + digit) else none) 0

/-- The size of a whole number in base two, eight, ten or sixteen. -/
def magnitude? (padded : Bool) : List Char → Option Nat
  | '0' :: 'x' :: rest => numberIn? 16 rest
  | '0' :: 'o' :: rest => numberIn? 8 rest
  | '0' :: 'b' :: rest => numberIn? 2 rest
  | chars => if padded then none else numberIn? 10 chars

def largestPositive : Nat := 0xFFFFFFFFFFFFFFFFFFFFFFFFFFFFFFFF

def largestNegative : Nat := 0x80000000000000000000000000000000

/-- The whole number that a text looks like. -/
def wholeNumber? (chars : List Char) : Option Int :=
  let padded := isPadded chars
  match chars with
  | '-' :: rest =>
    (magnitude? padded rest).bind fun size =>
      if size ≤ largestNegative then some (-(size : Int)) else none
  | _ =>
    let digits := match chars with
      | '+' :: rest => rest
      | _ => chars
    (magnitude? padded digits).bind fun size =>
      if size ≤ largestPositive then some (size : Int) else none

/-- The decimal that a text looks like. -/
def decimal? (text : String) : Option String :=
  let unsigned := match text.toList with
    | '+' :: rest => if rest.head? == some '-' || rest.head? == some '+' then none else some rest
    | chars => some chars
  if unsigned.any fun chars => [".inf", ".Inf", ".INF"].contains (String.ofList chars) then
    some "inf"
  else if ["-.inf", "-.Inf", "-.INF"].contains text then some "-inf"
  else if [".nan", ".NaN", ".NAN"].contains text then some "NaN"
  else (unsigned.bind Double.ofDecimal?).map fun value => value.text Double.plainFormat

/-- A whole number in words; one that needs more than a word of 64 bits says so. -/
def describeWhole (value : Int) : String :=
  let digits := "integer `" ++ toString value ++ "`"
  if 0xFFFFFFFFFFFFFFFF < value then digits ++ " as u128"
  else if value < -0x8000000000000000 then digits ++ " as i128"
  else digits

def describeTruth (value : Bool) : String :=
  "boolean `" ++ (if value then "true" else "false") ++ "`"

/-- What a plain text looks like, in words. -/
def describePlain (text : String) : String :=
  if text = "" ∨ isNull text then "unit value"
  else match truthValue? text with
    | some value => describeTruth value
    | none =>
      match wholeNumber? text.toList with
      | some value => describeWhole value
      | none =>
        match if isPadded text.toList then none else decimal? text with
        | some decimal => "floating point `" ++ decimal ++ "`"
        | none => "string " ++ Text.quoted text

def commonTag (name : String) : String :=
  "tag:yaml.org,2002:" ++ name

/-- What a text of a type looks like, in words; a text that its tag belies gives what was
expected of it. -/
def describeScalar (text : String) (plain : Bool) (tag : Option String) : Except String String :=
  match tag with
  | none => .ok (if plain then describePlain text else "string " ++ Text.quoted text)
  | some tag =>
    if tag = commonTag "bool" then
      match truthValue? text with
      | some value => .ok (describeTruth value)
      | none => .error "a boolean"
    else if tag = commonTag "int" then
      match wholeNumber? text.toList with
      | some value => .ok (describeWhole value)
      | none => .error "an integer"
    else if tag = commonTag "float" then
      match decimal? text with
      | some decimal => .ok ("floating point `" ++ decimal ++ "`")
      | none => .error "a float"
    else if tag = commonTag "null" then
      if isNull text then .ok "unit value" else .error "null"
    else if plain && tag.startsWith "!" then .ok (describePlain text)
    else .ok ("string " ++ Text.quoted text)

end OpsContent.Yaml
