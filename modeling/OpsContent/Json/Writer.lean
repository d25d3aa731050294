import OpsContent.Json.Error

/-!
# Writing JSON

A value is written either without any space, or with one item or field to a line and two
spaces for each level. Characters outside ASCII are written as they are.
-/

namespace OpsContent.Json

/-- A character of a string between its quotes. -/
def escapedChar (char : Char) : List Char :=
  if char = '"' then ['\\', '"']
  else if char = '\\' then ['\\', '\\']
  else if char = '\n' then ['\\', 'n']
  else if char = '\r' then ['\\', 'r']
  else if char = '\t' then ['\\', 't']
  else if char.toNat = 8 then ['\\', 'b']
  else if char.toNat = 12 then ['\\', 'f']
  else if char.toNat < 16 then ['\\', 'u', '0', '0', '0'] ++ Text.hexDigits char.toNat
  else if char.toNat < 32 then ['\\', 'u', '0', '0'] ++ Text.hexDigits char.toNat
  else [char]

/-- A text in quotes. -/
def writeString (text : String) : List Char :=
  '"' :: text.toList.flatMap escapedChar ++ ['"']

def writeNumber : Number → List Char
  | .integer value => (Number.integer value).text.toList
  | .double value => if value.isFinite then (Number.double value).text.toList else "null".toList

mutual

/-- A value without space. -/
def compactChars : Json → List Char
  | .null => "null".toList
  | .bool value => if value then "true".toList else "false".toList
  | .number value => writeNumber value
  | .string value => writeString value
  | .array items => '[' :: compactItems items ++ [']']
  | .object fields => '\x7b' :: compactFields fields ++ ['\x7d']

def compactItems : List Json → List Char
  | [] => []
  | [item] => compactChars item
  | item :: rest => compactChars item ++ ',' :: compactItems rest

/-- Fields with commas between them. -/
def compactFields : List (String × Json) → List Char
  | [] => []
  | [(key, value)] => writeString key ++ ':' :: compactChars value
  | (key, value) :: rest => writeString key ++ ':' :: compactChars value ++ ',' :: compactFields rest

end

/-- A new line with its indentation. -/
def lineBreak (level : Nat) : List Char :=
  '\n' :: List.replicate (2 * level) ' '

mutual

/-- A value laid out over lines. -/
def prettyChars (level : Nat) : Json → List Char
  | .null => "null".toList
  | .bool value => if value then "true".toList else "false".toList
  | .number value => writeNumber value
  | .string value => writeString value
  | .array [] => ['[', ']']
  | .array (item :: items) =>
    '[' :: prettyItems (level + 1) (item :: items) ++ lineBreak level ++ [']']
  | .object [] => ['\x7b', '\x7d']
  | .object (field :: fields) =>
    '\x7b' :: prettyFields (level + 1) (field :: fields) ++ lineBreak level ++ ['\x7d']

def prettyItems (level : Nat) : List Json → List Char
  | [] => []
  | [item] => lineBreak level ++ prettyChars level item
  | item :: rest => lineBreak level ++ prettyChars level item ++ ',' :: prettyItems level rest

def prettyFields (level : Nat) : List (String × Json) → List Char
  | [] => []
  | [(key, value)] =>
    lineBreak level ++ writeString key ++ ':' :: ' ' :: prettyChars level value
  | (key, value) :: rest =>
    lineBreak level ++ writeString key ++ ':' :: ' ' :: prettyChars level value ++
      ',' :: prettyFields level rest

end

/-- A value on one line. -/
def compact (value : Json) : String :=
  String.ofList (compactChars value)

/-- A value with a line for each item and field. -/
def pretty (value : Json) : String :=
  String.ofList (prettyChars 0 value)

end OpsContent.Json
