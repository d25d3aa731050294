import OpsContent.Json.Token
import OpsContent.Xml.Event

/-!
# Attributes of a tag

Attributes are read from left to right up to the wanted one. A value stands between quotes,
and references in it stand for characters.
-/

namespace OpsContent.Xml

/-- An attribute with its value as it is written. -/
structure Attribute where
  name : List Char
  value : List Char

/-- The value of an attribute after its name and `=`, and what stands behind it. -/
def readValue (name chars : List Char) : Except Malformed (Attribute × List Char) :=
  match chars.dropWhile isSpace with
  | [] => .error .attribute
  | mark :: rest =>
    if mark = '"' ∨ mark = '\x27' then
      match rest.dropWhile (· != mark) with
      | [] => .error .attribute
      | _ :: after => .ok (⟨name, rest.takeWhile (· != mark)⟩, after)
    else .error .attribute

/-- The next attribute of a tag, and what is behind it. -/
def nextAttribute (chars : List Char) : Except Malformed (Option (Attribute × List Char)) :=
  match chars.dropWhile isSpace with
  | [] => .ok none
  | first :: rest =>
    let more := rest.takeWhile fun char => char != '=' && !isSpace char
    match rest.dropWhile fun char => char != '=' && !isSpace char with
    | [] => .error .attribute
    | '=' :: after => some <$> readValue (first :: more) after
    | _ :: after =>
      match after.dropWhile isSpace with
      | '=' :: after => some <$> readValue (first :: more) after
      | _ => .error .attribute

/-- The value of the first attribute of a name. Attributes behind it are not looked at. -/
def findAttribute (name : List Char) : Nat → List Char → Except Malformed (Option (List Char))
  | 0, _ => .ok none
  | fuel + 1, chars =>
    match nextAttribute chars with
    | .error cause => .error cause
    | .ok none => .ok none
    | .ok (some (found, rest)) =>
      if found.name = name then .ok (some found.value)
      else findAttribute name fuel rest

/-- The number of digits in a base, unless a character is no digit. -/
def digits? (base : Nat) (chars : List Char) : Option Nat :=
  if chars.isEmpty then none
  else chars.foldlM (fun value char =>
    match JsonToken.hexValue? char with
    | some digit => if digit < base then some (value * base + digit) else none
    | none => none) 0

/-- The character that a reference stands for, by what is between `&` and `;`. -/
def reference? (chars : List Char) : Option Char :=
  match chars with
  | '#' :: 'x' :: digits => digits? 16 digits >>= valid
  | '#' :: digits => digits? 10 digits >>= valid
  | _ =>
    if chars = "lt".toList then some '<'
    else if chars = "gt".toList then some '>'
    else if chars = "amp".toList then some '&'
    else if chars = "apos".toList then some '\x27'
    else if chars = "quot".toList then some '"'
    else none
where
  /-- Every number of a character but zero. -/
  valid (code : Nat) : Option Char :=
    if code ≠ 0 ∧ code.isValidChar then some (Char.ofNat code) else none

/-- The characters of a value with its references resolved. -/
def unescape : Nat → List Char → Except Malformed (List Char)
  | 0, _ => .ok []
  | _ + 1, [] => .ok []
  | fuel + 1, '&' :: rest =>
    let isMark (char : Char) := char == '&' || char == ';'
    match rest.dropWhile (!isMark ·) with
    | ';' :: after =>
      match reference? (rest.takeWhile (!isMark ·)) with
      | some char => (char :: ·) <$> unescape fuel after
      | none => .error .entity
    | _ => .error .entity
  | fuel + 1, char :: rest => (char :: ·) <$> unescape fuel rest

/-- The resolved value of an attribute of a tag. -/
def attributeValue (name rest : List Char) : Except Malformed (Option (List Char)) :=
  match findAttribute name (rest.length + 1) rest with
  | .error cause => .error cause
  | .ok none => .ok none
  | .ok (some value) => some <$> unescape (value.length + 1) value

end OpsContent.Xml
