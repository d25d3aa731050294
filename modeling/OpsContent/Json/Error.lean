import OpsContent.Json.Value
import OpsContent.Text.Quoted

/-!
# What can be wrong with a JSON text

Either the text is not JSON, or it holds a value of another type than the one that is read
from it. Each cause has one wording, given by `JsonError.message`.
-/

namespace OpsContent

/-- A value of another type than the required one. -/
inductive Unexpected where
  | null
  | boolean (value : Bool)
  | number (value : Number)
  | string (value : String)
  | sequence
  | map
  deriving DecidableEq

/-- Causes for which a JSON text is refused. -/
inductive JsonError where
  | endInValue
  | endInList
  | endInObject
  | endInString
  | expectedColon
  | expectedListCommaOrEnd
  | expectedObjectCommaOrEnd
  | expectedIdent
  | expectedValue
  | trailingComma
  | trailingCharacters
  | keyMustBeString
  | invalidNumber
  | numberOutOfRange
  | invalidEscape
  | controlCharacter
  | unexpectedEndOfHexEscape
  | loneSurrogate
  | tooDeep
  | invalidType (found : Unexpected) (expected : String)
  | invalidValue (found : Unexpected) (expected : String)
  | invalidLength (length : Nat) (expected : String)
  | unknownField (name : String) (allowed : List String)
  | duplicateField (name : String)
  | unknownVariant (name : String) (allowed : List String)
  deriving DecidableEq

def JsonError.inString : JsonError → Bool
  | .endInString | .invalidEscape | .controlCharacter | .unexpectedEndOfHexEscape
  | .loneSurrogate => true
  | _ => false

def Number.text : Number → String
  | .integer value => toString value
  | .double value => value.text Double.dataFormat

/-- How an unexpected value is named in a message. -/
def Unexpected.describe : Unexpected → String
  | .null => "null"
  | .boolean value => "boolean `" ++ (if value then "true" else "false") ++ "`"
  | .number (.integer value) => "integer `" ++ (Number.integer value).text ++ "`"
  | .number (.double value) => "floating point `" ++ (Number.double value).text ++ "`"
  | .string value => "string " ++ Text.quoted value
  | .sequence => "sequence"
  | .map => "map"

/-- Names in backquotes: one alone, two with "or" between them, more as a list. -/
def oneOf : List String → String
  | [] => "there are no fields"
  | [name] => "expected `" ++ name ++ "`"
  | [first, second] => "expected `" ++ first ++ "` or `" ++ second ++ "`"
  | names => "expected one of " ++ backquoted names
where
  /-- Names in backquotes with commas between them. -/
  backquoted (names : List String) : String :=
    String.intercalate ", " (names.map fun name => "`" ++ name ++ "`")

/-- The words for a JSON error. -/
def JsonError.message : JsonError → String
  | .endInValue => "EOF while parsing a value"
  | .endInList => "EOF while parsing a list"
  | .endInObject => "EOF while parsing an object"
  | .endInString => "EOF while parsing a string"
  | .expectedColon => "expected `:`"
  | .expectedListCommaOrEnd => "expected `,` or `]`"
  | .expectedObjectCommaOrEnd => "expected `,` or `\x7d`"
  | .expectedIdent => "expected ident"
  | .expectedValue => "expected value"
  | .trailingComma => "trailing comma"
  | .trailingCharacters => "trailing characters"
  | .keyMustBeString => "key must be a string"
  | .invalidNumber => "invalid number"
  | .numberOutOfRange => "number out of range"
  | .invalidEscape => "invalid escape"
  | .controlCharacter => "control character (\\u0000-\\u001F) found while parsing a string"
  | .unexpectedEndOfHexEscape => "unexpected end of hex escape"
  | .loneSurrogate => "lone leading surrogate in hex escape"
  | .tooDeep => "recursion limit exceeded"
  | .invalidType found expected =>
    "invalid type: " ++ found.describe ++ ", expected " ++ expected
  | .invalidValue found expected =>
    "invalid value: " ++ found.describe ++ ", expected " ++ expected
  | .invalidLength length expected =>
    "invalid length " ++ toString length ++ ", expected " ++ expected
  | .unknownField name allowed => "unknown field `" ++ name ++ "`, " ++ oneOf allowed
  | .duplicateField name => "duplicate field `" ++ name ++ "`"
  | .unknownVariant name allowed => "unknown variant `" ++ name ++ "`, " ++ oneOf allowed

end OpsContent
