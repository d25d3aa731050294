import OpsContent.Json.Token

/-!
# Drafts of JSON values

A draft is what has been read of a JSON text, with the cause of a syntax error at the place
where reading stopped. A reader that walks a draft from left to right meets an error of type
and an error of syntax in the order in which the text holds them.
-/

namespace OpsContent

/-- A value as far as it could be read. A list or an object ends in the cause that stopped it,
or in none if it was closed. -/
inductive JsonDraft where
  | null
  | bool (value : Bool)
  | number (value : Number)
  | string (value : String)
  | array (items : List JsonDraft) (stop : Option JsonError)
  | object (fields : List (String × JsonDraft)) (stop : Option JsonError)
  | broken (cause : JsonError)

namespace JsonDraft

/-- How deep values may be nested. -/
def depthLimit : Nat := 128

abbrev Run (α : Type) := List α × Option JsonError × List JsonToken

mutual

/-- Read a value; what is wrong with it stays in the draft. -/
def readValue : Nat → Nat → List JsonToken → JsonDraft × List JsonToken
  | 0, _, tokens => (.broken .tooDeep, tokens)
  | fuel + 1, depth, tokens =>
    match tokens with
    | [] => (.broken .endInValue, [])
    | .null :: rest => (.null, rest)
    | .bool value :: rest => (.bool value, rest)
    | .number value :: rest => (.number value, rest)
    | .string value :: rest => (.string value, rest)
    | .malformed cause :: rest => (.broken cause, rest)
    | .openBracket :: rest =>
      if depth ≤ 1 then (.broken .tooDeep, rest)
      else
        let (items, stop, rest) := readItems fuel (depth - 1) true rest
        (.array items stop, rest)
    | .openBrace :: rest =>
      if depth ≤ 1 then (.broken .tooDeep, rest)
      else
        let (fields, stop, rest) := readFields fuel (depth - 1) true rest
        (.object fields stop, rest)
    | _ :: rest => (.broken .expectedValue, rest)

/-- Read the items of a list up to its end; a comma stands before each but the first. -/
def readItems : Nat → Nat → Bool → List JsonToken → Run JsonDraft
  | 0, _, _, tokens => ([], some .tooDeep, tokens)
  | fuel + 1, depth, first, tokens =>
    match first, tokens with
    | _, [] => ([], some .endInList, [])
    | _, .closeBracket :: rest => ([], none, rest)
    | true, tokens => readItem fuel depth tokens
    | false, .comma :: .closeBracket :: rest => ([], some .trailingComma, rest)
    | false, [.comma] => ([], some .endInValue, [])
    | false, .comma :: rest => readItem fuel depth rest
    | false, _ :: rest => ([], some .expectedListCommaOrEnd, rest)

/-- Read one item and those after it. -/
def readItem : Nat → Nat → List JsonToken → Run JsonDraft
  | 0, _, tokens => ([], some .tooDeep, tokens)
  | fuel + 1, depth, tokens =>
    let (item, rest) := readValue fuel depth tokens
    let (items, stop, rest) := readItems fuel depth false rest
    (item :: items, stop, rest)

/-- Read the fields of an object up to its end; a comma stands before each but the first. -/
def readFields : Nat → Nat → Bool → List JsonToken → Run (String × JsonDraft)
  | 0, _, _, tokens => ([], some .tooDeep, tokens)
  | fuel + 1, depth, first, tokens =>
    match first, tokens with
    | _, [] => ([], some .endInObject, [])
    | _, .closeBrace :: rest => ([], none, rest)
    | true, tokens => readField fuel depth tokens
    | false, .comma :: .closeBrace :: rest => ([], some .trailingComma, rest)
    | false, [.comma] => ([], some .endInValue, [])
    | false, .comma :: rest => readField fuel depth rest
    | false, _ :: rest => ([], some .expectedObjectCommaOrEnd, rest)

/-- Read one field and those after it. -/
def readField : Nat → Nat → List JsonToken → Run (String × JsonDraft)
  | 0, _, tokens => ([], some .tooDeep, tokens)
  | fuel + 1, depth, tokens =>
    match tokens with
    | .string key :: .colon :: rest =>
      let (value, rest) := readValue fuel depth rest
      let (fields, stop, rest) := readFields fuel depth false rest
      ((key, value) :: fields, stop, rest)
    | [.string key] => ([(key, .broken .endInObject)], none, [])
    | .string key :: _ :: rest => ([(key, .broken .expectedColon)], none, rest)
    | .malformed cause :: rest =>
      ([], some (if cause.inString then cause else .keyMustBeString), rest)
    | _ :: rest => ([], some .keyMustBeString, rest)
    | [] => ([], some .endInObject, [])

end

mutual

/-- The value of a draft, or the first cause met on the way through it. -/
def toJson : JsonDraft → Except JsonError Json
  | .null => .ok .null
  | .bool value => .ok (.bool value)
  | .number value => .ok (.number value)
  | .string value => .ok (.string value)
  | .array items stop => do
      let values ← itemsToJson items
      match stop with
      | none => pure (.array values)
      | some cause => throw cause
  | .object fields stop => do
      let values ← fieldsToJson fields
      match stop with
      | none => pure (.object (Table.ofList values))
      | some cause => throw cause
  | .broken cause => .error cause

def itemsToJson : List JsonDraft → Except JsonError (List Json)
  | [] => .ok []
  | item :: rest => do
      let value ← toJson item
      let values ← itemsToJson rest
      pure (value :: values)

def fieldsToJson : List (String × JsonDraft) → Except JsonError (List (String × Json))
  | [] => .ok []
  | (key, field) :: rest => do
      let value ← toJson field
      let values ← fieldsToJson rest
      pure ((key, value) :: values)

end

mutual

/-- A value as a draft that was read without error. -/
def ofJson : Json → JsonDraft
  | .null => .null
  | .bool value => .bool value
  | .number value => .number value
  | .string value => .string value
  | .array items => .array (ofItems items) none
  | .object fields => .object (ofFields fields) none

def ofItems : List Json → List JsonDraft
  | [] => []
  | item :: rest => ofJson item :: ofItems rest

def ofFields : List (String × Json) → List (String × JsonDraft)
  | [] => []
  | (key, value) :: rest => (key, ofJson value) :: ofFields rest

end

/-- Read a draft, and the tokens behind it. -/
def ofText (text : String) : JsonDraft × List JsonToken :=
  let tokens := JsonToken.ofText text
  readValue (3 * tokens.length + 3) depthLimit tokens

/-- Read a text with a reader of drafts; nothing may stand behind the value. -/
def readText (reader : JsonDraft → Except JsonError α) (text : String) : Except JsonError α := do
  let (draft, rest) := ofText text
  let value ← reader draft
  if rest.isEmpty then pure value else throw .trailingCharacters

end JsonDraft

/-- Read a JSON text. -/
def Json.parse (text : String) : Except JsonError Json :=
  JsonDraft.readText JsonDraft.toJson text

end OpsContent
