import OpsContent.Json.Draft

/-!
# Reading typed values from JSON

Readers of drafts for the types that files of this library hold: texts, numbers of a given
width, truth values, lists, tables and records. A record may also be given as a list of its
fields in order. The first cause met in the order of the text is reported.
-/

namespace OpsContent.JsonDraft

/-- A way to read a draft as a typed value. -/
abbrev Reader (α : Type) := JsonDraft → Except JsonError α

/-- How a draft is named where another type was required. -/
def unexpected : JsonDraft → Except JsonError Unexpected
  | .null => .ok .null
  | .bool value => .ok (.boolean value)
  | .number value => .ok (.number value)
  | .string value => .ok (.string value)
  | .array .. => .ok .sequence
  | .object .. => .ok .map
  | .broken cause => .error cause

/-- The error for a draft of another type. -/
def mismatch (expected : String) (draft : JsonDraft) : Except JsonError α := do
  throw (.invalidType (← draft.unexpected) expected)

def readString (expected : String) : Reader String
  | .string value => .ok value
  | draft => draft.mismatch expected

def readBool : Reader Bool
  | .bool value => .ok value
  | draft => draft.mismatch "a boolean"

/-- A whole number from zero up to a largest one. -/
def readNat (largest : Nat) (expected : String) : Reader Nat
  | .number (.integer value) =>
    if 0 ≤ value ∧ value ≤ largest then .ok value.toNat
    else .error (.invalidValue (.number (.integer value)) expected)
  | draft => draft.mismatch expected

def readOption (reader : Reader α) : Reader (Option α)
  | .null => .ok none
  | draft => some <$> reader draft

/-- The items of a list, each read in turn. -/
def readEach (reader : Reader α) : List JsonDraft → Except JsonError (List α)
  | [] => .ok []
  | item :: rest => do
      let value ← reader item
      let values ← readEach reader rest
      pure (value :: values)

/-- Read a list. -/
def readList (reader : Reader α) : Reader (List α)
  | .array items stop => do
      let values ← readEach reader items
      match stop with
      | none => pure values
      | some cause => throw cause
  | draft => draft.mismatch "a sequence"

/-- The entries of a table, each read in turn; a later entry of the same key wins. -/
def readEntries (reader : Reader α) (table : Table α) :
    List (String × JsonDraft) → Except JsonError (Table α)
  | [] => .ok table
  | (key, field) :: rest => do
      let value ← reader field
      readEntries reader (table.insert key value) rest

/-- Read an object as a table. -/
def readTable (reader : Reader α) : Reader (Table α)
  | .object fields stop => do
      let table ← readEntries reader [] fields
      match stop with
      | none => pure table
      | some cause => throw cause
  | draft => draft.mismatch "a map"

/-- A record under construction: how a field of a given name is read into it. -/
structure Record (α : Type) where
  /-- How the record is named in messages. -/
  name : String
  /-- The record of which no field was given. -/
  default : α
  /-- Field names in order, each with its reader. -/
  fields : List (String × (JsonDraft → α → Except JsonError α))
  /-- Refuse a name that is no field, or pass over it. -/
  strict : Bool

namespace Record

/-- Read the named fields of a record in the order of the text. -/
def readFields (record : Record α) (seen : List String) (value : α) :
    List (String × JsonDraft) → Except JsonError α
  | [] => .ok value
  | (key, draft) :: rest =>
    match record.fields.find? (·.1 == key) with
    | none =>
      if record.strict then .error (.unknownField key (record.fields.map Prod.fst))
      else do
        let _ ← draft.toJson
        readFields record seen value rest
    | some (_, reader) =>
      if seen.contains key then .error (.duplicateField key)
      else do
        let value ← reader draft value
        readFields record (key :: seen) value rest

/-- Read the fields of a record given in order. Fields at the end may be left out. -/
def readOrdered (value : α) :
    List (String × (JsonDraft → α → Except JsonError α)) → List JsonDraft →
      Except JsonError (α × List JsonDraft)
  | _, [] => .ok (value, [])
  | [], rest => .ok (value, rest)
  | (_, reader) :: fields, item :: items => do
      let value ← reader item value
      readOrdered value fields items

/-- What is wrong behind the last field of a record given in order. -/
def surplus (extra : List JsonDraft) (complete : Bool) (stop : Option JsonError) :
    Option JsonError :=
  if !extra.isEmpty then some .trailingCharacters
  else match stop with
    | none => none
    | some .endInList => some .endInList
    | some .trailingComma => some .trailingComma
    | some cause => some (if complete then .trailingCharacters else cause)

/-- Read a record from an object or from a list. -/
def read (record : Record α) : Reader α
  | .object fields stop => do
      let value ← record.readFields [] record.default fields
      match stop with
      | none => pure value
      | some cause => throw cause
  | .array items stop => do
      let (value, extra) ← readOrdered record.default record.fields items
      match surplus extra (record.fields.length ≤ items.length) stop with
      | none => pure value
      | some cause => throw cause
  | draft => draft.mismatch ("struct " ++ record.name)

end Record

end OpsContent.JsonDraft
