import OpsContent.Disk.Operation
import OpsContent.Failure
import OpsContent.Yaml.Plain

/-!
# Package descriptors

A descriptor lists for each kind of asset the names and patterns that are wanted from a server.
A kind that is absent is not exported. Every item is taken by its text, whatever it looks like,
and keys that name no kind are passed over.
-/

namespace OpsContent

/-- The patterns that are asked for, by kind; a kind may be left out. -/
@[ext]
structure Descriptor where
  patterns : AssetKind → Option (List String) := fun _ => none

/-- Why a text is no descriptor. -/
inductive DescriptorError where
  | malformed (cause : YamlError)
  | invalidType (path found expected : String)
  | invalidValue (path found expected : String)
  | duplicateField (name : String)
  deriving DecidableEq

def DescriptorError.message : DescriptorError → String
  | .malformed cause => cause.message
  | .invalidType path found expected =>
    at_ path ++ "invalid type: " ++ found ++ ", expected " ++ expected
  | .invalidValue path found expected =>
    at_ path ++ "invalid value: string " ++ Text.quoted found ++ ", expected " ++ expected
  | .duplicateField name => "duplicate field `" ++ name ++ "`"
where
  /-- The place in front of a cause, unless it is the whole document. -/
  at_ (path : String) : String :=
    if path = "" then "" else path ++ ": "

namespace Descriptor

open Yaml

/-- Ask for other patterns of a kind. -/
def set (descriptor : Descriptor) (kind : AssetKind) (patterns : List String) : Descriptor where
  patterns := fun other => if other = kind then some patterns else descriptor.patterns other

@[simp] theorem patterns_set (descriptor : Descriptor) (kind other : AssetKind)
    (patterns : List String) :
    (descriptor.set kind patterns).patterns other =
      if other = kind then some patterns else descriptor.patterns other := rfl

/-- The error for a node of another type. -/
def refuse (path expected : String) : Event → DescriptorError
  | .scalar text plain tag =>
    match describeScalar text plain tag with
    | .ok found => .invalidType path found expected
    | .error wanted => .invalidValue path text wanted
  | .mappingStart => .invalidType path "map" expected
  | _ => .invalidType path "sequence" expected

/-- The text of a pattern. -/
def itemText (document : Document) (path : String) : Event → Except DescriptorError String
  | .scalar text _ _ => .ok text
  | .alias place =>
    match document.events.drop place with
    | .scalar text _ _ :: _ => .ok text
    | event :: _ => .error (refuse path "a string" event)
    | [] => .error (refuse path "a string" .sequenceStart)
  | event => .error (refuse path "a string" event)

/-- The error for a document that ends early. -/
def truncated (document : Document) : DescriptorError :=
  .malformed (document.stop.getD .nodeContent)

/-- The items of a sequence from the given number on, and the events behind it. -/
def items (document : Document) (path : String) :
    Nat → List Event → Except DescriptorError (List String × List Event)
  | _, [] => .error (truncated document)
  | _, .sequenceEnd :: rest => .ok ([], rest)
  | index, event :: rest => do
      let text ← itemText document (path ++ "[" ++ toString index ++ "]") event
      let (texts, rest) ← items document path (index + 1) rest
      pure (text :: texts, rest)

/-- Is the value of a key absent? -/
def isAbsent (path : String) : Event → Except DescriptorError Bool
  | .scalar text true (some tag) =>
    if tag = commonTag "null" then
      if isNull text then .ok true else .error (.invalidValue path text "null")
    else .ok false
  | .scalar text true none => .ok (text = "" || isNull text)
  | _ => .ok false

/-- The patterns of a key that is no alias, and the events behind them. -/
def plainValue (document : Document) (path : String) :
    List Event → Except DescriptorError (Option (List String) × List Event)
  | [] => .error (truncated document)
  | event :: rest => do
      if ← isAbsent path event then pure (none, rest)
      else match event with
        | .sequenceStart => do
            let (texts, rest) ← items document path 0 rest
            pure (some texts, rest)
        | .scalar "" true _ => pure (some [], rest)
        | event => throw (refuse path "a sequence" event)

/-- The patterns of a key, and the events behind them. -/
def value (document : Document) (path : String) (events : List Event) :
    Except DescriptorError (Option (List String) × List Event) :=
  match events with
  | .alias place :: rest => do
      let (patterns, _) ← plainValue document path (document.events.drop place)
      pure (patterns, rest)
  | events => plainValue document path events

/-- The events behind a value inside some open collections. -/
def skip : Nat → List Event → Option (List Event)
  | _, [] => none
  | depth, event :: rest =>
    match event with
    | .sequenceStart | .mappingStart => skip (depth + 1) rest
    | .sequenceEnd | .mappingEnd => if depth ≤ 1 then some rest else skip (depth - 1) rest
    | _ => if depth = 0 then some rest else skip depth rest

/-- The name of a key, and the path to its value. -/
def keyName (document : Document) : Event → Except DescriptorError (String × String)
  | .scalar text _ _ => .ok (text, text)
  | .alias place =>
    match document.events.drop place with
    | .scalar text _ _ :: _ => .ok (text, "?")
    | event :: _ => .error (refuse "" "field identifier" event)
    | [] => .error (refuse "" "field identifier" .sequenceStart)
  | event => .error (refuse "" "field identifier" event)

/-- The entries of the document's mapping. -/
def entries (document : Document) :
    Nat → List AssetKind → Descriptor → List Event → Except DescriptorError Descriptor
  | 0, _, _, _ => .error (truncated document)
  | _ + 1, _, _, [] => .error (truncated document)
  | _ + 1, _, descriptor, .mappingEnd :: _ => .ok descriptor
  | fuel + 1, seen, descriptor, event :: rest => do
      let (name, path) ← keyName document event
      match AssetKind.all.find? (·.key == name) with
      | some kind =>
        if seen.contains kind then throw (.duplicateField name)
        let (patterns, rest) ← value document path rest
        let descriptor := match patterns with
          | some patterns => descriptor.set kind patterns
          | none => descriptor
        entries document fuel (kind :: seen) descriptor rest
      | none =>
        match skip 0 rest with
        | some rest => entries document fuel seen descriptor rest
        | none => throw (truncated document)

/-- Read a descriptor from its events. -/
def ofDocument (document : Document) : Except DescriptorError Descriptor := do
  let descriptor ← match document.events with
    | [] => pure {}
    | .scalar "" true _ :: _ => pure {}
    | .mappingStart :: rest => entries document (rest.length + 1) [] {} rest
    | event :: _ => throw (refuse "" "struct PackageDescriptor" event)
  match document.stop with
  | none => pure descriptor
  | some cause => throw (.malformed cause)

/-- The descriptor of a text. A blank text asks for nothing. -/
def ofText (text : String) : Except SyncError Descriptor :=
  if Text.isAbsent text then .ok {}
  else match ofDocument (Document.ofText text) with
    | .ok descriptor => .ok descriptor
    | .error cause => .error (.configuration ("Invalid package descriptor: " ++ cause.message))

/-- Read a descriptor from its file. -/
def ofFile (disk : Disk) (path : Path) : Except SyncError Descriptor :=
  match disk.readText path with
  | .error cause => .error (.configuration
      ("Cannot read package descriptor " ++ path.text ++ ": " ++ cause.message))
  | .ok text =>
    match ofText text with
    | .error (.configuration message) => .error (.configuration (path.text ++ ": " ++ message))
    | outcome => outcome

open JsonDraft in
/-- How a descriptor is written in JSON. -/
def record : Record Descriptor where
  name := "PackageDescriptor"
  default := {}
  strict := false
  fields := AssetKind.all.map fun kind =>
    (kind.key, fun draft descriptor => do
      match ← readOption (readList (readString "a string")) draft with
      | some patterns => pure (descriptor.set kind patterns)
      | none => pure descriptor)

end Descriptor

end OpsContent
