import OpsContent.Yaml.TokenStream

/-!
# Events of a YAML document

The structure of a document as a stream: texts, and the starts and ends of sequences and
mappings. What is left out counts as an empty plain text. Anchors are gone from the stream; an
alias names the place in the stream where its anchor stood.
-/

namespace OpsContent.Yaml

/-- A part of a document in the order of the text. -/
inductive Event where
  | scalar (text : String) (plain : Bool) (tag : Option String)
  | sequenceStart
  | sequenceEnd
  | mappingStart
  | mappingEnd
  | alias (place : Nat)
  deriving DecidableEq

/-- What is expected next. -/
inductive State where
  | documentContent
  | blockNode
  | firstBlockEntry
  | blockEntry
  | plainEntry
  | firstBlockKey
  | blockKey
  | blockValue
  | firstFlowEntry
  | flowEntry
  | pairKey
  | pairValue
  | pairEnd
  | firstFlowKey
  | flowKey
  | flowValue
  | flowEmptyValue

/-- A document while its tokens are read. -/
structure Composer where
  tokens : List Token
  stop : Option YamlError
  /-- What is expected next, and behind it. -/
  states : List State := []
  handles : List (List Char × List Char) := []
  anchors : List (List Char × Nat) := []
  /-- How many events were composed. -/
  count : Nat := 0

namespace Composer

/-- The next token. -/
def peek (composer : Composer) : Except YamlError Token :=
  match composer.tokens with
  | token :: _ => .ok token
  | [] => .error (composer.stop.getD .nodeContent)

def skip (composer : Composer) : Composer :=
  { composer with tokens := composer.tokens.tail }

def push (composer : Composer) (state : State) : Composer :=
  { composer with states := state :: composer.states }

/-- What may stand before a node. -/
structure Properties where
  anchor : Option (List Char) := none
  tag : Option (List Char × List Char) := none

/-- Read anchor and tag in front of a node. -/
def properties (composer : Composer) : Except YamlError (Properties × Composer) := do
  match ← composer.peek with
  | .anchor name =>
    let composer := composer.skip
    match ← composer.peek with
    | .tag handle suffix => pure ({ anchor := name, tag := some (handle, suffix) }, composer.skip)
    | _ => pure ({ anchor := name }, composer)
  | .tag handle suffix =>
    let composer := composer.skip
    match ← composer.peek with
    | .anchor name => pure ({ anchor := name, tag := some (handle, suffix) }, composer.skip)
    | _ => pure ({ tag := some (handle, suffix) }, composer)
  | _ => pure ({}, composer)

/-- The text of a tag with its handle expanded. -/
def expand (composer : Composer) : Option (List Char × List Char) →
    Except YamlError (Option String)
  | none => .ok none
  | some ([], suffix) => .ok (some (String.ofList suffix))
  | some (handle, suffix) =>
    match composer.handles.find? (·.1 == handle) with
    | some (_, expansion) => .ok (some (String.ofList (expansion ++ suffix)))
    | none => .error .undefinedTagHandle

/-- Put out an event and note where its anchor leads. -/
def emit (composer : Composer) (anchor : Option (List Char)) (event : Event) : Event × Composer :=
  let anchors := match anchor with
    | some name => (name, composer.count) :: composer.anchors
    | none => composer.anchors
  (event, { composer with anchors, count := composer.count + 1 })

/-- A node that is not there. -/
def leftOut (composer : Composer) : Event × Composer :=
  composer.emit none (.scalar "" true none)

/-- A node, outside or inside of a block. A sequence of entries in a mapping needs no indentation
of its own. -/
def node (inBlock plainEntries : Bool) (composer : Composer) :
    Except YamlError (Event × Composer) := do
  match ← composer.peek with
  | .alias name =>
    match composer.anchors.find? (·.1 == name) with
    | some (_, place) => pure (composer.skip.emit none (.alias place))
    | none => throw .unknownAnchor
  | _ =>
    let (properties, composer) ← composer.properties
    let tag ← composer.expand properties.tag
    match ← composer.peek with
    | .entry =>
      if plainEntries then
        pure ((composer.push .plainEntry).emit properties.anchor .sequenceStart)
      else withoutContent composer properties tag
    | .scalar text plain =>
      let tag := if tag = some "!" then none else tag
      pure (composer.skip.emit properties.anchor (.scalar (String.ofList text) plain tag))
    | .openSequence =>
      pure ((composer.push .firstFlowEntry).emit properties.anchor .sequenceStart)
    | .openMapping =>
      pure ((composer.push .firstFlowKey).emit properties.anchor .mappingStart)
    | .blockSequence =>
      if inBlock then
        pure ((composer.push .firstBlockEntry).emit properties.anchor .sequenceStart)
      else withoutContent composer properties tag
    | .blockMapping =>
      if inBlock then
        pure ((composer.push .firstBlockKey).emit properties.anchor .mappingStart)
      else withoutContent composer properties tag
    | _ => withoutContent composer properties tag
where
  /-- A node of which only anchor or tag is given. -/
  withoutContent (composer : Composer) (properties : Properties) (tag : Option String) :
      Except YamlError (Event × Composer) :=
    if properties.anchor.isSome || tag.isSome then
      .ok (composer.emit properties.anchor (.scalar "" true tag))
    else .error .nodeContent

/-- The node behind a mark, unless the next token shows that it is left out. -/
def nodeUnless (ends : List Token) (next : State) (inBlock plainEntries : Bool)
    (composer : Composer) : Except YamlError (Event × Composer) := do
  let composer := composer.push next
  if ends.contains (← composer.peek) then pure composer.leftOut
  else composer.node inBlock plainEntries

/-- An item of a block sequence, or its end. -/
def blockEntry (composer : Composer) : Except YamlError (Event × Composer) := do
  match ← composer.peek with
  | .entry => composer.skip.nodeUnless [.entry, .blockEnd] .blockEntry true false
  | .blockEnd => pure (composer.skip.emit none .sequenceEnd)
  | _ => throw .sequenceEntry

/-- A key of a block mapping, or its end. -/
def blockKey (composer : Composer) : Except YamlError (Event × Composer) := do
  match ← composer.peek with
  | .key => composer.skip.nodeUnless [.key, .value, .blockEnd] .blockValue true true
  | .blockEnd => pure (composer.skip.emit none .mappingEnd)
  | _ => throw .mappingKey

/-- The items between brackets behind the first token of an item, or the end. -/
def flowItem (composer : Composer) : Except YamlError (Event × Composer) := do
  match ← composer.peek with
  | .key => pure ((composer.skip.push .pairKey).emit none .mappingStart)
  | .closeSequence => pure (composer.skip.emit none .sequenceEnd)
  | _ => (composer.push .flowEntry).node false false

/-- The keys between braces behind the first token of an entry, or the end. -/
def flowItemKey (composer : Composer) : Except YamlError (Event × Composer) := do
  match ← composer.peek with
  | .key => composer.skip.nodeUnless [.value, .comma, .closeMapping] .flowValue false false
  | .closeMapping => pure (composer.skip.emit none .mappingEnd)
  | _ => (composer.push .flowEmptyValue).node false false

/-- The next event. -/
def step (state : State) (composer : Composer) : Except YamlError (Event × Composer) := do
  match state with
  | .documentContent =>
    match ← composer.peek with
    | .version .. | .tagHandle .. | .documentStart | .documentEnd | .finish =>
      pure composer.leftOut
    | _ => composer.node true false
  | .blockNode => composer.node true false
  | .firstBlockEntry => composer.skip.blockEntry
  | .blockEntry => composer.blockEntry
  | .plainEntry =>
    match ← composer.peek with
    | .entry => composer.skip.nodeUnless [.entry, .key, .value, .blockEnd] .plainEntry true false
    | _ => pure (composer.emit none .sequenceEnd)
  | .firstBlockKey => composer.skip.blockKey
  | .blockKey => composer.blockKey
  | .blockValue =>
    match ← composer.peek with
    | .value => composer.skip.nodeUnless [.key, .value, .blockEnd] .blockKey true true
    | _ => pure (composer.push .blockKey).leftOut
  | .firstFlowEntry => composer.skip.flowItem
  | .flowEntry =>
    match ← composer.peek with
    | .closeSequence => pure (composer.skip.emit none .sequenceEnd)
    | .comma => composer.skip.flowItem
    | _ => throw .flowSequenceEntry
  | .pairKey =>
    let next ← composer.peek
    let composer := composer.push .pairValue
    if [.value, .comma, .closeSequence].contains next then pure composer.skip.leftOut
    else composer.node false false
  | .pairValue =>
    match ← composer.peek with
    | .value => composer.skip.nodeUnless [.comma, .closeSequence] .pairEnd false false
    | _ => pure (composer.push .pairEnd).leftOut
  | .pairEnd => pure ((composer.push .flowEntry).emit none .mappingEnd)
  | .firstFlowKey => composer.skip.flowItemKey
  | .flowKey =>
    match ← composer.peek with
    | .closeMapping => pure (composer.skip.emit none .mappingEnd)
    | .comma => composer.skip.flowItemKey
    | _ => throw .flowMappingEntry
  | .flowValue =>
    match ← composer.peek with
    | .value => composer.skip.nodeUnless [.comma, .closeMapping] .flowKey false false
    | _ => pure (composer.push .flowKey).leftOut
  | .flowEmptyValue => pure (composer.push .flowKey).leftOut

/-- Compose until nothing more is expected. -/
def run : Nat → Composer → List Event × Except YamlError Composer
  | 0, composer => ([], .ok composer)
  | fuel + 1, composer =>
    match composer.states with
    | [] => ([], .ok composer)
    | state :: states =>
      match step state { composer with states } with
      | .error cause => ([], .error cause)
      | .ok (event, composer) =>
        let (events, outcome) := run fuel composer
        (event :: events, outcome)

def commonHandles : List (List Char × List Char) :=
  [(['!'], ['!']), (['!', '!'], "tag:yaml.org,2002:".toList)]

/-- Read the directives in front of a document, and whether there were any. -/
def directives : Nat → Bool → Composer → Except YamlError Composer
  | 0, _, composer => .ok composer
  | fuel + 1, versioned, composer => do
      match ← composer.peek with
      | .version major minor =>
        if versioned then throw .repeatedVersion
        if major ≠ 1 ∨ (minor ≠ 1 ∧ minor ≠ 2) then throw .incompatibleVersion
        directives fuel true composer.skip
      | .tagHandle handle expansion =>
        if composer.handles.any (·.1 == handle) then throw .repeatedTag
        directives fuel versioned
          { composer.skip with handles := (handle, expansion) :: composer.handles }
      | _ => pure composer

/-- Expect a document. Nothing is expected at the end of the text. -/
def begin (composer : Composer) : Except YamlError Composer := do
  match ← composer.peek with
  | .finish => pure composer
  | .version .. | .tagHandle .. | .documentStart =>
    let composer ← directives (composer.tokens.length + 1) false composer
    let missing := commonHandles.filter fun handle =>
      !composer.handles.any (·.1 == handle.1)
    let composer := { composer with handles := composer.handles ++ missing }
    match ← composer.peek with
    | .documentStart => pure (composer.skip.push .documentContent)
    | _ => throw .documentStart
  | _ => pure ({ composer with handles := commonHandles }.push .blockNode)

/-- Nothing may stand behind the first document. -/
def expectEnd : Nat → Composer → Option YamlError
  | 0, _ => none
  | fuel + 1, composer =>
    match composer.peek with
    | .ok .documentEnd => expectEnd fuel composer.skip
    | .ok .finish => none
    | .ok _ => some .severalDocuments
    | .error cause => some cause

end Composer

/-- The events up to the first error. -/
structure Document where
  events : List Event
  stop : Option YamlError

/-- The events of a text. -/
def Document.ofText (text : String) : Document :=
  let (tokens, stop) := tokens text.toList
  match Composer.begin { tokens, stop } with
  | .error cause => ⟨[], some cause⟩
  | .ok composer =>
    match composer.run (4 * tokens.length + 8) with
    | (events, .error cause) => ⟨events, some cause⟩
    | (events, .ok composer) => ⟨events, composer.expectEnd (tokens.length + 1)⟩

end OpsContent.Yaml
