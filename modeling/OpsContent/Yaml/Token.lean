import OpsContent.Text.Bytes
import OpsContent.Yaml.Scalar

/-!
# Tokens of a YAML text

Marks and texts of which a document is made. Tags, anchors and directives are read here; which
mark may stand where is decided by the stream of tokens.
-/

namespace OpsContent.Yaml

/-- The parts of a document. -/
inductive Token where
  | finish
  | version (major minor : Nat)
  | tagHandle (handle expansion : List Char)
  | documentStart
  | documentEnd
  | blockSequence
  | blockMapping
  | blockEnd
  | openSequence
  | closeSequence
  | openMapping
  | closeMapping
  | entry
  | comma
  | key
  | value
  | alias (name : List Char)
  | anchor (name : List Char)
  | tag (handle suffix : List Char)
  | scalar (text : List Char) (plain : Bool)
  deriving DecidableEq

def isTagChar (verbatim : Bool) (char : Char) : Bool :=
  isWord char || ";/?:@&=+$.!~*'()%".toList.contains char ||
    (verbatim && [',', '[', ']'].contains char)

/-- The code unit of a percent sign with two digits. -/
def octet? : List Char → Option UInt8
  | '%' :: high :: low :: _ => do
      let high ← JsonToken.hexValue? high
      let low ← JsonToken.hexValue? low
      some (UInt8.ofNat (high * 16 + low))
  | _ => none

/-- The code units that a run of percent signs stands for, up to one whole character. -/
def escapedOctets (cursor : Cursor) : Except YamlError (Bytes × Cursor) :=
  match octet? cursor.rest with
  | none => .error .tagEscape
  | some lead =>
    if lead < 0x80 then tail 0 [lead] (cursor.skipMany 3)
    else if lead < 0xc0 then .error .tagEscape
    else if lead < 0xe0 then tail 1 [lead] (cursor.skipMany 3)
    else if lead < 0xf0 then tail 2 [lead] (cursor.skipMany 3)
    else if lead < 0xf8 then tail 3 [lead] (cursor.skipMany 3)
    else .error .tagEscape
where
  /-- The code units behind the first. -/
  tail : Nat → Bytes → Cursor → Except YamlError (Bytes × Cursor)
    | 0, units, cursor => .ok (units, cursor)
    | count + 1, units, cursor =>
      match octet? cursor.rest with
      | some unit =>
        if Bytes.isTail unit then tail count (units ++ [unit]) (cursor.skipMany 3)
        else .error .tagEscape
      | none => .error .tagEscape

/-- The longest text of tag characters, with escapes resolved. -/
def tagText (verbatim : Bool) : Nat → Cursor → Except YamlError (List Char × Cursor)
  | 0, cursor => .ok ([], cursor)
  | fuel + 1, cursor =>
    match cursor.head? with
    | none => .ok ([], cursor)
    | some char =>
      if !isTagChar verbatim char then .ok ([], cursor)
      else if char == '%' then do
        let (units, cursor) ← escapedOctets cursor
        let (text, cursor) ← tagText verbatim fuel cursor
        pure ((Bytes.toTextLossy units).toList ++ text, cursor)
      else do
        let (text, cursor) ← tagText verbatim fuel cursor.skip
        pure (char :: text, cursor)

/-- A handle of tags: an exclamation mark, or a name between two. -/
def tagHandle (directive : Bool) (cursor : Cursor) : Except YamlError (List Char × Cursor) :=
  if !cursor.sees '!' then .error .tagHandle
  else
    let name := cursor.skip.takeWhile isWord
    let cursor := cursor.skip.skipMany name.length
    if cursor.sees '!' then .ok ('!' :: name ++ ['!'], cursor.skip)
    else if directive && !name.isEmpty then .error .tagHandle
    else .ok ('!' :: name, cursor)

def readTag (inFlow : Bool) (cursor : Cursor) : Except YamlError (Token × Cursor) := do
  let (tag, cursor) ←
    if cursor.at? 1 == some '<' then do
      let (suffix, cursor) ← tagText true (cursor.rest.length + 1) (cursor.skipMany 2)
      if suffix.isEmpty then throw .tagText
      if !cursor.sees '>' then throw .tagEnd
      pure (Token.tag [] suffix, cursor.skip)
    else do
      let (handle, cursor) ← tagHandle false cursor
      let (text, cursor) ← tagText false (cursor.rest.length + 1) cursor
      if handle.length > 1 ∧ handle.getLast? = some '!' then
        if text.isEmpty then throw .tagText
        pure (Token.tag handle text, cursor)
      else
        let suffix := handle.drop 1 ++ text
        pure (if suffix.isEmpty then Token.tag [] ['!'] else Token.tag ['!'] suffix, cursor)
  if (inFlow && cursor.sees ',') || cursor.blankAt 0 then pure (tag, cursor) else throw .tagEnd

/-- The name behind the mark of an anchor or an alias. -/
def readName (cursor : Cursor) : Except YamlError (List Char × Cursor) :=
  let name := cursor.skip.takeWhile isWord
  let cursor := cursor.skip.skipMany name.length
  let ends := cursor.head?.any fun char => ['?', ':', ',', ']', '\x7d', '%', '@', '\x60'].contains char
  if name.isEmpty || !(cursor.blankAt 0 || ends) then .error .anchorName else .ok (name, cursor)

def versionNumber (cursor : Cursor) : Except YamlError (Nat × Cursor) :=
  let digits := cursor.takeWhile Char.isDigit
  if digits.isEmpty || 9 < digits.length then .error .directiveVersion
  else .ok (digits.foldl (fun value digit => value * 10 + (digit.toNat - '0'.toNat)) 0,
    cursor.skipMany digits.length)

/-- A directive, up to the end of its line. -/
def readDirective (cursor : Cursor) : Except YamlError (Token × Cursor) := do
  let name := cursor.skip.takeWhile isWord
  let cursor := cursor.skip.skipMany name.length
  if name.isEmpty || !cursor.blankAt 0 then throw .directiveName
  let (token, cursor) ←
    if name = "YAML".toList then do
      let (major, cursor) ← versionNumber (cursor.skipWhile isGap)
      if !cursor.sees '.' then throw .directiveVersion
      let (minor, cursor) ← versionNumber cursor.skip
      pure (Token.version major minor, cursor)
    else if name = "TAG".toList then do
      let (handle, cursor) ← tagHandle true (cursor.skipWhile isGap)
      if !cursor.seesGap then throw .directiveTag
      let cursor := cursor.skipWhile isGap
      let (expansion, cursor) ← tagText true (cursor.rest.length + 1) cursor
      if expansion.isEmpty || !cursor.blankAt 0 then throw .directiveTag
      pure (Token.tagHandle handle expansion, cursor)
    else throw .unknownDirective
  let cursor := cursor.skipComment
  if !cursor.atLineEnd then throw .directiveEnd
  pure (token, cursor.skipLine)

end OpsContent.Yaml
