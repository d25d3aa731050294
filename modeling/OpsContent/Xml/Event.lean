/-!
# Events of an XML text

A text is read as a stream of events: tags, text between them, comments and other markup. The
stream ends with `finish`, or with `malformed` at the first place that cannot be read. An end
tag has to repeat the name of the tag it closes, so every stream is properly nested up to its
end.
-/

namespace OpsContent.Xml

/-- Why a text cannot be read on. -/
inductive Malformed where
  | unclosedTag
  | unclosedComment
  | unclosedCharacterData
  | unclosedDoctype
  | unclosedInstruction
  | invalidMarkup
  | missingDoctypeName
  | mismatchedEnd (expected found : String)
  | unmatchedEnd (name : String)
  | attribute
  | entity
  deriving DecidableEq

def Malformed.message : Malformed → String
  | .unclosedTag => "tag not closed: `>` not found before end of input"
  | .unclosedComment => "comment not closed: `-->` not found before end of input"
  | .unclosedCharacterData => "CDATA not closed: `]]>` not found before end of input"
  | .unclosedDoctype => "DOCTYPE not closed: `>` not found before end of input"
  | .unclosedInstruction => "processing instruction not closed: `?>` not found before end of input"
  | .invalidMarkup => "unknown or missed symbol in markup"
  | .missingDoctypeName => "DOCTYPE declaration does not contain a name of a document type"
  | .mismatchedEnd expected found =>
    "expected `</" ++ expected ++ ">`, but `</" ++ found ++ ">` was found"
  | .unmatchedEnd name => "close tag `</" ++ name ++ ">` does not match any open tag"
  | .attribute => "malformed attribute"
  | .entity => "malformed entity or character reference"

/-- An event; a tag carries the characters between its name and its end. -/
inductive Event where
  | start (name rest : List Char)
  | empty (name rest : List Char)
  | close (name : List Char)
  | text
  | comment
  | characterData
  | instruction
  | declaration
  | doctype
  | finish
  | malformed (cause : Malformed)
  deriving DecidableEq

def isSpace (char : Char) : Bool :=
  char == ' ' || char == '\r' || char == '\n' || char == '\t'

/-- Characters of a tag up to the `>` that ends it, and those behind. A `>` inside quotes does
not end a tag. -/
def splitTag : Option Char → List Char → Option (List Char × List Char)
  | _, [] => none
  | none, char :: rest =>
    if char = '>' then some ([], rest)
    else
      let quote := if char = '"' ∨ char = '\x27' then some char else none
      (splitTag quote rest).map fun (tag, after) => (char :: tag, after)
  | some mark, char :: rest =>
    let quote := if char = mark then none else some mark
    (splitTag quote rest).map fun (tag, after) => (char :: tag, after)

/-- Characters up to a `>` before which the reversed characters satisfy a test. -/
def splitAfter (test : List Char → Bool) : List Char → List Char → Option (List Char × List Char)
  | _, [] => none
  | read, char :: rest =>
    if char = '>' ∧ test read then some (read.reverse, rest)
    else splitAfter test (char :: read) rest

/-- Characters of a document type up to its `>`, with markup inside balanced. -/
def splitDoctype : Nat → List Char → Option (List Char × List Char)
  | _, [] => none
  | depth, char :: rest =>
    if char = '>' then
      match depth with
      | 0 => some ([], rest)
      | depth + 1 => (splitDoctype depth rest).map fun (body, after) => (char :: body, after)
    else
      let inner := if char = '<' then depth + 1 else depth
      (splitDoctype inner rest).map fun (body, after) => (char :: body, after)

/-- Markup that starts with `<!`, without these two characters. -/
def bang (chars : List Char) : Event × List Char :=
  match chars with
  | '-' :: _ =>
    match splitAfter (fun read => 4 ≤ read.length && ['-', '-'].isPrefixOf read) [] chars with
    | none => (.malformed .unclosedComment, [])
    | some (body, rest) =>
      if ['-', '-'].isPrefixOf body then (.comment, rest) else (.malformed .unclosedComment, rest)
  | '[' :: _ =>
    match splitAfter (fun read => [']', ']'].isPrefixOf read) [] chars with
    | none => (.malformed .unclosedCharacterData, [])
    | some (body, rest) =>
      if "[CDATA[".toList.isPrefixOf body then (.characterData, rest)
      else (.malformed .unclosedCharacterData, rest)
  | first :: _ =>
    if first = 'D' ∨ first = 'd' then
      match splitDoctype 0 chars with
      | none => (.malformed .unclosedDoctype, [])
      | some (body, rest) =>
        if "doctype".toList.isPrefixOf (body.map Char.toLower) then
          if (body.drop 7).all isSpace then (.malformed .missingDoctypeName, rest)
          else (.doctype, rest)
        else (.malformed .unclosedDoctype, rest)
    else (.malformed .invalidMarkup, chars)
  | [] => (.malformed .invalidMarkup, [])

/-- Markup that starts with `<?`, without these two characters. -/
def question (chars : List Char) : Event × List Char :=
  match splitAfter (fun read => read.head? == some '?') ['?'] chars with
  | none => (.malformed .unclosedInstruction, [])
  | some (whole, rest) =>
    if whole.length < 2 then (.malformed .unclosedInstruction, rest)
    else
      let body := (whole.drop 1).dropLast
      if "xml".toList.isPrefixOf body ∧ (body.drop 3).head?.all isSpace then (.declaration, rest)
      else (.instruction, rest)

/-- A start tag or an empty element by its characters. -/
def element (tag : List Char) : Event :=
  let name (chars : List Char) := chars.takeWhile (!isSpace ·)
  let rest (chars : List Char) := chars.dropWhile (!isSpace ·)
  if tag.getLast? = some '/' then .empty (name tag.dropLast) (rest tag.dropLast)
  else .start (name tag) (rest tag)

def trimName (chars : List Char) : List Char :=
  if chars.all isSpace then chars else (chars.reverse.dropWhile isSpace).reverse

/-- The first event of markup after its `<`, and the characters behind it. -/
def markup (chars : List Char) : Event × List Char :=
  match chars with
  | [] => (.malformed .unclosedTag, [])
  | '!' :: rest => bang rest
  | '?' :: rest => question rest
  | '/' :: rest =>
    match splitTag none rest with
    | none => (.malformed .unclosedTag, [])
    | some (name, after) => (.close (trimName name), after)
  | _ =>
    match splitTag none chars with
    | none => (.malformed .unclosedTag, [])
    | some (tag, after) => (element tag, after)

/-- Events of a text inside the given open elements, innermost first. -/
def eventsInside : Nat → List (List Char) → List Char → List Event
  | 0, _, _ => [.finish]
  | _ + 1, _, [] => [.finish]
  | fuel + 1, stack, char :: chars =>
    if char = '<' then
      match markup chars with
      | (.malformed cause, _) => [.malformed cause]
      | (.close name, rest) =>
        match stack with
        | [] => [.malformed (.unmatchedEnd (String.ofList name))]
        | expected :: outer =>
          if name = expected then .close name :: eventsInside fuel outer rest
          else [.malformed (.mismatchedEnd (String.ofList expected) (String.ofList name))]
      | (.start name attributes, rest) =>
        .start name attributes :: eventsInside fuel (name :: stack) rest
      | (event, rest) => event :: eventsInside fuel stack rest
    else .text :: eventsInside fuel stack (chars.dropWhile (· != '<'))

/-- The events of a text, up to the first error. -/
def events (chars : List Char) : List Event :=
  eventsInside (chars.length + 1) [] chars

end OpsContent.Xml
