import OpsContent.Yaml.Token

/-!
# The stream of tokens

A text can turn out to be a key only at the colon behind it, on the same line. Until this is
settled its token waits, together with all tokens behind it. When the text cannot be read on,
waiting tokens are lost, so the stream shows exactly the tokens that were settled before the
fault.
-/

namespace OpsContent.Yaml

/-- A place where a key may turn out to have started. -/
structure Candidate where
  /-- Number of the token in the stream. -/
  number : Nat
  /-- A block demands that a key starts here. -/
  required : Bool
  index : Nat
  line : Nat
  column : Nat

/-- What is known at a place in the text. -/
structure Scanner where
  cursor : Cursor
  /-- Tokens that wait to be settled. -/
  waiting : List Token := []
  /-- Number of the first waiting token. -/
  settled : Nat := 0
  /-- Column of the innermost block, below zero outside of all blocks. -/
  indent : Int := -1
  /-- Columns of the blocks around it. -/
  outer : List Int := []
  /-- For each open bracket, innermost first, and for the block: the possible key. -/
  candidates : List (Option Candidate) := [none]
  keyAllowed : Bool := true
  finished : Bool := false

namespace Scanner

/-- Are brackets open? -/
def inFlow (scanner : Scanner) : Bool :=
  1 < scanner.candidates.length

def emit (scanner : Scanner) (token : Token) : Scanner :=
  { scanner with waiting := scanner.waiting ++ [token] }

/-- Insert a token in front of the one of a given number. -/
def insertAt (scanner : Scanner) (number : Nat) (token : Token) : Scanner :=
  let place := number - scanner.settled
  { scanner with
    waiting := scanner.waiting.take place ++ token :: scanner.waiting.drop place }

def candidate? (scanner : Scanner) : Option Candidate :=
  scanner.candidates.head?.join

def setCandidate (scanner : Scanner) (candidate : Option Candidate) : Scanner :=
  { scanner with candidates := candidate :: scanner.candidates.tail }

/-- No key starts there after all. -/
def dropCandidate (scanner : Scanner) : Except YamlError Scanner :=
  if scanner.candidate?.any (·.required) then .error .staleKey
  else .ok (scanner.setCandidate none)

/-- Note that the next token may start a key, where keys are allowed. -/
def noteCandidate (scanner : Scanner) : Except YamlError Scanner :=
  if scanner.keyAllowed then do
    let scanner ← scanner.dropCandidate
    pure (scanner.setCandidate (some {
      number := scanner.settled + scanner.waiting.length
      required := !scanner.inFlow && scanner.indent == scanner.cursor.column
      index := scanner.cursor.index
      line := scanner.cursor.line
      column := scanner.cursor.column }))
  else .ok scanner

/-- Is it too late for a key that starts there? -/
def isStale (cursor : Cursor) (candidate : Candidate) : Bool :=
  candidate.line < cursor.line || candidate.index + 1024 < cursor.index

/-- Give up every possible key that cannot get its colon any more. -/
def dropStale (scanner : Scanner) : Except YamlError Scanner :=
  let stale := isStale scanner.cursor
  if scanner.candidates.any fun candidate =>
      candidate.any fun candidate => stale candidate && candidate.required then .error .staleKey
  else .ok { scanner with candidates := scanner.candidates.map (·.filter (!stale ·)) }

/-- Close the blocks that are deeper than a column. -/
def closeBlocksTo (column : Int) : Nat → Scanner → Scanner
  | 0, scanner => scanner
  | fuel + 1, scanner =>
    if column < scanner.indent then
      closeBlocksTo column fuel
        { scanner.emit .blockEnd with
          indent := scanner.outer.headD (-1)
          outer := scanner.outer.tail }
    else scanner

/-- Close the blocks that start further to the right. -/
def closeBlocks (scanner : Scanner) (column : Int) : Scanner :=
  if scanner.inFlow then scanner
  else closeBlocksTo column (scanner.outer.length + 1) scanner

/-- Open a block at a column that is deeper than the current one. -/
def openBlock (scanner : Scanner) (column : Nat) (number : Option Nat) (token : Token) : Scanner :=
  if !scanner.inFlow && scanner.indent < column then
    let scanner := { scanner with
      indent := (column : Int)
      outer := scanner.indent :: scanner.outer }
    match number with
    | some number => scanner.insertAt number token
    | none => scanner.emit token
  else scanner

/-- Pass blanks, comments and line ends. Tabs do not count as blanks where a key could start. -/
def skipBlanks : Nat → Scanner → Scanner
  | 0, scanner => scanner
  | fuel + 1, scanner =>
    let cursor := scanner.cursor
    let cursor := if cursor.index == 0 && cursor.sees '\ufeff' then cursor.skip else cursor
    let tabs := scanner.inFlow || !scanner.keyAllowed
    let cursor := cursor.skipWhile fun char => char == ' ' || (tabs && char == '\t')
    let cursor := if cursor.sees '#' then cursor.skipWhile (!isBreak ·) else cursor
    if cursor.seesBreak then
      skipBlanks fuel { scanner with
        cursor := cursor.skipLine
        keyAllowed := scanner.keyAllowed || !scanner.inFlow }
    else { scanner with cursor }

def leaveBlocks (scanner : Scanner) : Except YamlError Scanner := do
  let scanner ← (scanner.closeBlocks (-1)).dropCandidate
  pure { scanner with keyAllowed := false }

def mark (scanner : Scanner) (width : Nat) (token : Token) : Scanner :=
  { scanner with cursor := scanner.cursor.skipMany width }.emit token

/-- Open a collection in brackets. -/
def openBracket (scanner : Scanner) (token : Token) : Except YamlError Scanner := do
  let scanner ← scanner.noteCandidate
  pure ({ scanner with
    candidates := none :: scanner.candidates
    keyAllowed := true }.mark 1 token)

/-- Close a collection in brackets. -/
def closeBracket (scanner : Scanner) (token : Token) : Except YamlError Scanner := do
  let scanner ← scanner.dropCandidate
  let candidates := if scanner.inFlow then scanner.candidates.tail else scanner.candidates
  pure ({ scanner with candidates, keyAllowed := false }.mark 1 token)

/-- A dash in front of an item. -/
def entry (scanner : Scanner) : Except YamlError Scanner := do
  if !scanner.inFlow && !scanner.keyAllowed then throw .entryNotAllowed
  let scanner := scanner.openBlock scanner.cursor.column none .blockSequence
  let scanner ← scanner.dropCandidate
  pure ({ scanner with keyAllowed := true }.mark 1 .entry)

/-- A question mark in front of a key. -/
def key (scanner : Scanner) : Except YamlError Scanner := do
  if !scanner.inFlow && !scanner.keyAllowed then throw .keyNotAllowed
  let scanner := scanner.openBlock scanner.cursor.column none .blockMapping
  let scanner ← scanner.dropCandidate
  pure ({ scanner with keyAllowed := !scanner.inFlow }.mark 1 .key)

/-- A colon in front of a value. It turns a possible key into a key. -/
def value (scanner : Scanner) : Except YamlError Scanner :=
  match scanner.candidate? with
  | some candidate =>
    let scanner := scanner.insertAt candidate.number .key
    let scanner := scanner.openBlock candidate.column (some candidate.number) .blockMapping
    .ok ({ scanner.setCandidate none with keyAllowed := false }.mark 1 .value)
  | none =>
    if !scanner.inFlow && !scanner.keyAllowed then .error .valueNotAllowed
    else
      let scanner := scanner.openBlock scanner.cursor.column none .blockMapping
      .ok ({ scanner with keyAllowed := !scanner.inFlow }.mark 1 .value)

/-- A token that may start a key. -/
def possibleKey (scanner : Scanner) (read : Cursor → Except YamlError (Token × Cursor)) :
    Except YamlError Scanner := do
  let scanner ← scanner.noteCandidate
  let (token, cursor) ← read scanner.cursor
  pure ({ scanner with cursor, keyAllowed := false }.emit token)

/-- Read a text without quotes. -/
def plain (scanner : Scanner) : Except YamlError Scanner := do
  let scanner ← scanner.noteCandidate
  let (text, broken, cursor) ←
    plainText scanner.inFlow (scanner.indent + 1).toNat scanner.cursor
  pure ({ scanner with cursor, keyAllowed := broken }.emit (.scalar text true))

/-- Read a block text. -/
def block (scanner : Scanner) (literal : Bool) : Except YamlError Scanner := do
  let scanner ← scanner.dropCandidate
  let (text, cursor) ← blockText literal scanner.indent scanner.cursor
  pure ({ scanner with cursor, keyAllowed := true }.emit (.scalar text false))

/-- May a plain text start here? -/
def startsPlain (inFlow : Bool) (char : Char) (cursor : Cursor) : Bool :=
  let marks := "-?:,[]#&*!|>'\"%@\x60\x7b\x7d".toList
  !(cursor.blankAt 0 || marks.contains char) ||
    (char == '-' && !(cursor.at? 1).any isGap) ||
    (!inFlow && (char == '?' || char == ':') && !cursor.blankAt 1)

/-- Read the end of the text, which ends its last line. -/
def finish (scanner : Scanner) : Except YamlError Scanner := do
  let cursor := scanner.cursor
  let line := if cursor.column = 0 then cursor.line else cursor.line + 1
  let scanner ← { scanner with cursor := { cursor with line, column := 0 } }.leaveBlocks
  pure { scanner.emit .finish with finished := true }

/-- Read the next mark or text. -/
def advance (scanner : Scanner) : Except YamlError Scanner := do
  let scanner := scanner.skipBlanks (scanner.cursor.rest.length + 1)
  let scanner ← scanner.dropStale
  let scanner := scanner.closeBlocks scanner.cursor.column
  let cursor := scanner.cursor
  let inFlow := scanner.inFlow
  match cursor.head? with
  | none => scanner.finish
  | some char =>
    if cursor.column == 0 && char == '%' then
      let scanner ← scanner.leaveBlocks
      let (token, cursor) ← readDirective cursor
      pure ({ scanner with cursor }.emit token)
    else if cursor.seesMark '-' then (·.mark 3 .documentStart) <$> scanner.leaveBlocks
    else if cursor.seesMark '.' then (·.mark 3 .documentEnd) <$> scanner.leaveBlocks
    else if char == '[' then scanner.openBracket .openSequence
    else if char == '\x7b' then scanner.openBracket .openMapping
    else if char == ']' then scanner.closeBracket .closeSequence
    else if char == '\x7d' then scanner.closeBracket .closeMapping
    else if char == ',' then
      let scanner ← scanner.dropCandidate
      pure ({ scanner with keyAllowed := true }.mark 1 .comma)
    else if char == '-' && cursor.blankAt 1 then scanner.entry
    else if char == '?' && (inFlow || cursor.blankAt 1) then scanner.key
    else if char == ':' && (inFlow || cursor.blankAt 1) then scanner.value
    else if char == '*' then
      scanner.possibleKey fun cursor => do
        let (name, cursor) ← readName cursor
        pure (.alias name, cursor)
    else if char == '&' then
      scanner.possibleKey fun cursor => do
        let (name, cursor) ← readName cursor
        pure (.anchor name, cursor)
    else if char == '!' then scanner.possibleKey (readTag inFlow)
    else if char == '|' && !inFlow then scanner.block true
    else if char == '>' && !inFlow then scanner.block false
    else if char == '\x27' || char == '"' then
      scanner.possibleKey fun cursor => do
        let (text, cursor) ← quotedText char cursor
        pure (.scalar text false, cursor)
    else if startsPlain inFlow char cursor then scanner.plain
    else throw .badTokenStart

/-- Tokens in the order in which they are settled, and why the text cannot be read on. -/
def settle : Nat → Scanner → List Token × Option YamlError
  | 0, _ => ([], none)
  | fuel + 1, scanner =>
    match scanner.waiting with
    | [] =>
      if scanner.finished then ([], none)
      else match scanner.advance with
        | .error cause => ([], some cause)
        | .ok scanner => settle fuel scanner
    | token :: waiting =>
      match scanner.dropStale with
      | .error cause => ([], some cause)
      | .ok scanner =>
        if scanner.candidates.any (·.any (·.number == scanner.settled)) then
          match scanner.advance with
          | .error cause => ([], some cause)
          | .ok scanner => settle fuel scanner
        else
          let (tokens, stop) :=
            settle fuel { scanner with waiting, settled := scanner.settled + 1 }
          (token :: tokens, stop)

end Scanner

/-- The tokens of a text. Each step reads a mark or text, or settles one of at most three tokens
that a place in the text gives, so the number of steps is bounded by the length. -/
def tokens (chars : List Char) : List Token × Option YamlError :=
  if chars.all isAllowed then
    let chars := match chars with
      | '\ufeff' :: rest => rest
      | chars => chars
    Scanner.settle (8 * chars.length + 16) { cursor := { rest := chars } }
  else ([], some .controlCharacter)

end OpsContent.Yaml
