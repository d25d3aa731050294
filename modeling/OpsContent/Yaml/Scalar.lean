import OpsContent.Json.Token
import OpsContent.Yaml.Cursor

/-!
# Texts in YAML

Plain and quoted texts run over line ends: one line end counts as a space, more of them as one
less line feeds. A block text keeps its lines, or joins them in the same way, and says by its
header what happens to line ends behind it.
-/

namespace OpsContent.Yaml

/-- Blanks and line ends inside a text that have not been counted yet. -/
structure Fold where
  blanks : List Char := []
  firstBreak : List Char := []
  moreBreaks : List Char := []
  broken : Bool := false

namespace Fold

/-- What the blanks count for in the text. -/
def text (fold : Fold) : List Char :=
  if fold.broken then
    if fold.firstBreak.head? == some '\n' then
      if fold.moreBreaks.isEmpty then [' '] else fold.moreBreaks
    else fold.firstBreak ++ fold.moreBreaks
  else fold.blanks

/-- Read blanks and line ends. In a plain text a tab may not stand in for indentation. -/
def read (indentation : Option Nat) : Nat → Fold → Cursor → Except YamlError (Fold × Cursor)
  | 0, fold, cursor => .ok (fold, cursor)
  | fuel + 1, fold, cursor =>
    match cursor.head? with
    | none => .ok (fold, cursor)
    | some char =>
      if isGap char then
        if fold.broken && char == '\t' && indentation.any (cursor.column < ·) then
          .error .tabIndentation
        else
          let fold := if fold.broken then fold else { fold with blanks := fold.blanks ++ [char] }
          read indentation fuel fold cursor.skip
      else if isBreak char then
        let fold :=
          if fold.broken then { fold with moreBreaks := fold.moreBreaks ++ cursor.breakText }
          else { fold with blanks := [], firstBreak := cursor.breakText, broken := true }
        read indentation fuel fold cursor.skipLine
      else .ok (fold, cursor)

end Fold

def isFlowMark (char : Char) : Bool :=
  [',', '[', ']', '\x7b', '\x7d'].contains char

/-- The characters of a plain text up to a blank or to a mark that ends it. -/
def plainWord (inFlow : Bool) : Nat → Cursor → Except YamlError (List Char × Cursor)
  | 0, cursor => .ok ([], cursor)
  | fuel + 1, cursor =>
    match cursor.head? with
    | none => .ok ([], cursor)
    | some char =>
      if cursor.blankAt 0 then .ok ([], cursor)
      else if inFlow && char == ':' && (cursor.at? 1).any fun next =>
          isFlowMark next || next == '?' then .error .colonInScalar
      else if char == ':' && cursor.blankAt 1 then .ok ([], cursor)
      else if inFlow && isFlowMark char then .ok ([], cursor)
      else do
        let (word, cursor) ← plainWord inFlow fuel cursor.skip
        pure (char :: word, cursor)

/-- A plain text from a place between two words on, and whether a line end stands behind it. -/
def plainWords (inFlow : Bool) (indentation : Nat) :
    Nat → List Char → Fold → Cursor → Except YamlError (List Char × Bool × Cursor)
  | 0, text, fold, cursor => .ok (text, fold.broken, cursor)
  | fuel + 1, text, fold, cursor =>
    if cursor.seesDocumentMark || cursor.sees '#' then .ok (text, fold.broken, cursor)
    else do
      let (word, cursor) ← plainWord inFlow (cursor.rest.length + 1) cursor
      let (text, fold) :=
        if word.isEmpty then (text, fold) else (text ++ fold.text ++ word, {})
      if cursor.seesGap || cursor.seesBreak then
        let (fold, cursor) ←
          Fold.read (some indentation) (cursor.rest.length + 1) fold cursor
        if !inFlow && cursor.column < indentation then .ok (text, fold.broken, cursor)
        else plainWords inFlow indentation fuel text fold cursor
      else .ok (text, fold.broken, cursor)

/-- A text without quotes. -/
def plainText (inFlow : Bool) (indentation : Nat) (cursor : Cursor) :
    Except YamlError (List Char × Bool × Cursor) :=
  plainWords inFlow indentation (cursor.rest.length + 1) [] {} cursor

/-- The character that an escape of one letter stands for. -/
def escaped? : Char → Option Char
  | '0' => some '\x00'
  | 'a' => some '\x07'
  | 'b' => some '\x08'
  | 't' => some '\t'
  | '\t' => some '\t'
  | 'n' => some '\n'
  | 'v' => some '\x0b'
  | 'f' => some '\x0c'
  | 'r' => some '\r'
  | 'e' => some '\x1b'
  | ' ' => some ' '
  | '"' => some '"'
  | '/' => some '/'
  | '\\' => some '\\'
  | 'N' => some '\u0085'
  | '_' => some '\u00a0'
  | 'L' => some '\u2028'
  | 'P' => some '\u2029'
  | _ => none

def escapeWidth? : Char → Option Nat
  | 'x' => some 2
  | 'u' => some 4
  | 'U' => some 8
  | _ => none

/-- The character of an escape by number. -/
def escapedCode (digits : List Char) (width : Nat) : Except YamlError Char :=
  match (digits.take width).mapM JsonToken.hexValue? with
  | some values =>
    let code := values.foldl (fun code digit => code * 16 + digit) 0
    if values.length ≠ width then .error .badEscapeDigits
    else if code.isValidChar then .ok (Char.ofNat code)
    else .error .badEscapeCode
  | none => .error .badEscapeDigits

/-- Characters of a quoted text up to a blank, the closing quote or an escaped line end. The
flag says that the word ended with an escaped line end. -/
def quotedWord (quote : Char) : Nat → Cursor → Except YamlError (List Char × Bool × Cursor)
  | 0, cursor => .ok ([], false, cursor)
  | fuel + 1, cursor =>
    let more (char : Char) (cursor : Cursor) : Except YamlError (List Char × Bool × Cursor) := do
      let (word, broken, cursor) ← quotedWord quote fuel cursor
      pure (char :: word, broken, cursor)
    match cursor.head? with
    | none => .ok ([], false, cursor)
    | some char =>
      if cursor.blankAt 0 then .ok ([], false, cursor)
      else if quote == '\x27' then
        if char == quote then
          if cursor.at? 1 == some quote then more quote (cursor.skipMany 2)
          else .ok ([], false, cursor)
        else more char cursor.skip
      else if char == quote then .ok ([], false, cursor)
      else if char == '\\' then
        match cursor.at? 1 with
        | none => .error .unknownEscape
        | some letter =>
          if isBreak letter then .ok ([], true, cursor.skip.skipLine)
          else match escaped? letter with
            | some char => more char (cursor.skipMany 2)
            | none =>
              match escapeWidth? letter with
              | none => .error .unknownEscape
              | some width => do
                  let char ← escapedCode (cursor.rest.drop 2) width
                  more char (cursor.skipMany (2 + width))
      else more char cursor.skip

/-- A quoted text from behind its first quote on. -/
def quotedWords (quote : Char) : Nat → List Char → Cursor → Except YamlError (List Char × Cursor)
  | 0, text, cursor => .ok (text, cursor)
  | fuel + 1, text, cursor =>
    if cursor.seesDocumentMark then .error .documentMarkInScalar
    else if cursor.isEnd then .error .unclosedScalar
    else do
      let (word, broken, cursor) ← quotedWord quote (cursor.rest.length + 1) cursor
      let text := text ++ word
      if cursor.sees quote then pure (text, cursor.skip)
      else
        let (fold, cursor) ← Fold.read none (cursor.rest.length + 1) { broken } cursor
        quotedWords quote fuel (text ++ fold.text) cursor

/-- A text in quotes. -/
def quotedText (quote : Char) (cursor : Cursor) : Except YamlError (List Char × Cursor) :=
  quotedWords quote (cursor.rest.length + 1) [] cursor.skip

/-- What happens to line ends behind a block text. -/
inductive Chomping where
  | strip
  | clip
  | keep

/-- The header of a block text: what happens behind it, and by how much it is indented. -/
def blockHeader (cursor : Cursor) : Except YamlError (Chomping × Option Nat × Cursor) :=
  let chomping (cursor : Cursor) : Option Chomping :=
    if cursor.sees '+' then some .keep else if cursor.sees '-' then some .strip else none
  let digit (cursor : Cursor) : Option Nat :=
    cursor.head?.bind fun char =>
      if char.isDigit then some (char.toNat - '0'.toNat) else none
  match chomping cursor with
  | some mode =>
    match digit cursor.skip with
    | some 0 => .error .zeroIndentation
    | some increment => .ok (mode, some increment, cursor.skipMany 2)
    | none => .ok (mode, none, cursor.skip)
  | none =>
    match digit cursor with
    | some 0 => .error .zeroIndentation
    | some increment =>
      match chomping cursor.skip with
      | some mode => .ok (mode, some increment, cursor.skipMany 2)
      | none => .ok (.clip, some increment, cursor.skip)
    | none => .ok (.clip, none, cursor)

/-- Empty lines of a block text: their line ends, the deepest column met, and the place where a
line with a character starts. -/
def emptyLines (indentation : Option Nat) :
    Nat → Nat → List Char → Cursor → Except YamlError (Nat × List Char × Cursor)
  | 0, deepest, breaks, cursor => .ok (deepest, breaks, cursor)
  | fuel + 1, deepest, breaks, cursor =>
    let spaces := (cursor.takeWhile (· == ' ')).length
    let cursor := cursor.skipMany
      (match indentation with
        | none => spaces
        | some wanted => min spaces (wanted - cursor.column))
    let deepest := max deepest cursor.column
    if indentation.all (cursor.column < ·) && cursor.sees '\t' then .error .tabIndentation
    else if cursor.seesBreak then
      emptyLines indentation fuel deepest (breaks ++ cursor.breakText) cursor.skipLine
    else .ok (deepest, breaks, cursor)

/-- The lines of a block text of a known indentation. -/
def blockLines (literal : Bool) (indentation : Nat) :
    Nat → List Char → List Char → List Char → Bool → Cursor →
      Except YamlError (List Char × List Char × List Char × Cursor)
  | 0, text, lineEnd, breaks, _, cursor => .ok (text, lineEnd, breaks, cursor)
  | fuel + 1, text, lineEnd, breaks, indentedBefore, cursor =>
    if cursor.column != indentation || cursor.isEnd then .ok (text, lineEnd, breaks, cursor)
    else do
      let indented := cursor.seesGap
      let separator :=
        if !literal && lineEnd.head? == some '\n' && !indentedBefore && !indented then
          if breaks.isEmpty then [' '] else []
        else lineEnd
      let line := cursor.takeWhile (!isBreak ·)
      let cursor := cursor.skipMany line.length
      let (_, more, next) ←
        emptyLines (some indentation) (cursor.rest.length + 1) 0 [] cursor.skipLine
      blockLines literal indentation fuel (text ++ separator ++ breaks ++ line)
        cursor.breakText more indented next

/-- A block text at its mark, inside blocks of the given indentation. -/
def blockText (literal : Bool) (outer : Int) (cursor : Cursor) :
    Except YamlError (List Char × Cursor) := do
  let (chomping, increment, cursor) ← blockHeader cursor.skip
  let cursor := cursor.skipComment
  if !cursor.atLineEnd then throw .blockScalarHeader
  let cursor := cursor.skipLine
  let wanted := increment.map fun increment => outer.toNat + increment
  let (deepest, breaks, cursor) ← emptyLines wanted (cursor.rest.length + 1) 0 [] cursor
  let indentation := wanted.getD (max (max deepest (outer + 1).toNat) 1)
  let (text, lineEnd, breaks, cursor) ←
    blockLines literal indentation (cursor.rest.length + 1) [] [] breaks false cursor
  pure (match chomping with
    | .strip => (text, cursor)
    | .clip => (text ++ lineEnd, cursor)
    | .keep => (text ++ lineEnd ++ breaks, cursor))

end OpsContent.Yaml
