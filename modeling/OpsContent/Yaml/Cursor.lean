import OpsContent.Yaml.Error

/-!
# A place in a YAML text

Indentation counts columns and a key has to stand on one line, so the place is kept with line
and column. A carriage return with a line feed is one line break, and so is each of the two
alone and a next-line character; the two Unicode separators break lines too, and are kept as
they are where a break belongs to a text.
-/

namespace OpsContent.Yaml

/-- A position in a text, with what is left of it. -/
structure Cursor where
  rest : List Char
  index : Nat := 0
  line : Nat := 0
  column : Nat := 0

/-- Does the character end a line? -/
def isBreak (char : Char) : Bool :=
  char == '\n' || char == '\r' || char == '\u0085' || char == '\u2028' || char == '\u2029'

def isGap (char : Char) : Bool :=
  char == ' ' || char == '\t'

def isWord (char : Char) : Bool :=
  char.isAlphanum || char == '_' || char == '-'

/-- Characters that may stand in a text. -/
def isAllowed (char : Char) : Bool :=
  let code := char.toNat
  char == '\t' || char == '\n' || char == '\r' || (0x20 ≤ code && code ≤ 0x7e) || code == 0x85 ||
    (0xa0 ≤ code && code ≤ 0xfffd) || 0x10000 ≤ code

namespace Cursor

def at? (cursor : Cursor) (offset : Nat) : Option Char :=
  cursor.rest[offset]?

def head? (cursor : Cursor) : Option Char :=
  cursor.rest.head?

def isEnd (cursor : Cursor) : Bool :=
  cursor.rest.isEmpty

def sees (cursor : Cursor) (char : Char) : Bool :=
  cursor.head? == some char

def seesBreak (cursor : Cursor) : Bool :=
  cursor.head?.any isBreak

def seesGap (cursor : Cursor) : Bool :=
  cursor.head?.any isGap

/-- Is there a blank, or the end, at an offset? -/
def blankAt (cursor : Cursor) (offset : Nat) : Bool :=
  (cursor.at? offset).all fun char => isGap char || isBreak char

def atLineEnd (cursor : Cursor) : Bool :=
  cursor.head?.all isBreak

/-- Step over a character. -/
def skip (cursor : Cursor) : Cursor :=
  match cursor.rest with
  | [] => cursor
  | _ :: rest =>
    { cursor with rest, index := cursor.index + 1, column := cursor.column + 1 }

def skipMany (cursor : Cursor) : Nat → Cursor
  | 0 => cursor
  | count + 1 => cursor.skip.skipMany count

/-- Pass a line break, if there is one. -/
def skipLine (cursor : Cursor) : Cursor :=
  match cursor.rest with
  | '\r' :: '\n' :: rest =>
    { rest, index := cursor.index + 2, line := cursor.line + 1, column := 0 }
  | char :: rest =>
    if isBreak char then
      { rest, index := cursor.index + 1, line := cursor.line + 1, column := 0 }
    else cursor
  | [] => cursor

/-- What the line end here counts for. -/
def breakText (cursor : Cursor) : List Char :=
  match cursor.rest with
  | char :: _ =>
    if char = '\u2028' ∨ char = '\u2029' then [char] else if isBreak char then ['\n'] else []
  | [] => []

def skipWhile (cursor : Cursor) (test : Char → Bool) : Cursor :=
  cursor.skipMany (cursor.rest.takeWhile test).length

def takeWhile (cursor : Cursor) (test : Char → Bool) : List Char :=
  cursor.rest.takeWhile test

/-- Step over gaps and a comment. -/
def skipComment (cursor : Cursor) : Cursor :=
  let cursor := cursor.skipWhile isGap
  if cursor.sees '#' then cursor.skipWhile (!isBreak ·) else cursor

/-- Is this a mark between documents? -/
def seesMark (cursor : Cursor) (char : Char) : Bool :=
  cursor.column == 0 && cursor.rest.take 3 == [char, char, char] && cursor.blankAt 3

def seesDocumentMark (cursor : Cursor) : Bool :=
  cursor.seesMark '-' || cursor.seesMark '.'

end Cursor

end OpsContent.Yaml
