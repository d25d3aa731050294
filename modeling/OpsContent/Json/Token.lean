import OpsContent.Json.Error

/-!
# Tokens of a JSON text

The text is cut into tokens before its structure is read. A token that is malformed carries
its cause and ends the list: whichever way the structure is read, nothing behind it is looked
at.

A whole number is exact while it fits a 64-bit word. Any other number is a double, computed
from as many leading digits as fit an unsigned word and one scaling by a power of ten.
-/

namespace OpsContent

/-- The words of a JSON text. -/
inductive JsonToken where
  | openBrace
  | closeBrace
  | openBracket
  | closeBracket
  | comma
  | colon
  | null
  | bool (value : Bool)
  | number (value : Number)
  | string (value : String)
  | malformed (cause : JsonError)
  deriving DecidableEq

namespace JsonToken

def isSpace (char : Char) : Bool :=
  char == ' ' || char == '\n' || char == '\t' || char == '\r'

abbrev Scan := JsonToken × List Char

/-- Read the rest of a literal whose first letter has been read. -/
def literal (token : JsonToken) : List Char → List Char → Scan
  | [], rest => (token, rest)
  | _ :: _, [] => (.malformed .endInValue, [])
  | expected :: word, char :: rest =>
    if char = expected then literal token word rest else (.malformed .expectedIdent, rest)

def digitValue (char : Char) : Nat :=
  char.toNat - '0'.toNat

def maxWord : Nat :=
  0xFFFFFFFFFFFFFFFF

/-- Digits taken into a word while it does not overflow: the word and the digits left over. -/
def absorb (word : Nat) : List Char → Nat × List Char
  | [] => (word, [])
  | digit :: rest =>
    let next := word * 10 + digitValue digit
    if next ≤ maxWord then absorb next rest else (word, digit :: rest)

def maxPower : Nat := 308

/-- Divide by a power of ten, in steps of the largest one. -/
def scaleDown (fuel : Nat) (value : Float) (power : Nat) : Float :=
  match fuel with
  | 0 => value
  | fuel + 1 =>
    if power ≤ maxPower then value / Float.ofScientific 1 false power
    else if value == 0.0 then value
    else scaleDown fuel (value / Float.ofScientific 1 false maxPower) (power - maxPower)

/-- A word scaled by a power of ten, unless that is out of range. -/
def scaled (negative : Bool) (word : Nat) (exponent : Int) : JsonToken :=
  let start := (UInt64.ofNat word).toFloat
  let finish (value : Float) : JsonToken :=
    .number (.double (.ofFloat (if negative then -value else value)))
  if 0 ≤ exponent then
    if exponent.toNat ≤ maxPower then
      let value := start * Float.ofScientific 1 false exponent.toNat
      if value.isInf then .malformed .numberOutOfRange else finish value
    else if start == 0.0 then finish start
    else .malformed .numberOutOfRange
  else
    let power := exponent.natAbs
    finish (scaleDown (power / maxPower + 1) start power)

def maxExponent : Nat :=
  0x7FFFFFFF

def clampExponent (exponent : Int) : Int :=
  max (-(maxExponent : Int) - 1) (min maxExponent exponent)

/-- The exponent of a number. -/
def exponentPart (negative : Bool) (word : Nat) (start : Int) (chars : List Char) : Scan :=
  let (down, digits) := match chars with
    | '+' :: rest => (false, rest)
    | '-' :: rest => (true, rest)
    | _ => (false, chars)
  match digits with
  | [] => (.malformed .endInValue, [])
  | first :: _ =>
    if first.isDigit then
      let run := digits.takeWhile Char.isDigit
      let rest := digits.dropWhile Char.isDigit
      let size := run.foldl (fun value digit => value * 10 + digitValue digit) 0
      if size ≤ maxExponent then
        let exponent := if down then start - size else start + size
        (scaled negative word (clampExponent exponent), rest)
      else if word ≠ 0 ∧ !down then (.malformed .numberOutOfRange, rest)
      else (.number (.double (.ofFloat (if negative then -0.0 else 0.0))), rest)
    else (.malformed .invalidNumber, digits)

/-- What follows the digits of a number: an exponent, or the end of the number. -/
def afterDigits (negative : Bool) (word : Nat) (exponent : Int) (chars : List Char) : Scan :=
  match chars with
  | 'e' :: rest => exponentPart negative word exponent rest
  | 'E' :: rest => exponentPart negative word exponent rest
  | _ => (scaled negative word exponent, chars)

/-- The digits after the decimal point. -/
def fractionPart (negative : Bool) (word : Nat) (exponent : Int) (chars : List Char) : Scan :=
  let run := chars.takeWhile Char.isDigit
  let rest := chars.dropWhile Char.isDigit
  if run.isEmpty then
    (.malformed (if chars.isEmpty then .endInValue else .invalidNumber), chars)
  else
    let (word, dropped) := absorb word run
    afterDigits negative word (exponent - (run.length - dropped.length : Nat)) rest

/-- A whole number that fits a word, as an exact value if its sign allows it. -/
def wholeNumber (negative : Bool) (word : Nat) : Number :=
  if !negative then .integer word
  else if word = 0 ∨ 0x8000000000000000 < word then .double (.ofFloat (-(UInt64.ofNat word).toFloat))
  else .integer (-(word : Int))

/-- What follows the whole part of a number. -/
def afterWhole (negative : Bool) (word : Nat) (exponent : Nat) (chars : List Char) : Scan :=
  match chars with
  | '.' :: rest => fractionPart negative word exponent rest
  | 'e' :: rest => exponentPart negative word exponent rest
  | 'E' :: rest => exponentPart negative word exponent rest
  | _ =>
    if exponent = 0 then (.number (wholeNumber negative word), chars)
    else (scaled negative word exponent, chars)

/-- A number behind its sign. -/
def numberPart (negative : Bool) (chars : List Char) : Scan :=
  match chars with
  | [] => (.malformed .endInValue, [])
  | '0' :: rest =>
    match rest with
    | next :: _ =>
      if next.isDigit then (.malformed .invalidNumber, rest) else afterWhole negative 0 0 rest
    | [] => afterWhole negative 0 0 rest
  | first :: _ =>
    if first.isDigit then
      let run := chars.takeWhile Char.isDigit
      let rest := chars.dropWhile Char.isDigit
      let (word, dropped) := absorb 0 run
      afterWhole negative word dropped.length rest
    else (.malformed .invalidNumber, chars)

/-- The value of a digit in base sixteen. -/
def hexValue? (char : Char) : Option Nat :=
  if '0' ≤ char ∧ char ≤ '9' then some (char.toNat - '0'.toNat)
  else if 'a' ≤ char ∧ char ≤ 'f' then some (char.toNat - 'a'.toNat + 10)
  else if 'A' ≤ char ∧ char ≤ 'F' then some (char.toNat - 'A'.toNat + 10)
  else none

/-- Four digits of an escape. They are looked for in the next four bytes of the text. -/
def hexEscape (chars : List Char) : Except JsonError (Nat × List Char) :=
  if (chars.foldl (fun size char => size + char.utf8Size) 0) < 4 then .error .endInString
  else
    match (chars.take 4).mapM hexValue? with
    | some digits => .ok (digits.foldl (fun value digit => value * 16 + digit) 0, chars.drop 4)
    | none => .error .invalidEscape

/-- The character of an escape after its letter `u`. A leading surrogate needs its second
half to follow as an escape of its own. -/
def unicodeEscape (chars : List Char) : Except JsonError (Char × List Char) := do
  let (first, rest) ← hexEscape chars
  if 0xDC00 ≤ first ∧ first ≤ 0xDFFF then throw .loneSurrogate
  else if 0xD800 ≤ first ∧ first ≤ 0xDBFF then
    match rest with
    | '\\' :: 'u' :: more =>
      let (second, rest) ← hexEscape more
      if 0xDC00 ≤ second ∧ second ≤ 0xDFFF then
        pure (Char.ofNat ((first - 0xD800) * 0x400 + (second - 0xDC00) + 0x10000), rest)
      else throw .loneSurrogate
    | [] => throw .endInString
    | ['\\'] => throw .endInString
    | _ => throw .unexpectedEndOfHexEscape
  else pure (Char.ofNat first, rest)

/-- The character that a one-letter escape stands for. -/
def simpleEscape? (char : Char) : Option Char :=
  if char = '"' then some '"'
  else if char = '\\' then some '\\'
  else if char = '/' then some '/'
  else if char = 'b' then some (Char.ofNat 8)
  else if char = 'f' then some (Char.ofNat 12)
  else if char = 'n' then some '\n'
  else if char = 'r' then some '\r'
  else if char = 't' then some '\t'
  else none

/-- The characters of a string after its opening quote. -/
def stringPart : Nat → List Char → List Char → Scan
  | 0, _, chars => (.malformed .endInString, chars)
  | _ + 1, _, [] => (.malformed .endInString, [])
  | fuel + 1, read, char :: rest =>
    if char = '"' then (.string (String.ofList read.reverse), rest)
    else if char = '\\' then
      match rest with
      | [] => (.malformed .endInString, [])
      | letter :: more =>
        if letter = 'u' then
          match unicodeEscape more with
          | .error cause => (.malformed cause, more)
          | .ok (char, after) => stringPart fuel (char :: read) after
        else match simpleEscape? letter with
          | some char => stringPart fuel (char :: read) more
          | none => (.malformed .invalidEscape, more)
    else if char.toNat < 0x20 then (.malformed .controlCharacter, rest)
    else stringPart fuel (char :: read) rest

/-- The token that starts with the given character. -/
def scan (first : Char) (rest : List Char) : Scan :=
  if first = '\x7b' then (.openBrace, rest)
  else if first = '\x7d' then (.closeBrace, rest)
  else if first = '[' then (.openBracket, rest)
  else if first = ']' then (.closeBracket, rest)
  else if first = ',' then (.comma, rest)
  else if first = ':' then (.colon, rest)
  else if first = '"' then stringPart (rest.length + 1) [] rest
  else if first = 'n' then literal .null ['u', 'l', 'l'] rest
  else if first = 't' then literal (.bool true) ['r', 'u', 'e'] rest
  else if first = 'f' then literal (.bool false) ['a', 'l', 's', 'e'] rest
  else if first = '-' then numberPart true rest
  else if first.isDigit then numberPart false (first :: rest)
  else (.malformed .expectedValue, rest)

def isMalformed : JsonToken → Bool
  | .malformed _ => true
  | _ => false

/-- The tokens of a text up to the first malformed one. -/
def scanAll : Nat → List Char → List JsonToken
  | 0, _ => []
  | _ + 1, [] => []
  | fuel + 1, first :: rest =>
    if isSpace first then scanAll fuel rest
    else
      let (token, after) := scan first rest
      if token.isMalformed then [token] else token :: scanAll fuel after

/-- Cut a text into tokens. -/
def ofText (text : String) : List JsonToken :=
  let chars := text.toList
  scanAll (chars.length + 1) chars

end JsonToken

end OpsContent
