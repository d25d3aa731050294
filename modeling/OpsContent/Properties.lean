import OpsContent.Text.Blank
import OpsContent.Text.Bytes

/-!
# Property files

A property file is a sequence of entries, each a key with a value. An entry may go on over
several lines: a line that ends in an odd number of backslashes is continued by the next one.
Filtering keeps the entries whose key starts with a given text, line by line as they stand,
and drops everything else.
-/

namespace OpsContent.Properties

abbrev Line := List Char

def dropReturn (line : Line) : Line :=
  if line.getLast? = some '\r' then line.dropLast else line

/-- The lines of a text. A line ends in a line feed, or in a carriage return directly before
it; the last line may lack its end. -/
def lines (chars : List Char) : List Line :=
  let parts := chars.splitOn '\n'
  let last := parts.getLast?.getD []
  parts.dropLast.map dropReturn ++ (if last.isEmpty then [] else [last])

/-- Does the entry go on in the next line? -/
def continues (line : Line) : Bool :=
  (line.reverse.takeWhile (· == '\\')).length % 2 == 1

/-- Is the line blank or a comment? -/
def isSkipped (line : Line) : Bool :=
  match Text.trimStart line with
  | [] => true
  | first :: _ => first == '#' || first == '!'

/-- What a character stands for behind a backslash. -/
def unescaped (char : Char) : Char :=
  if char = 't' then '\t'
  else if char = 'n' then '\n'
  else if char = 'r' then '\r'
  else if char = 'f' then Char.ofNat 12
  else char

/-- Does a key end here? -/
def endsKey (char : Char) : Bool :=
  char == '=' || char == ':' || char == ' ' || char == '\t' || char.toNat == 12

/-- The key that an entry begins with. -/
def key : Line → List Char
  | [] => []
  | '\\' :: [] => []
  | '\\' :: char :: rest => unescaped char :: key rest
  | char :: rest => if endsKey char then [] else char :: key rest

/-- The lines that go on the entry of the given line, and the lines after the entry. -/
def continuation (line : Line) : List Line → List Line × List Line
  | [] => ([], [])
  | next :: rest =>
    if continues line then
      let (more, left) := continuation next rest
      (next :: more, left)
    else ([], next :: rest)

/-- What is left after an entry is no longer than what stood behind its first line. -/
theorem continuation_length (line : Line) (rest : List Line) :
    (continuation line rest).2.length ≤ rest.length := by
  induction rest generalizing line with
  | nil => simp [continuation]
  | cons next rest ih =>
    rw [continuation]
    split
    · exact Nat.le_succ_of_le (ih next)
    · exact Nat.le_refl _

/-- An entry and what follows it are together the lines after its first one. -/
theorem continuation_append (line : Line) (rest : List Line) :
    (continuation line rest).1 ++ (continuation line rest).2 = rest := by
  induction rest generalizing line with
  | nil => rfl
  | cons next rest ih =>
    rw [continuation]
    split
    · simpa using ih next
    · rfl

/-- The lines of the entries whose key starts with the given characters. -/
def select (start : List Char) (all : List Line) : List Line :=
  match all with
  | [] => []
  | line :: rest =>
    if isSkipped line then select start rest
    else
      let entry := continuation line rest
      if start.isPrefixOf (key (Text.trimStart line)) then
        (line :: entry.1) ++ select start entry.2
      else select start entry.2
termination_by all.length
decreasing_by
  · exact Nat.lt_succ_self _
  · exact Nat.lt_succ_of_le (continuation_length line rest)
  · exact Nat.lt_succ_of_le (continuation_length line rest)

def filterChars (start chars : List Char) : List Char :=
  (select start (lines chars)).flatMap fun line => line ++ ['\n']

/-- The entries whose keys begin in a given way. -/
def filter (content start : String) : String :=
  String.ofList (filterChars start.toList content.toList)

/-- Keep the entries of a file whose key starts with the given text. A file that is not valid
UTF-8 is read as ISO-8859-1. -/
def filterBytes (content : Bytes) (start : String) : Bytes :=
  match content.toText? with
  | some text => Bytes.ofText (filter text start)
  | none => Bytes.ofLatinChars (filterChars start.toList content.latinChars)

end OpsContent.Properties
