import Mathlib.Data.List.Forall2
import OpsContent.Metadata.Sharing
import OpsContent.Remote.Ssh

/-!
# Commands as a shell reads them

A shell cuts a line into commands and words.  It reads a quoted text as one word, whatever the text
holds, so the commands of the channel are read with exactly the words they are made of.
-/

namespace OpsContent

open List

namespace Shell

/-! ## The reader -/

def isBlank (char : Char) : Bool :=
  char == ' ' || char == '\t'

/-- Does the character mean something to the shell? -/
def isSpecial (char : Char) : Bool :=
  ['|', '&', ';', '<', '>', '(', ')', '$', '\x60', '"', '\n', '*', '?', '[', '#', '~', '=',
    '%'].contains char

def close (words : List String) (word : Option (List Char)) : List String :=
  words ++ (word.map String.ofList).toList

/-- Where a reader of words stands. -/
inductive Mode where
  | plain
  | quoted
  | escaped
  | mark

/-- Read on with the words of a command and the characters of a word, if the reader is in one.
Quotes and a backslash make characters literal, blanks end a word and `&&` ends a command.  A command
without words is refused, as is a character that is special in any other way. -/
@[simp] def readFrom (words : List String) (word : Option (List Char)) :
    Mode → List Char → Option (List (List String))
  | .plain, [] => if close words word = [] then none else some [close words word]
  | _, [] => none
  | .plain, char :: rest =>
    if char = '\'' then readFrom words (some (word.getD [])) .quoted rest
    else if char = '\\' then readFrom words word .escaped rest
    else if isBlank char then readFrom (close words word) none .plain rest
    else if char = '&' then readFrom words word .mark rest
    else if isSpecial char then none
    else readFrom words (some (word.getD [] ++ [char])) .plain rest
  | .quoted, char :: rest =>
    if char = '\'' then readFrom words word .plain rest
    else readFrom words (some (word.getD [] ++ [char])) .quoted rest
  | .escaped, char :: rest => readFrom words (some (word.getD [] ++ [char])) .plain rest
  | .mark, char :: rest =>
    if char = '&' ∧ close words word ≠ [] then
      (close words word :: ·) <$> readFrom [] none .plain rest
    else none

/-- The words of each command of a line. -/
def read (line : String) : Option (List (List String)) :=
  if line.toList.all isBlank then some [] else readFrom [] none .plain line.toList

/-! ## Words -/

/-- The spelling is read as the word, wherever it stands. -/
def Spells (spelling word : String) : Prop :=
  ∀ words rest, readFrom words none .plain (spelling.toList ++ rest) =
    readFrom words (some word.toList) .plain rest

/-- A word ends here. -/
def EndsWord (rest : List Char) : Prop :=
  ∀ words word, readFrom words (some word) .plain rest =
    readFrom (words ++ [String.ofList word]) none .plain rest

theorem endsWord_nil : EndsWord [] := fun words word => by
  simp [close]

theorem readFrom_blank (words : List String) (rest : List Char) :
    readFrom words none .plain (' ' :: rest) = readFrom words none .plain rest := by
  simp [isBlank, close]

theorem endsWord_blank (rest : List Char) : EndsWord (' ' :: rest) := fun words word => by
  simp [isBlank, close]

theorem readFrom_quotedChars (words : List String) (word chars rest : List Char) :
    readFrom words (some word) .quoted (chars.flatMap quotedChar ++ '\'' :: rest) =
      readFrom words (some (word ++ chars)) .plain rest := by
  induction chars generalizing word with
  | nil => simp
  | cons char chars ih =>
    rw [append_cons word char chars, ← ih, flatMap_cons]
    by_cases quote : char = '\''
    · simp [quotedChar, quote]
    · simp [quotedChar, quote]

/-- A quoted text is read as one word. -/
theorem spells_quote (text : String) : Spells (quote text) text := by
  intro words rest
  have chars : (quote text).toList ++ rest =
      '\'' :: (text.toList.flatMap quotedChar ++ '\'' :: rest) := by
    simp [quote, quoteChars]
  have inside := readFrom_quotedChars words [] text.toList rest
  rw [nil_append] at inside
  rw [chars, ← inside]
  simp

def isPlain (char : Char) : Bool :=
  !isBlank char && !isSpecial char && char != '\'' && char != '\\'

theorem readFrom_plain {words : List String} {word : Option (List Char)} {char : Char}
    {rest : List Char} (plain : isPlain char) :
    readFrom words word .plain (char :: rest) =
      readFrom words (some (word.getD [] ++ [char])) .plain rest := by
  simp only [isPlain, Bool.and_eq_true, Bool.not_eq_true', bne_iff_ne] at plain
  obtain ⟨⟨⟨blank, special⟩, quote⟩, backslash⟩ := plain
  have ampersand : char ≠ '&' := by
    rintro rfl
    exact absurd special (by decide)
  simp [quote, backslash, blank, special, ampersand]

theorem spells_plain {text : String}
    (plain : (text.toList != [] && text.toList.all isPlain)) : Spells text text := by
  intro words rest
  obtain ⟨notEmpty, plain⟩ := Bool.and_eq_true_iff.1 plain
  obtain ⟨first, chars, split⟩ := exists_cons_of_ne_nil (bne_iff_ne.1 notEmpty)
  rw [split, all_cons, Bool.and_eq_true] at plain
  rw [split, cons_append, readFrom_plain plain.1]
  suffices general : ∀ read, readFrom words (some read) .plain (chars ++ rest) =
      readFrom words (some (read ++ chars)) .plain rest from general [first]
  replace plain := plain.2
  clear split
  induction chars with
  | nil => simp
  | cons char chars ih =>
    intro read
    rw [all_cons, Bool.and_eq_true] at plain
    rw [cons_append, readFrom_plain plain.1, ih plain.2]
    simp

/-! ## Lines -/

theorem readFrom_words {spellings added : List String}
    (spelled : List.Forall₂ Spells spellings added) (words : List String) {rest : List Char}
    (ends : EndsWord rest) :
    readFrom words none .plain ((" ".intercalate spellings).toList ++ rest) =
      readFrom (words ++ added) none .plain rest := by
  induction spelled generalizing words with
  | nil => simp
  | @cons spelling word spellings added first later ih =>
    cases spellings with
    | nil =>
      cases later
      rw [String.intercalate_singleton, first, ends, String.ofList_toList]
    | cons second others =>
      have blank : (" ".intercalate (spelling :: second :: others)).toList ++ rest =
          spelling.toList ++ ' ' :: ((" ".intercalate (second :: others)).toList ++ rest) := by
        simp [String.intercalate_cons_of_ne_nil]
      rw [blank, first, endsWord_blank, String.ofList_toList, readFrom_blank, ih, append_assoc,
        singleton_append]

theorem readFrom_commands {lines commands : List (List String)}
    (spelled : List.Forall₂ (List.Forall₂ Spells) lines commands) (notEmpty : lines ≠ [])
    (filled : ∀ command ∈ commands, command ≠ []) :
    readFrom [] none .plain (" && ".intercalate (lines.map (" ".intercalate ·))).toList =
      some commands := by
  induction spelled with
  | nil => exact absurd rfl notEmpty
  | @cons line command lines commands first later ih =>
    have words := filled command (by simp)
    cases lines with
    | nil =>
      cases later
      have reads := readFrom_words first [] endsWord_nil
      rw [append_nil] at reads
      rw [map_singleton, String.intercalate_singleton, reads]
      simp [close, words]
    | cons second others =>
      have behind : ∀ rest, readFrom command none .plain ('&' :: '&' :: ' ' :: rest) =
          (command :: ·) <$> readFrom [] none .plain rest := fun rest => by
        simp [isBlank, close, words]
      have split : (" && ".intercalate ((line :: second :: others).map (" ".intercalate ·))).toList =
          (" ".intercalate line).toList ++ ' ' :: '&' :: '&' :: ' ' ::
            (" && ".intercalate ((second :: others).map (" ".intercalate ·))).toList := by
        simp [String.intercalate_cons_of_ne_nil]
      rw [split, readFrom_words first [] (endsWord_blank _), readFrom_blank, nil_append, behind,
        ih (by simp) (forall_mem_cons.1 filled).2]
      rfl

theorem readFrom_blanks {chars : List Char} (blank : chars.all isBlank) :
    readFrom [] none .plain chars = none := by
  induction chars with
  | nil => simp [close]
  | cons char chars ih =>
    rw [all_cons, Bool.and_eq_true] at blank
    have quote : char ≠ '\'' := by
      rintro rfl
      exact absurd blank.1 (by decide)
    have backslash : char ≠ '\\' := by
      rintro rfl
      exact absurd blank.1 (by decide)
    simpa [quote, backslash, blank.1, close] using ih blank.2

theorem read_eq_some {line : String} {commands : List (List String)}
    (reads : readFrom [] none .plain line.toList = some commands) : read line = some commands := by
  rw [read, if_neg, reads]
  intro blank
  rw [readFrom_blanks blank] at reads
  cases reads

/-- Spelled words are read as one command. -/
theorem read_command {spellings words : List String} (spelled : List.Forall₂ Spells spellings words)
    (filled : words ≠ []) : read (" ".intercalate spellings) = some [words] := by
  apply read_eq_some
  have reads := readFrom_words spelled [] endsWord_nil
  rw [append_nil] at reads
  rw [reads]
  simp [close, filled]

end Shell

namespace Ssh

open Shell

/-- The words of the command that imports a file. -/
def importWords : ChannelKind → String → List String
  | .view, file => [tool, "view", "import", file, "--force"]
  | .dashboard, file => [tool, "dashboard", "import", "admin", file, "--force"]
  | .report, file => [tool, "report", "import", file, "--force"]
  | .superMetric, file => [tool, "supermetric", "import", file, "--force"]
  | .metricConfig, file => [tool, "file", "import", "reskndmetric", file, "--force"]

theorem importCommand_eq (kind : ChannelKind) (file : String) :
    importCommand kind file = " ".intercalate (importWords kind (quote file)) := by
  cases kind <;>
    simp [importCommand, importWords, toolWords, actionWords, owner, ← String.toList_inj,
      String.intercalate_cons_of_ne_nil]

theorem spelled_importWords (kind : ChannelKind) (file : String) :
    List.Forall₂ Spells (importWords kind (quote file)) (importWords kind file) := by
  have fixed : ∀ word ∈ [tool, "view", "dashboard", "report", "supermetric", "file", "import",
      "admin", "reskndmetric", "--force"], Spells word word :=
    fun word member => spells_plain (by revert word; decide)
  cases kind <;> simp [importWords, spells_quote, fixed]

def sharingWords (action : SharingAction) (operands : List String) : List String :=
  [tool, "dashboard", action.word, "admin"] ++ operands

theorem sharingCommand_eq (action : SharingAction) (name : String) (groups : List String) :
    sharingCommand action.word name groups =
      " ".intercalate (sharingWords action ((name :: groups).map quote)) := by
  simp [sharingCommand, sharingWords, owner, ← String.toList_inj,
    String.intercalate_cons_of_ne_nil]

theorem spelled_sharingWords (action : SharingAction) (operands : List String) :
    List.Forall₂ Spells (sharingWords action (operands.map quote))
      (sharingWords action operands) := by
  have fixed : ∀ word ∈ [tool, "dashboard", "admin", "share", "unshare"], Spells word word :=
    fun word member => spells_plain (by revert word; decide)
  have quoted : List.Forall₂ Spells (operands.map quote) operands := by
    induction operands with
    | nil => exact .nil
    | cons operand rest ih => exact .cons (spells_quote operand) ih
  cases action <;> simp [sharingWords, SharingAction.word, fixed, quoted]

/-- Commands cannot be broken out of.  A shell reads a quoted text as one word, the line that imports
queued files as one command for each of them in their order, with the file as one word, and a command
that shares or revokes a dashboard with its name and its groups as words of their own. -/
theorem read_commands (directory : String) (pending : List Pending) (text name : String)
    (groups : List String) (action : SharingAction) :
    Shell.read (quote text) = some [[text]] ∧
      Shell.read (importScript directory pending) = some (pending.map fun file =>
        importWords file.kind (directory ++ "/" ++ file.kind.assetKind.directory ++ "/" ++
          file.file.fileName?.getD "")) ∧
      Shell.read (sharingCommand action.word name groups) =
        some [sharingWords action (name :: groups)] := by
  refine ⟨?_, ?_, ?_⟩
  · have reads := read_command (.cons (spells_quote text) .nil) (by simp)
    rwa [String.intercalate_singleton] at reads
  · by_cases empty : pending = []
    · simp [empty, importScript, Shell.read]
    · have script : importScript directory pending = " && ".intercalate
          ((pending.map fun file => importWords file.kind (quote (remoteFile directory file))).map
            (" ".intercalate ·)) := by
        simp only [importScript, importCommand_eq, List.map_map]
        rfl
      apply read_eq_some
      rw [script]
      refine readFrom_commands ?_ (by simpa using empty) ?_
      · rw [List.forall₂_map_left_iff, List.forall₂_map_right_iff, List.forall₂_same]
        exact fun file _ => spelled_importWords _ _
      · intro command member
        obtain ⟨file, -, rfl⟩ := List.mem_map.1 member
        cases file.kind <;> simp [importWords]
  · rw [sharingCommand_eq]
    exact read_command (spelled_sharingWords action _) (by simp [sharingWords])

end Ssh

end OpsContent
