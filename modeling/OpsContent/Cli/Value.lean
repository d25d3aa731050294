import OpsContent.Decimal.Unsigned
import OpsContent.Path

/-!
# Values on a command line

What may stand behind a flag or as an operand, how its text is read, and the reasons for which a
command line names nothing to run.
-/

namespace OpsContent.Cli

/-- Why a command line names nothing to run. -/
inductive Stop where
  | help
  | version
  /-- There are no words at all. -/
  | nothingGiven
  | missingCommand
  | unknownCommand
  /-- A flag that does not exist here, or a word for which there is no place. -/
  | unknownArgument
  | missingArgument
  /-- A value is absent, empty, or none of those allowed. -/
  | invalidValue
  /-- A value is no number of the size. -/
  | malformedNumber
  /-- A flag that counts once is given twice. -/
  | repeatedFlag
  | unexpectedValue
  deriving DecidableEq

/-- The shells that completions can be made for. -/
inductive Shell where
  | bash
  | zsh
  | fish
  | powerShell
  | elvish
  deriving DecidableEq

namespace Shell

def all : List Shell := [.bash, .zsh, .fish, .powerShell, .elvish]

def name : Shell → String
  | .bash => "bash"
  | .zsh => "zsh"
  | .fish => "fish"
  | .powerShell => "power-shell"
  | .elvish => "elvish"

def ofName? (name : String) : Option Shell :=
  all.find? fun shell => shell.name == name

@[simp] theorem ofName?_name (shell : Shell) : ofName? shell.name = some shell := by
  cases shell <;> decide

end Shell

/-- A value that was given to a flag or an operand. -/
inductive Value where
  | on
  | text (value : String)
  | path (value : Path)
  | number (value : Nat)
  | shell (value : Shell)
  deriving DecidableEq

/-- What a value is read as. -/
inductive ValueKind where
  | text
  | path
  /-- A number of sixteen bits. -/
  | port
  /-- A number of sixty-four bits. -/
  | seconds
  | shell
  deriving DecidableEq

/-- The number of a port. It may have a sign, but a negative number is none. -/
def readPort (text : String) : Option Nat :=
  match text.toList with
  | '-' :: digit :: digits => if (digit :: digits).all (· == '0') then some 0 else none
  | _ => (Unsigned.read Unsigned.largest16 text).toOption

/-- Read a value. A path has at least one character, a text may have none. -/
def ValueKind.read : ValueKind → String → Except Stop Value
  | .text, word => .ok (.text word)
  | .path, word => if word.isEmpty then .error .invalidValue else .ok (.path (Path.ofText word))
  | .port, word => ((readPort word).map Value.number).elim (.error .malformedNumber) .ok
  | .seconds, word =>
    match Unsigned.read Unsigned.largest64 word with
    | .ok number => .ok (.number number)
    | .error _ => .error .malformedNumber
  | .shell, word => ((Shell.ofName? word).map Value.shell).elim (.error .invalidValue) .ok

end OpsContent.Cli
