import OpsContent.Cli.Value

/-!
# Reading one level of a command line

A command line has two levels: the words up to the name of a command, and the words behind it.
Each has its own flags. A flag whose value is a word of its own waits for that word, and the
value is read only when the next flag is met or the words end. So a word for which there is no
place is found before a value that cannot be read.
-/

namespace OpsContent.Cli

/-- What a flag does. -/
inductive Role where
  | switch
  | counter
  | help
  | version
  | value (kind : ValueKind)
  deriving DecidableEq

/-- A flag under its names. -/
structure Flag where
  long : String
  short : Option Char := none
  role : Role
  /-- The variable of the environment that stands in for the flag. -/
  variableName : Option String := none
  deriving DecidableEq

/-- What stands without a flag. -/
structure Operand where
  kind : ValueKind
  many : Bool := false
  required : Bool := false
  deriving DecidableEq

/-- The flags, operands and commands that may stand at one point of a command line. -/
structure Level where
  flags : List Flag
  operand : Option Operand := none
  /-- Names of commands, which begin the next level. -/
  commands : List String := []

/-- Words that are not read yet. -/
inductive Pending where
  | nothing
  /-- A flag with its value, or waiting for it. -/
  | flag (name : String) (kind : ValueKind) (text : Option String)
  | operands (kind : ValueKind) (texts : List String)
  deriving DecidableEq

/-- What the words of a level have said so far. -/
structure Given where
  /-- Values by the long names of flags. -/
  values : List (String × Value) := []
  operands : List Value := []
  /-- Values from the environment, for flags that are not among the words. -/
  fallback : List (String × Value) := []
  pending : Pending := .nothing

namespace Given

/-- Was the flag given? -/
def has (given : Given) (name : String) : Bool :=
  given.values.any fun entry => entry.1 == name

/-- Is a flag still without its value? -/
def awaits (given : Given) : Bool :=
  match given.pending with
  | .flag _ _ none => true
  | _ => false

def hasOperand (given : Given) : Bool :=
  match given.pending with
  | .operands .. => true
  | _ => !given.operands.isEmpty

/-- Put down the value of a flag, which may be given once. -/
def record (given : Given) (name : String) (value : Except Stop Value) : Except Stop Given :=
  if given.has name then .error .repeatedFlag
  else value.map fun value => { given with values := given.values ++ [(name, value)] }

/-- Read what is pending. -/
def settle (given : Given) : Except Stop Given :=
  let rest := { given with pending := .nothing }
  match given.pending with
  | .nothing => .ok rest
  | .flag _ _ none => .error .invalidValue
  | .flag name kind (some text) => rest.record name (kind.read text)
  | .operands kind texts => do
      let values ← texts.mapM kind.read
      pure { rest with operands := rest.operands ++ values }

def largestCount : Nat := 255

/-- Count one more use of a flag. -/
def count (given : Given) (name : String) : Given :=
  let before := match given.values.lookup name with
    | some (.number count) => count
    | _ => 0
  let others := given.values.filter fun entry => entry.1 != name
  { given with values := others ++ [(name, .number (min (before + 1) largestCount))] }

/-- Take a flag without attached value. -/
def take (given : Given) (flag : Flag) : Except Stop Given := do
  let given ← given.settle
  match flag.role with
  | .switch => given.record flag.long (.ok .on)
  | .counter => pure (given.count flag.long)
  | .help => throw .help
  | .version => throw .version
  | .value kind => pure { given with pending := .flag flag.long kind none }

/-- Take a flag with a value attached to it. -/
def takeAttached (given : Given) (flag : Flag) (text : String) : Except Stop Given :=
  match flag.role with
  | .value kind => do
      let given ← given.settle
      given.record flag.long (kind.read text)
  | _ => .error .unexpectedValue

/-- Give the waiting flag its value. -/
def supply (given : Given) (text : String) : Given :=
  match given.pending with
  | .flag name kind _ => { given with pending := .flag name kind (some text) }
  | _ => given

end Given

namespace Level

/-- Why a word has no place on a level. Where a command is expected, any word is taken for its
name, unless it is one and stands behind the end of flags. -/
def noPlace (level : Level) (flagsEnded : Bool) (word : String) : Stop :=
  if level.commands.isEmpty || (flagsEnded && level.commands.contains word) then .unknownArgument
  else .unknownCommand

/-- Take a word that belongs to no flag. -/
def takeOperand (level : Level) (flagsEnded : Bool) (given : Given) (word : String) :
    Except Stop Given :=
  match level.operand with
  | none => .error (level.noPlace flagsEnded word)
  | some operand =>
    if given.hasOperand && !operand.many then .error (level.noPlace flagsEnded word)
    else
      match given.pending with
      | .operands kind texts =>
        .ok { given with pending := .operands kind (texts ++ [word]) }
      | _ => do
          let given ← given.settle
          pure { given with pending := .operands operand.kind [word] }

/-- Take a flag by its long name. -/
def takeLong (level : Level) (given : Given) (name : String) (attached : Option String) :
    Except Stop Given :=
  match level.flags.find? fun flag => flag.long == name, attached with
  | none, _ => .error .unknownArgument
  | some flag, none => given.take flag
  | some flag, some text => given.takeAttached flag text

/-- Take a flag by its letter. -/
def takeShort (level : Level) (given : Given) (letter : Char) : Except Stop Given :=
  match level.flags.find? fun flag => flag.short == some letter with
  | none => .error .unknownArgument
  | some flag => given.take flag

end Level

/-- The forms of an argument. -/
inductive Form where
  /-- Two dashes end the flags. -/
  | flagsEnd
  | long (name : String) (attached : Option String)
  | short (letters : List Char)
  | plain
  deriving DecidableEq

/-- The form of a word. A single dash is a plain word. -/
def Form.ofWord (word : String) : Form :=
  match word.toList with
  | ['-', '-'] => .flagsEnd
  | '-' :: '-' :: chars =>
    let name := String.ofList (chars.takeWhile (· != '='))
    match chars.dropWhile (· != '=') with
    | [] => .long name none
    | _ :: value => .long name (some (String.ofList value))
  | '-' :: letter :: letters => .short (letter :: letters)
  | _ => .plain

abbrev Next := Option (String × List String)

/-- Read the words of a level up to the name of a command. -/
def Level.scan (level : Level) : Given → List String → Except Stop (Given × Next)
  | given, [] => .ok (given, none)
  | given, word :: rest =>
    if !given.awaits && level.commands.contains word then .ok (given, some (word, rest))
    else
      match Form.ofWord word with
      | .flagsEnd => do
          let given ← rest.foldlM (level.takeOperand true) given
          pure (given, none)
      | .long name attached => do
          let given ← level.takeLong given name attached
          level.scan given rest
      | .short letters => do
          let given ← letters.foldlM level.takeShort given
          level.scan given rest
      | .plain =>
        if given.awaits then level.scan (given.supply word) rest
        else do
          let given ← level.takeOperand false given word
          level.scan given rest

/-- Look for a flag in the environment, unless it was given. -/
def Given.consult (environment : String → Option String) (given : Given) (flag : Flag) :
    Except Stop Given :=
  match flag.role, flag.variableName.bind environment with
  | .value kind, some text =>
    if given.has flag.long then .ok given
    else (kind.read text).map fun value =>
      { given with fallback := given.fallback ++ [(flag.long, value)] }
  | _, _ => .ok given

/-- Complete a level whose words are all taken. -/
def Level.finish (level : Level) (environment : String → Option String) (given : Given) :
    Except Stop Given := do
  let given ← given.settle
  let given ← level.flags.foldlM (Given.consult environment) given
  if level.operand.any Operand.required && given.operands.isEmpty then throw .missingArgument
  pure given

end OpsContent.Cli
