import OpsContent.Cli.Level
import OpsContent.Settings

/-!
# Invocations

What a command line asks for. Flags that concern every command may stand before or behind the
name of the command; where both are given, the one behind it counts.
-/

namespace OpsContent.Cli

/-- What an export is asked for. -/
structure ExportRequest where
  project : Path
  /-- The descriptor, if it is not the one of the project. -/
  descriptor : Option Path
  /-- The name of the package, if it is not that of the directory. -/
  name : Option String
  version : String
  connection : Layer
  deriving DecidableEq

/-- What an import is asked for. -/
structure ImportRequest where
  packages : List Path
  /-- Accepted and without effect: packages of this type are never merged. -/
  merge : Bool
  connection : Layer
  deriving DecidableEq

/-- The commands of the program. -/
inductive Command where
  | exportProject (request : ExportRequest)
  | importPackages (request : ImportRequest)
  | status (project : Path)
  | version
  | completions (shell : Shell)
  deriving DecidableEq

/-- A command with the flags that all commands share. -/
structure Invocation where
  command : Command
  config : Option Path
  json : Bool
  dryRun : Bool
  verbosity : Nat
  quiet : Bool
  deriving DecidableEq

namespace Given

/-- What was given to a flag. -/
def value? (given : Given) (name : String) : Option Value :=
  given.values.lookup name

def text? (given : Given) (name : String) : Option String :=
  match given.value? name with
  | some (.text text) => some text
  | _ => none

def path? (given : Given) (name : String) : Option Path :=
  match given.value? name with
  | some (.path path) => some path
  | _ => none

def number? (given : Given) (name : String) : Option Nat :=
  match given.value? name with
  | some (.number number) => some number
  | _ => none

def fallbackPath? (given : Given) (name : String) : Option Path :=
  match given.fallback.lookup name with
  | some (.path path) => some path
  | _ => none

/-- The operands that are paths. -/
def paths (given : Given) : List Path :=
  given.operands.filterMap fun value =>
    match value with
    | .path path => some path
    | _ => none

/-- The project, which is the current directory if none is given. -/
def project (given : Given) : Path :=
  given.paths.headD (Path.ofText ".")

/-- What the flags say about the connection. -/
def connection (given : Given) : Layer where
  host := given.text? "host"
  port := given.number? "port"
  token := given.text? "token"
  sshUser := given.text? "ssh-user"
  sshPort := given.number? "ssh-port"
  insecure := if given.has "insecure" then some true else none
  timeout := given.number? "timeout"
  scratch := given.path? "temp-dir"

def exportRequest (given : Given) : ExportRequest where
  project := given.project
  descriptor := given.path? "descriptor"
  name := given.text? "name"
  version := (given.text? "version").getD "0.0.0"
  connection := given.connection

def importRequest (given : Given) : ImportRequest where
  packages := given.paths
  merge := given.has "merge"
  connection := given.connection

def shell (given : Given) : Shell :=
  (given.operands.findSome? fun value =>
    match value with
    | .shell shell => some shell
    | _ => none).getD .bash

end Given

def valued (name : String) (kind : ValueKind) : Flag :=
  { long := name, role := .value kind }

def switch (name : String) : Flag :=
  { long := name, role := .switch }

/-- The flags of every command. -/
def commonFlags : List Flag :=
  [{ long := "config", role := .value .path, variableName := some "VRSYNC_CONFIG" },
    switch "json", switch "dry-run",
    { long := "verbose", short := some 'v', role := .counter },
    { long := "quiet", short := some 'q', role := .switch },
    { long := "help", short := some 'h', role := .help }]

/-- Flags that say how to reach the server. -/
def connectionFlags : List Flag :=
  [valued "host" .text, valued "port" .port, valued "token" .text, valued "ssh-user" .text,
    valued "ssh-port" .port, switch "insecure", valued "timeout" .seconds,
    valued "temp-dir" .path]

/-- How a command is written, and what it is made of. -/
structure CommandForm where
  name : String
  flags : List Flag := []
  operand : Option Operand := none
  command : Given → Command

def CommandForm.level (form : CommandForm) : Level :=
  { flags := form.flags ++ commonFlags, operand := form.operand }

/-- The commands that can be given. -/
def commandForms : List CommandForm :=
  [{ name := "export"
     flags := [valued "descriptor" .path, valued "name" .text, valued "version" .text] ++
      connectionFlags
     operand := some { kind := .path }
     command := fun given => .exportProject given.exportRequest },
    { name := "import"
      flags := switch "merge" :: connectionFlags
      operand := some { kind := .path, many := true, required := true }
      command := fun given => .importPackages given.importRequest },
    { name := "status"
      operand := some { kind := .path }
      command := fun given => .status given.project },
    { name := "version", command := fun _ => .version },
    { name := "completions"
      operand := some { kind := .shell, required := true }
      command := fun given => .completions given.shell }]

def helpWord : String := "help"

def commandNames : List String :=
  commandForms.map CommandForm.name ++ [helpWord]

/-- What may stand before a command. -/
def topLevel : Level where
  flags := { long := "version", short := some 'V', role := .version } :: commonFlags
  commands := commandNames

/-- Help on a command, or on all of them. -/
def helpOn : List String → Stop
  | [] => .help
  | [name] => if commandNames.contains name then .help else .unknownCommand
  | _ => .unknownCommand

/-- Why a command line without a command is refused. -/
def withoutCommand (top : Given) : Stop :=
  if top.values.isEmpty && top.fallback.isEmpty then .nothingGiven else .missingCommand

namespace Invocation

/-- Put together what both levels say. -/
def ofLevels (form : CommandForm) (top inner : Given) : Invocation where
  command := form.command inner
  config := ((inner.path? "config").or (top.path? "config")).or (inner.fallbackPath? "config")
  json := inner.has "json" || top.has "json"
  dryRun := inner.has "dry-run" || top.has "dry-run"
  verbosity := ((inner.number? "verbose").or (top.number? "verbose")).getD 0
  quiet := inner.has "quiet" || top.has "quiet"

/-- Read the words of a command line. The level behind the name of a command is completed before
the level in front of it. -/
def ofWords (environment : String → Option String) (words : List String) :
    Except Stop Invocation := do
  let (top, next) ← topLevel.scan {} words
  match next with
  | none => throw (withoutCommand (← topLevel.finish environment top))
  | some (name, rest) =>
    match commandForms.find? fun form => form.name == name with
    | none => throw (helpOn rest)
    | some form =>
      let (inner, _) ← form.level.scan {} rest
      let inner ← form.level.finish environment inner
      let top ← topLevel.finish environment top
      pure (ofLevels form top inner)

end Invocation

end OpsContent.Cli
