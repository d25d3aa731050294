import OpsContent.Cli.Summary
import OpsContent.Remote.Part
import OpsContent.Remote.Rest
import OpsContent.Synchronization

/-!
# Running commands

A command works on the disk and on a server. The server is reached through a transport for
requests and a launcher for programs, so that every server that these can show is covered.
-/

namespace OpsContent.Cli

/-- What the program reads of the system around it. -/
structure Surroundings where
  home : Path
  environment : Layer.Environment

/-- How results are shown. -/
structure Presentation where
  json : Bool
  colors : Bool

abbrev Link (τ σ : Type) := τ × Ssh.State σ

/-- How servers are reached. -/
structure Access (τ σ : Type) where
  transport : Http.Transport τ
  launcher : Ssh.Launcher σ

variable {τ σ : Type}

abbrev Step (τ σ : Type) := Action (Link τ σ) Failure

def ofSync {α : Type} (steps : Sync (Link τ σ) α) : Step τ σ α := fun world =>
  let (outcome, world) := steps world
  (outcome.mapError Failure.sync, world)

/-- Open a channel that has not been used, with a scratch directory of its own. -/
def openChannel : StateM (World (Link τ σ)) Unit :=
  World.onSite do
    let directory ← Ssh.freshDirectory
    modify fun site =>
      { site with remote := (site.remote.1, { directory, server := site.remote.2.server }) }

/-- Make the interfaces to the server that the settings name. -/
def connect (access : Access τ σ) (settings : Settings) :
    Step τ σ (Synchronizer (Link τ σ)) := do
  World.settle settings.validate
  let client ← World.settle
    ((Rest.Client.make settings.url (settings.token.getD "")).mapError Failure.remote)
  World.always openChannel
  pure {
    query := Part.first.query (Rest.query client access.transport)
    channel := Part.second.channel
      (Ssh.channel (Ssh.Address.ofSettings settings) access.launcher)
    scratch := settings.workspace }

/-- Resolve the settings and connect. -/
def connectWith (access : Access τ σ) (surroundings : Surroundings) (flags : Layer)
    (config : Option Path) : Step τ σ (Synchronizer (Link τ σ)) := do
  let disk ← World.look
  let settings ← World.settle
    (Settings.resolve disk surroundings.home flags config surroundings.environment)
  connect access settings

/-- The name of a package that is not named: that of its directory. -/
def directoryName (disk : Disk) (project : Path) : String :=
  let name := match disk.locate project with
    | .ok location => location.getLast?
    | .error _ => project.fileName?
  name.getD "package"

/-- The package that an export makes. -/
def ExportRequest.package (request : ExportRequest) (disk : Disk) : Package where
  path := request.project
  name := request.name.getD (directoryName disk request.project)
  type := Package.defaultType
  id := none
  version := request.version

/-- The descriptor that is asked for, or the one of the project. -/
def ExportRequest.readDescriptor (request : ExportRequest) (disk : Disk) :
    Except Failure Descriptor :=
  let path := request.descriptor.getD (request.project.join Descriptor.fileName)
  if disk.isFile path then (Descriptor.ofFile disk path).mapError Failure.sync
  else .error (.descriptorNotFound path)

/-- Run the export command. -/
def runExport (access : Access τ σ) (surroundings : Surroundings) (config : Option Path)
    (dryRun : Bool) (presentation : Presentation) (request : ExportRequest) :
    Step τ σ String := do
  let disk ← World.look
  let descriptor ← World.settle (request.readDescriptor disk)
  let package := request.package disk
  let synchronizer ← connectWith access surroundings request.connection config
  let stats ← ofSync (synchronizer.exportPackage package descriptor dryRun)
  pure (if presentation.json then ofData (exportJson package stats dryRun)
    else exportText package stats dryRun)

/-- Run the import command. -/
def runImport (access : Access τ σ) (surroundings : Surroundings) (config : Option Path)
    (dryRun : Bool) (presentation : Presentation) (request : ImportRequest) :
    Step τ σ String := do
  let packages := request.packages.map Package.ofPath
  let synchronizer ← connectWith access surroundings request.connection config
  let stats ← ofSync (synchronizer.importPackages packages dryRun)
  pure (if presentation.json then ofData (importJson packages stats dryRun)
    else importText packages stats dryRun)

/-- Run a command. Its outcome is what it prints. -/
def run (access : Access τ σ) (surroundings : Surroundings) (presentation : Presentation)
    (invocation : Invocation) : Step τ σ String :=
  match invocation.command with
  | .exportProject request =>
    runExport access surroundings invocation.config invocation.dryRun presentation request
  | .importPackages request =>
    runImport access surroundings invocation.config invocation.dryRun presentation request
  | .status project => do
      let disk ← World.look
      let status ← World.settle (ProjectStatus.ofDisk disk project)
      pure (if presentation.json then ofData status.toJson
        else statusText presentation.colors status)
  | .version => pure (if presentation.json then ofData versionJson else versionText)
  | .completions shell => pure (completionText shell)

/-- What the program leaves when it ends. -/
structure Ending where
  exit : Nat
  output : String
  /-- What goes to standard error. -/
  complaint : String
  deriving DecidableEq

def usageLine : String :=
  "Usage: " ++ programName ++ " [OPTIONS] <" ++ "|".intercalate commandNames ++ ">"

/-- What is wrong with a command line. -/
def Stop.message : Stop → String
  | .help | .version | .nothingGiven => ""
  | .missingCommand => "error: a command has to be given"
  | .unknownCommand => "error: unknown command"
  | .unknownArgument => "error: unexpected argument"
  | .missingArgument => "error: an argument has to be given"
  | .invalidValue => "error: invalid value"
  | .malformedNumber => "error: invalid number"
  | .repeatedFlag => "error: a flag is given more than once"
  | .unexpectedValue => "error: a flag takes no value"

/-- The end of a program that has nothing to run. -/
def Stop.ending : Stop → Ending
  | .help => ⟨0, ofLines [usageLine], ""⟩
  | .version => ⟨0, ofLines [programName ++ " " ++ programVersion], ""⟩
  | .nothingGiven => ⟨2, "", ofLines [usageLine]⟩
  | stop => ⟨2, "", ofLines [stop.message, "", usageLine]⟩

/-- A failure as text, with a hint if there is one. -/
def failureText (failure : Failure) : String :=
  match failure.hint? with
  | some hint => ofLines ["Error: " ++ failure.message, "  Hint: " ++ hint]
  | none => ofLines ["Error: " ++ failure.message]

/-- The end of a program whose command failed. Programs that read the failure are told even when
people want quiet. -/
def failureEnding (json quiet : Bool) (failure : Failure) : Ending where
  exit := failure.exitStatus
  output := ""
  complaint :=
    if json then ofData failure.toJson else if quiet then "" else failureText failure

def Ending.ofOutcome (json quiet : Bool) : Except Failure String → Ending
  | .ok output => ⟨0, output, ""⟩
  | .error failure => failureEnding json quiet failure

/-- The whole program. Unless its output is a terminal, it is taken to be read by a program. -/
def program (access : Access τ σ) (surroundings : Surroundings) (terminal : Bool)
    (words : List String) : StateM (World (Link τ σ)) Ending :=
  match Invocation.ofWords surroundings.environment words with
  | .error stop => pure stop.ending
  | .ok invocation => fun world =>
    let json := invocation.json || !terminal
    let colors := Ink.wanted surroundings.environment terminal
    let (outcome, world) := run access surroundings ⟨json, colors⟩ invocation world
    (.ofOutcome json invocation.quiet outcome, world)

end OpsContent.Cli
