import OpsContent.Remote.Channel
import OpsContent.Remote.Shell
import OpsContent.Settings

/-!
# The command channel over a secure shell

Commands run on the server by `ssh`, and files move by `scp`. Exports write into a scratch
directory on the server and are copied back. Queued files are uploaded with one `scp` for each
kind, every kind into a directory of its own, and are then imported by one line of commands.
-/

namespace OpsContent.Ssh

variable {ρ : Type}

/-- A program that is run with arguments. -/
structure Invocation where
  program : String
  arguments : List String
  deriving DecidableEq

/-- Can the system pass the arguments on? -/
def Invocation.isPassable (invocation : Invocation) : Bool :=
  invocation.arguments.all fun word => !Text.holds word (Char.ofNat 0)

/-- How a program ends. -/
inductive Ending where
  | cannotStart (cause : IoError)
  | exit (code : Nat)
  | signal (number : Nat)
  deriving DecidableEq

/-- What a program does: how it ends, what it says, and the files it leaves behind by their
paths below the directory it writes to. -/
structure Outcome where
  ending : Ending := .exit 0
  complaint : Bytes := []
  files : List (String × Option Bytes) := []

/-- How programs are run. -/
abbrev Launcher (ρ : Type) := Invocation → StateM ρ Outcome

/-- A launcher that gives prepared outcomes one after another and keeps the invocations of
programs that were started. -/
structure Script where
  outcomes : List Outcome
  /-- What happens behind the end of the script. -/
  default : Outcome := {}
  invocations : List Invocation := []

/-- Run the next program of a script. -/
def Script.launch : Launcher Script := fun invocation script =>
  let outcome := script.outcomes.headD script.default
  let outcomes := script.outcomes.tail
  match outcome.ending with
  | .cannotStart _ => (outcome, { script with outcomes })
  | _ => (outcome, { script with outcomes, invocations := script.invocations ++ [invocation] })

/-- Names of signals that end programs. -/
def signalName : Nat → String
  | 1 => " (SIGHUP)"
  | 2 => " (SIGINT)"
  | 3 => " (SIGQUIT)"
  | 4 => " (SIGILL)"
  | 5 => " (SIGTRAP)"
  | 6 => " (SIGABRT)"
  | 7 => " (SIGBUS)"
  | 8 => " (SIGFPE)"
  | 9 => " (SIGKILL)"
  | 10 => " (SIGUSR1)"
  | 11 => " (SIGSEGV)"
  | 12 => " (SIGUSR2)"
  | 13 => " (SIGPIPE)"
  | 14 => " (SIGALRM)"
  | 15 => " (SIGTERM)"
  | 16 => " (SIGSTKFLT)"
  | 17 => " (SIGCHLD)"
  | 18 => " (SIGCONT)"
  | 19 => " (SIGSTOP)"
  | 20 => " (SIGTSTP)"
  | 21 => " (SIGTTIN)"
  | 22 => " (SIGTTOU)"
  | 23 => " (SIGURG)"
  | 24 => " (SIGXCPU)"
  | 25 => " (SIGXFSZ)"
  | 26 => " (SIGVTALRM)"
  | 27 => " (SIGPROF)"
  | 28 => " (SIGWINCH)"
  | 29 => " (SIGIO)"
  | 30 => " (SIGPWR)"
  | 31 => " (SIGSYS)"
  | _ => ""

/-- Why a program failed, if it did. -/
def Outcome.failure? (program : String) (outcome : Outcome) : Option String :=
  let complaint := Text.trim outcome.complaint.toTextLossy
  match outcome.ending with
  | .cannotStart cause => some ("cannot start " ++ program ++ ": " ++ cause.message)
  | .exit 0 => none
  | .exit code =>
    some (program ++ " exited with exit status: " ++ toString code ++ ": " ++ complaint)
  | .signal number =>
    some (program ++ " exited with signal: " ++ toString number ++ signalName number ++ ": " ++
      complaint)

/-- Where the shell runs, and how it is reached. -/
structure Address where
  host : String
  user : String
  port : Nat
  acceptUnknownHosts : Bool := false
  timeout : Nat := 30

/-- The address that the settings give. -/
def Address.ofSettings (settings : Settings) : Address where
  host := settings.host.getD ""
  user := settings.sshUser
  port := settings.sshPort
  acceptUnknownHosts := settings.insecure
  timeout := settings.timeout

/-- A file that was sent and waits for its import. -/
structure Pending where
  kind : ChannelKind
  file : Path
  deriving DecidableEq

/-- A session with the server's shell. -/
structure State (ρ : Type) where
  /-- The scratch directory on the server. -/
  directory : String
  connected : Bool := false
  pending : List Pending := []
  server : ρ

namespace Address

def target (address : Address) : String :=
  address.user ++ "@" ++ address.host

/-- What every connection is made with. -/
def options (address : Address) : List String :=
  ["-o", "BatchMode=yes", "-o", "ConnectTimeout=" ++ toString address.timeout] ++
    (if address.acceptUnknownHosts then ["-o", "StrictHostKeyChecking=no"] else [])

/-- Run a command on the server. -/
def command (address : Address) (command : String) : Invocation where
  program := "ssh"
  arguments :=
    ["-p", toString address.port] ++ address.options ++ [address.target, command]

/-- Copy files from the server. -/
def download (address : Address) (files : String) (directory : Path) : Invocation where
  program := "scp"
  arguments :=
    ["-P", toString address.port] ++ address.options ++
      [address.target ++ ":" ++ files, directory.text]

/-- Copy files to the server. -/
def upload (address : Address) (files : List Path) (directory : String) : Invocation where
  program := "scp"
  arguments :=
    ["-P", toString address.port] ++ address.options ++ files.map Path.text ++
      [address.target ++ ":" ++ directory ++ "/"]

def describe (address : Address) : String :=
  "ssh -p " ++ toString address.port ++ " " ++ address.target

end Address

/-- The program on the server that exports and imports. -/
def tool : String := "/usr/lib/vmware-vcops/tools/opscli/ops-cli.sh"

/-- The user whose dashboards are meant. -/
def owner : String := "admin"

/-- How the tool calls a kind. -/
def toolWords : ChannelKind → String
  | .view => "view"
  | .dashboard => "dashboard"
  | .report => "report"
  | .superMetric => "supermetric"
  | .metricConfig => "file"

/-- What the tool wants to know for a kind. -/
def actionWords : ChannelKind → String
  | .dashboard => owner ++ " "
  | .metricConfig => "reskndmetric "
  | _ => ""

/-- The command that exports an asset. -/
def exportCommand (kind : ChannelKind) (name directory : String) : String :=
  tool ++ " " ++ toolWords kind ++ " export " ++ actionWords kind ++ name ++ " " ++ directory

/-- The command that imports a file. -/
def importCommand (kind : ChannelKind) (file : String) : String :=
  tool ++ " " ++ toolWords kind ++ " import " ++ actionWords kind ++ Shell.quote file ++ " --force"

/-- Where a pending file is on the server. -/
def remoteFile (directory : String) (pending : Pending) : String :=
  directory ++ "/" ++ pending.kind.assetKind.directory ++ "/" ++ pending.file.fileName?.getD ""

/-- Import files one after another, up to the first failure. -/
def importScript (directory : String) (pending : List Pending) : String :=
  " && ".intercalate (pending.map fun file =>
    importCommand file.kind (remoteFile directory file))

/-- The command that shares or unshares a dashboard. -/
def sharingCommand (action name : String) (groups : List String) : String :=
  tool ++ " dashboard " ++ action ++ " " ++ owner ++ " " ++
    " ".intercalate ((name :: groups).map Shell.quote)

/-- Run a program, unless its words cannot be handed over. -/
def launch (launcher : Launcher ρ) (invocation : Invocation) :
    StateM (Site (State ρ)) Outcome := fun site =>
  if invocation.isPassable then
    let (outcome, server) := launcher invocation site.remote.server
    (outcome, { site with remote := { site.remote with server } })
  else ({ ending := .cannotStart .nulInWord }, site)

/-- Run a program; anything but success is an error. -/
def run (launcher : Launcher ρ) (operation : String) (invocation : Invocation) :
    ChannelAction (State ρ) Outcome := do
  let outcome ← World.always (launch launcher invocation)
  match outcome.failure? invocation.program with
  | none => pure outcome
  | some cause => throw { operation, cause }

/-- Read the state of the session. -/
def state : ChannelAction (State ρ) (State ρ) := fun site => (.ok site.remote, site)

/-- Change the state of the session. -/
def change (update : State ρ → State ρ) : StateM (Site (State ρ)) Unit :=
  modify fun site => { site with remote := update site.remote }

/-- Refuse an operation without a connection. -/
def ensureConnected (operation : String) : ChannelAction (State ρ) Unit := do
  if !(← state).connected then throw { operation, cause := "channel is not connected" }

/-- Connect by making the scratch directory. -/
def connect (address : Address) (launcher : Launcher ρ) : ChannelAction (State ρ) Unit := do
  let current ← state
  if !current.connected then
    let _ ← run launcher "connect"
      (address.command ("mkdir -p " ++ Shell.quote current.directory))
    World.always (change fun state => { state with connected := true })

/-- Copy exported files to a directory. What arrived stays, also if the copy fails. -/
def fetch (address : Address) (launcher : Launcher ρ) (operation files : String)
    (directory : Path) : Action (State ρ) ChannelError Unit := do
  let outcome ← World.always (World.onSite
    (launch launcher (address.download files directory)))
  let _ ← World.always (World.onDisk (Disk.plant directory outcome.files))
  match outcome.failure? "scp" with
  | none => pure ()
  | some cause => throw { operation, cause }

/-- Export an asset into a fresh directory of the server and copy it. -/
def exportAsset (address : Address) (launcher : Launcher ρ) (kind : ChannelKind) (name : String)
    (directory : Path) : Action (State ρ) ChannelError Unit := do
  let operation := "export " ++ kind.words
  let onSite {α : Type} (steps : ChannelAction (State ρ) α) :
      Action (State ρ) ChannelError α := World.onSite steps
  onSite (ensureConnected operation)
  let place := (← onSite state).directory ++ "/" ++
    (← World.always (World.onSite (Site.uniqueName "export")))
  let quoted := Shell.quote place
  let _ ← onSite (run launcher operation (address.command
    ("mkdir -p " ++ quoted ++ " && " ++ exportCommand kind (Shell.quote name) quoted)))
  match ← World.outcomeOf (World.onDisk (Disk.makeDirectories directory)) with
  | .error cause =>
    throw { operation, cause := "cannot create " ++ directory.text ++ ": " ++ cause.message }
  | .ok () => fetch address launcher operation (place ++ "/*") directory

/-- Note a file for the next submission. -/
def enqueue (kind : ChannelKind) (file : Path) (disk : Disk) : ChannelAction (State ρ) Unit := do
  if !disk.isFile file then
    throw { operation := "queue import", cause := file.text ++ " is not a file" }
  World.always (change fun state => { state with pending := state.pending ++ [⟨kind, file⟩] })

/-- Upload the queued files of each kind. -/
def uploadAll (address : Address) (launcher : Launcher ρ) (directory : String)
    (pending : List Pending) : List ChannelKind → ChannelAction (State ρ) Unit
  | [] => pure ()
  | kind :: rest => do
      let files := (pending.filter (·.kind == kind)).map (·.file)
      let _ ← run launcher "upload import files"
        (address.upload files (directory ++ "/" ++ kind.assetKind.directory))
      uploadAll address launcher directory pending rest

/-- Upload and import every queued file. -/
def importFiles (address : Address) (launcher : Launcher ρ) : ChannelAction (State ρ) Unit := do
  ensureConnected "import"
  let { directory, pending, .. } ← state
  if !pending.isEmpty then
    let kinds := ChannelKind.all.filter fun kind => pending.any (·.kind == kind)
    let directories := kinds.map fun kind =>
      Shell.quote (directory ++ "/" ++ kind.assetKind.directory)
    let _ ← run launcher "prepare import"
      (address.command ("mkdir -p " ++ " ".intercalate directories))
    uploadAll address launcher directory pending kinds
    let _ ← run launcher "import" (address.command (importScript directory pending))

/-- Share a dashboard or revoke it. -/
def sharing (address : Address) (launcher : Launcher ρ) (action name : String)
    (groups : List String) : ChannelAction (State ρ) Unit := do
  let operation := action ++ " dashboard '" ++ name ++ "'"
  ensureConnected operation
  let _ ← run launcher operation (address.command (sharingCommand action name groups))

/-- Forget queued files and remove the scratch directory. -/
def cleanup (address : Address) (launcher : Launcher ρ) : StateM (Site (State ρ)) Unit := do
  change fun state => { state with pending := [] }
  let site ← get
  if site.remote.connected then
    let directory := site.remote.directory
    let outcome ← (run launcher "cleanup"
      (address.command ("rm -rf " ++ Shell.quote directory)) : StateM _ _)
    match outcome with
    | .ok _ => pure ()
    | .error cause =>
      Site.warn ("Unable to remove remote scratch directory " ++ directory ++ ": " ++
        cause.message)

/-- The command channel over the shell of the server. -/
def channel (address : Address) (launcher : Launcher ρ) : Channel (State ρ) where
  describe := fun _ => address.describe
  queued := fun state => state.pending.length
  connect := connect address launcher
  close := change fun state => { state with connected := false }
  exportAsset := exportAsset address launcher
  enqueue := enqueue
  importFiles := importFiles address launcher
  share := sharing address launcher "share"
  unshare := sharing address launcher "unshare"
  cleanup := cleanup address launcher

/-- The name of a scratch directory on the server. -/
def freshDirectory {ρ : Type} : StateM (Site ρ) String := do
  pure ("/tmp/" ++ (← Site.uniqueName "vrsync"))

end OpsContent.Ssh
