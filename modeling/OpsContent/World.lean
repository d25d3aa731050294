import OpsContent.Disk.Tree
import OpsContent.Failure

/-!
# The world of a synchronization

An export or import reads and writes the disk, talks to a server, draws tags for scratch names
and writes a log. The disk is kept apart from the rest, the *site*: an action that is typed over
the site cannot touch a file.

The server is seen only through the state that its answers depend on, so that every behaviour
of a server is some action on that state.
-/

namespace OpsContent

/-- How serious a message of the log is. -/
inductive Severity where
  | warning
  | error
  deriving DecidableEq

/-- A message of the log. -/
structure LogLine where
  severity : Severity
  message : String
  deriving DecidableEq

def LogLine.text (line : LogLine) : String :=
  (if line.severity = .warning then "WARN " else "ERROR ") ++ line.message

/-- All but the disk: log, tags and the state of the server. -/
structure Site (ρ : Type) where
  /-- Lines of the log, oldest first. -/
  log : List LogLine := []
  /-- The tags that are drawn one after another. -/
  tags : Nat → String
  /-- How many tags were drawn. -/
  drawn : Nat := 0
  remote : ρ

/-- All that the program reads and changes. -/
structure World (ρ : Type) where
  disk : Disk
  site : Site ρ

/-- A step at a site that may fail. -/
abbrev SiteAction (ρ ε : Type) := ExceptT ε (StateM (Site ρ))

abbrev Action (ρ ε : Type) := ExceptT ε (StateM (World ρ))

/-- A step of a synchronization. -/
abbrev Sync (ρ : Type) := Action ρ SyncError

namespace Site

variable {ρ : Type}

/-- Add a message to the log. -/
def note (severity : Severity) (message : String) : StateM (Site ρ) Unit :=
  modify fun site => { site with log := site.log ++ [⟨severity, message⟩] }

def warn (message : String) : StateM (Site ρ) Unit :=
  note .warning message

def report (message : String) : StateM (Site ρ) Unit :=
  note .error message

/-- A name with a new tag. -/
def uniqueName (stem : String) : StateM (Site ρ) String := fun site =>
  (stem ++ "-" ++ site.tags site.drawn, { site with drawn := site.drawn + 1 })

end Site

namespace World

variable {ρ ε : Type} {α : Type}

/-- Take a step at the site. -/
def onSite (step : StateM (Site ρ) α) : StateM (World ρ) α := fun world =>
  let (value, site) := step world.site
  (value, { world with site })

/-- Take a step on the disk. -/
def onDisk (step : StateM Disk α) : StateM (World ρ) α := fun world =>
  let (value, disk) := step world.disk
  (value, { world with disk })

def readDisk : StateM (World ρ) Disk := fun world => (world.disk, world)

/-- A step that cannot fail. -/
def always {σ ε α : Type} (step : StateM σ α) : ExceptT ε (StateM σ) α := fun state =>
  let (value, state) := step state
  (.ok value, state)

/-- Read the disk. -/
def look : Action ρ ε Disk := fun world => (.ok world.disk, world)

/-- Take an outcome as it is. -/
def settle {σ ε α : Type} (outcome : Except ε α) : ExceptT ε (StateM σ) α := fun state =>
  (outcome, state)

/-- Take steps on the disk; their errors are those of a synchronization. -/
def files (steps : DiskAction α) : Sync ρ α := fun world =>
  match onDisk steps world with
  | (.ok value, world) => (.ok value, world)
  | (.error cause, world) => (.error (.io cause), world)

/-- Go on whether the steps fail or not. -/
def outcomeOf {σ ε δ α : Type} (steps : ExceptT ε (StateM σ) α) :
    ExceptT δ (StateM σ) (Except ε α) :=
  always steps

/-- Run steps, then a last step whether they failed or not. -/
def concluding {σ ε α : Type} (steps : ExceptT ε (StateM σ) α) (last : StateM σ Unit) :
    ExceptT ε (StateM σ) α := fun state =>
  let (outcome, state) := steps state
  let ((), state) := last state
  (outcome, state)

end World

end OpsContent
