import OpsContent.World

/-!
# The command channel

Views, dashboards, reports, super metrics and metric configs are moved by commands on the
server. A channel is connected and closed; exports write files below a given directory, and
imports are queued one by one and submitted together.

Only an export writes to the disk, and queueing reads it.
-/

namespace OpsContent

/-- The kinds of assets that go over the command channel. -/
inductive ChannelKind where
  | view
  | dashboard
  | report
  | superMetric
  | metricConfig
  deriving DecidableEq

namespace ChannelKind

def all : List ChannelKind := [.view, .dashboard, .report, .superMetric, .metricConfig]

/-- The kind among all kinds of assets. -/
def assetKind : ChannelKind → AssetKind
  | .view => .view
  | .dashboard => .dashboard
  | .report => .report
  | .superMetric => .superMetric
  | .metricConfig => .metricConfig

/-- How the kind is called in messages. -/
def words : ChannelKind → String
  | .view => "view"
  | .dashboard => "dashboard"
  | .report => "report"
  | .superMetric => "super metric"
  | .metricConfig => "metric config"

end ChannelKind

abbrev ChannelAction (ρ : Type) := SiteAction ρ ChannelError

/-- A server as the command channel shows it. -/
structure Channel (ρ : Type) where
  /-- Where the channel leads, for troubleshooting. -/
  describe : ρ → String
  /-- How many files are queued for import. -/
  queued : ρ → Nat
  connect : ChannelAction ρ Unit
  close : StateM (Site ρ) Unit
  /-- Export an asset by name to files below a directory. -/
  exportAsset : ChannelKind → String → Path → Action ρ ChannelError Unit
  /-- Queue a file for import. -/
  enqueue : ChannelKind → Path → Disk → ChannelAction ρ Unit
  /-- Submit every queued file. -/
  importFiles : ChannelAction ρ Unit
  /-- Share a dashboard with groups of users. -/
  share : String → List String → ChannelAction ρ Unit
  /-- Revoke sharing of a dashboard with groups of users. -/
  unshare : String → List String → ChannelAction ρ Unit
  /-- Forget queued files and remove scratch data on the server. -/
  cleanup : StateM (Site ρ) Unit

namespace Channel

variable {ρ : Type} {α : Type}

/-- How the channel describes itself now. -/
def description (channel : Channel ρ) : StateM (World ρ) String := fun world =>
  (channel.describe world.site.remote, world)

/-- Is anything queued? -/
def hasQueued (channel : Channel ρ) : StateM (World ρ) Bool := fun world =>
  (0 < channel.queued world.site.remote, world)

/-- The failure of a channel while it works on a package, which is logged. -/
def connectionError (package : Package) (description cause : String) :
    StateM (World ρ) SyncError := do
  let error := SyncError.connection package.fullName description cause
  World.onSite (Site.report error.message)
  pure error

/-- A step of the channel as part of an export or import; its failure is logged in the words
that are made of it. -/
def run (package : Package) (description : String) (words : ChannelError → String)
    (step : StateM (World ρ) (Except ChannelError α)) : Sync ρ α := fun world =>
  match step world with
  | (.ok value, world) => (.ok value, world)
  | (.error cause, world) =>
    let (error, world) := connectionError package description (words cause) world
    (.error error, world)

/-- Steps between a successful connect and the close that follows it, whatever the steps do. -/
def session (channel : Channel ρ) (package : Package) (description : String)
    (words : ChannelError → String) (steps : Sync ρ α) : Sync ρ α := do
  run package description words (World.onSite channel.connect)
  World.concluding steps (World.onSite channel.close)

/-- Clean up and warn if something is still queued. -/
def tidy (channel : Channel ρ) : StateM (World ρ) Unit := do
  World.onSite channel.cleanup
  if ← channel.hasQueued then
    World.onSite (Site.warn "Channel still has queued commands after cleanup")

end Channel

end OpsContent
