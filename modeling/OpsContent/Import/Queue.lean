import OpsContent.Import.Context
import OpsContent.Metadata.Sharing
import OpsContent.Staging.Upload

/-!
# Queueing and submitting files

Views, dashboards and reports are put into archives. These, super metrics and metric configs are
queued on the channel and submitted together in one session.
-/

namespace OpsContent.Import

open Staging

variable {ρ : Type}

/-- Queue one file, and count it. -/
def enqueue (context : Context ρ) (kind : ChannelKind) (file : Path) (stats : ImportStats) :
    Sync ρ ImportStats := do
  let description ← World.always context.channel.description
  let disk ← World.look
  Channel.run context.package description
    (fun cause => "unable to queue " ++ file.text ++ ": " ++ cause.message)
    (World.onSite (context.channel.enqueue kind file disk))
  pure (stats.addQueued kind.assetKind 1)

/-- Queue what is made of each source. -/
def enqueueEach (context : Context ρ) (kind : ChannelKind) (build : Path → Sync ρ Path) :
    ImportStats → List Path → Sync ρ ImportStats
  | stats, [] => pure stats
  | stats, source :: rest => do
      let file ← build source
      let stats ← enqueue context kind file stats
      enqueueEach context kind build stats rest

/-- The files or directories of a kind that are queued. -/
def sources (context : Context ρ) (disk : Disk) (kind : ChannelKind) : List Path :=
  let directory := context.directory kind.assetKind
  match kind with
  | .view => disk.listFiles directory (some "xml")
  | .dashboard =>
    (disk.listFiles directory (some "json")).filter fun file =>
      file.fileName? ≠ some Sharing.fileName
  | .report => disk.listDirectories directory
  | .superMetric => disk.listFiles directory (some "json")
  | .metricConfig => disk.listFiles directory none

/-- What is queued for a source: an archive, or the file itself. -/
def build : ChannelKind → Path → Sync ρ Path
  | .view, source => buildView source
  | .dashboard, source => buildDashboard source
  | .report, source => buildReport source
  | _, source => pure source

/-- Queue the files of the kinds in turn. -/
def enqueueKinds (context : Context ρ) :
    ImportStats → List ChannelKind → Sync ρ ImportStats
  | stats, [] => pure stats
  | stats, kind :: rest => do
      let disk ← World.look
      let stats ← enqueueEach context kind (build kind) stats (sources context disk kind)
      enqueueKinds context stats rest

/-- Submit what is queued, unless the run is dry. -/
def submit (context : Context ρ) (stats : ImportStats) : Sync ρ ImportStats := do
  if !(← World.always context.channel.hasQueued) || context.dryRun then pure stats
  else
    let description ← World.always context.channel.description
    context.channel.session context.package description ChannelError.message
      (Channel.run context.package description ChannelError.message
        (World.onSite context.channel.importFiles))
    pure { stats with submitted := true }

end OpsContent.Import
