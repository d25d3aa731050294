import OpsContent.Batch
import OpsContent.Export.Context
import OpsContent.Export.Selection
import OpsContent.Export.Stage
import OpsContent.Metadata.Sharing
import OpsContent.Staging.Workspace

/-!
# Exports over the command channel

All assets of a kind are exported in one session, each into a scratch directory of its own. A
failure of the channel ends the export; an asset that cannot be staged does not disturb the
others.
-/

namespace OpsContent.Export

open Staging

variable {ρ : Type}

/-- How an asset of a name gets from a scratch directory to its kind's directory. -/
abbrev Stage (ρ : Type) := String → Path → Path → Sync ρ Unit

/-- Export an asset to a scratch directory and stage it from there. -/
def exportOne (context : Context ρ) (kind : ChannelKind) (description : String) (stage : Stage ρ)
    (directory : Path) (name : String) : Sync ρ (Option ItemFailure) :=
  withScratch context.scratch (Context.stem kind.assetKind) fun scratch => do
    Channel.run context.package description (Context.unable kind.assetKind)
      (context.channel.exportAsset kind name scratch)
    World.always (Batch.item kind.assetKind name (stage name scratch directory))

/-- Export assets one after another. -/
def exportEach (context : Context ρ) (kind : ChannelKind) (description : String) (stage : Stage ρ)
    (directory : Path) : Batch.Report → List String → Sync ρ Batch.Report
  | report, [] => pure report
  | report, name :: rest => do
      let outcome ← exportOne context kind description stage directory name
      exportEach context kind description stage directory (report.add outcome) rest

/-- Export the named assets of a kind in one session, and count them. -/
def exportNames (context : Context ρ) (kind : ChannelKind) (stage : Stage ρ) (directory : Path)
    (names : List String) : Sync ρ Nat := do
  if names.isEmpty then pure 0
  else
    let description ← World.always context.channel.description
    let report ← context.channel.session context.package description
      (Context.unable kind.assetKind)
      (exportEach context kind description stage directory {} names)
    World.settle (batchResult (context.batchName kind.assetKind) report.failures)
    pure report.done

/-- Export what is listed and matches a pattern. -/
def exportListed (context : Context ρ) (kind : ChannelKind) (listing : QueryAction ρ (List Listing))
    (stage : Stage ρ) (patterns : List String) : Sync ρ Nat := do
  let names ← World.settle (matchedNames kind.assetKind (← Query.ask listing) patterns)
  let directory ← context.kindDirectory kind.assetKind
  exportNames context kind stage directory names

/-- Export dashboards by name, and seed the sharing metadata. -/
def exportDashboards (context : Context ρ) (patterns : List String) : Sync ρ Nat := do
  World.always (World.onSite (warnOfWildcards .dashboard patterns))
  let names := literals patterns
  let directory ← context.kindDirectory .dashboard
  let count ← exportNames context .dashboard stageDashboard directory names
  let seeded ← World.outcomeOf
    (World.onDisk (Sharing.seedIfAbsent context.staging context.package.path names))
  match seeded with
  | .ok _ => pure ()
  | .error cause =>
    World.always (World.onSite (Site.warn
      ("Error generating dashboard sharing metadata file: " ++ (SyncError.io cause).message)))
  pure count

/-- Export a metric config under one of the names that it may have on the server. The answer
says whether it was there. -/
def tryMetricConfig (context : Context ρ) (directory : Path) (candidate : String) : Sync ρ Bool :=
  withScratch context.scratch (Context.stem .metricConfig) fun scratch => do
    match ← World.outcomeOf (context.channel.exportAsset .metricConfig candidate scratch) with
    | .error _ => pure false
    | .ok () =>
      let content := scratch.join candidate
      if (← World.look).isFile content then
        move content (directory.join candidate)
        pure true
      else pure false

/-- Export a metric config, with or without an extension. -/
def exportMetricConfig (context : Context ρ) (directory : Path) (name : String) :
    Sync ρ (Option ItemFailure) := do
  let plain ← tryMetricConfig context directory name
  let extended ← tryMetricConfig context directory (name ++ ".xml")
  if plain || extended then pure none
  else some <$> World.always (Batch.note .metricConfig name
    ("not found on the server as '" ++ name ++ "' or '" ++ name ++ ".xml'"))

/-- Try the metric configurations one after another. -/
def exportEachMetricConfig (context : Context ρ) (directory : Path) :
    Batch.Report → List String → Sync ρ Batch.Report
  | report, [] => pure report
  | report, name :: rest => do
      let outcome ← exportMetricConfig context directory name
      exportEachMetricConfig context directory (report.add outcome) rest

/-- Export metric configs by name. There is no count if no name is asked for. -/
def exportMetricConfigs (context : Context ρ) (patterns : List String) :
    Sync ρ (Option Nat) := do
  World.always (World.onSite (warnOfWildcards .metricConfig patterns))
  let names := literals patterns
  let directory ← context.kindDirectory .metricConfig
  if names.isEmpty then pure none
  else
    let description ← World.always context.channel.description
    let report ← context.channel.session context.package description
      (Context.unable .metricConfig)
      (exportEachMetricConfig context directory {} names)
    World.settle (batchResult (context.batchName .metricConfig) report.failures)
    pure (some report.done)

end OpsContent.Export
