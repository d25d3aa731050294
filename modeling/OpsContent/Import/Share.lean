import OpsContent.Import.Context
import OpsContent.Metadata.Sharing

/-!
# Sharing dashboards

The sharing metadata of a package is applied last: every dashboard with groups is shared, then
every dashboard with groups to revoke is unshared. All groups of a dashboard have to exist.
-/

namespace OpsContent.Import

variable {ρ : Type}

/-- One dashboard to share or unshare with groups. -/
structure SharingTask where
  action : SharingAction
  dashboard : String
  groups : List String
  deriving DecidableEq

/-- Everything to do, in order. A dashboard without groups needs nothing. -/
def sharingTasks (sharing : Sharing) : List SharingTask :=
  SharingAction.all.flatMap fun action =>
    ((sharing.groups action).filter fun entry => !entry.2.isEmpty).map fun entry =>
      { action, dashboard := entry.1, groups := entry.2 }

/-- The groups that the server does not have. -/
def missingGroups (groups found : List String) : List String :=
  groups.filter fun group => !found.contains group

/-- Share a dashboard or revoke it. -/
def applyTask (context : Context ρ) (description : String) (task : SharingTask)
    (stats : ImportStats) : Sync ρ ImportStats := do
  let found ← Query.ask (context.query.findGroups task.groups)
  let missing := missingGroups task.groups found
  if !missing.isEmpty then throw (.missingGroups task.action.word task.dashboard missing)
  let call := match task.action with
    | .share => context.channel.share task.dashboard task.groups
    | .unshare => context.channel.unshare task.dashboard task.groups
  Channel.run context.package description ChannelError.message (World.onSite call)
  pure (match task.action with
    | .share => { stats with shared := stats.shared + 1 }
    | .unshare => { stats with unshared := stats.unshared + 1 })

/-- Do one thing after another. -/
def applyTasks (context : Context ρ) (description : String) :
    ImportStats → List SharingTask → Sync ρ ImportStats
  | stats, [] => pure stats
  | stats, task :: rest => do
      let stats ← applyTask context description task stats
      applyTasks context description stats rest

/-- Apply the sharing metadata in one session, if there is something to do. -/
def applySharing (context : Context ρ) (stats : ImportStats) : Sync ρ ImportStats := do
  let disk ← World.look
  if !disk.isDirectory (context.directory .dashboard) then pure stats
  else
    match ← World.settle (Sharing.load disk context.staging) with
    | none => pure stats
    | some sharing =>
      let tasks := sharingTasks sharing
      if tasks.isEmpty then pure stats
      else
        let description ← World.always context.channel.description
        context.channel.session context.package description ChannelError.message
          (applyTasks context description stats tasks)

end OpsContent.Import
