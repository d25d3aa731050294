import OpsContent.Import.Push
import OpsContent.Import.Queue
import OpsContent.Import.Share

/-!
# Importing an unpacked package

Files are queued and submitted, then everything else is pushed, and dashboards are shared last.
Each stage is entered only if those before it had no failure. A dry run ends after queueing.
-/

namespace OpsContent.Import

variable {ρ : Type}

/-- All stages of an import; a dry one ends with the queue. -/
def importAll (context : Context ρ) : Sync ρ ImportStats := do
  let stats ← enqueueKinds context {} ChannelKind.all
  let stats ← submit context stats
  if context.dryRun then pure stats
  else
    let stats ← pushDefinitions context stats
    let stats ← pushPolicies context stats
    let stats ← pushGroups context stats
    applySharing context stats

end OpsContent.Import
