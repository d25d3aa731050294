import OpsContent.Batch
import OpsContent.Export.Context
import OpsContent.Pattern

/-!
# Exports over the query interface

Definitions, policies and custom groups that match a pattern are written to one file each. An
asset that cannot be written does not disturb the others.
-/

namespace OpsContent.Export

variable {ρ : Type}

def writeJson (path : Path) (value : Json) : DiskAction Unit :=
  Disk.replaceFile path (Bytes.ofText value.pretty)

/-- Write an asset to the file of its name. -/
def writeAsset (directory : Path) (asset : RemoteAsset) : Sync ρ Unit :=
  World.files (writeJson (directory.join (asset.name ++ ".json")) asset.content)

/-- The assets whose names match a pattern. -/
def matchedAssets (patterns : List String) (assets : List RemoteAsset) : List RemoteAsset :=
  assets.filter fun asset => Pattern.anyAccepts patterns asset.name

/-- Write the assets of a kind that match a pattern, and count them. -/
def writeAssets (context : Context ρ) (kind : AssetKind) (directory : Path)
    (patterns : List String) (assets : List RemoteAsset) : Sync ρ Nat := do
  let report ← World.always
    (Batch.each kind (·.name) (writeAsset directory) {} (matchedAssets patterns assets))
  World.settle (batchResult (context.batchName kind) report.failures)
  pure report.done

/-- Export definitions of one kind. -/
def exportDefinitions (context : Context ρ) (kind : DefinitionKind) (patterns : List String) :
    Sync ρ Nat := do
  let directory ← context.kindDirectory kind.assetKind
  let assets ← Query.ask (context.query.listDefinitions kind)
  writeAssets context kind.assetKind directory patterns assets

/-- Export custom groups. A server without any is worth an error in the log, and there is no
count. -/
def exportCustomGroups (context : Context ρ) (patterns : List String) : Sync ρ (Option Nat) := do
  let directory ← context.kindDirectory .customGroup
  let groups ← Query.ask context.query.listCustomGroups
  if groups.isEmpty then
    World.always (World.onSite (Site.report "No custom groups found on the server"))
    pure none
  else some <$> writeAssets context .customGroup directory patterns groups

/-- Fetch a policy and write its archive. -/
def exportPolicy (context : Context ρ) (directory : Path) (policy : PolicySummary) :
    Sync ρ Unit := do
  let content ← Query.ask (context.query.policyContent policy)
  World.files (Disk.replaceFile (directory.join (policy.name ++ ".zip")) content)

/-- Export policies, and name them all in the policy metadata. -/
def exportPolicies (context : Context ρ) (patterns : List String) : Sync ρ Nat := do
  let directory ← context.kindDirectory .policy
  let listed ← Query.ask context.query.listPolicies
  let policies := listed.filter fun policy => Pattern.anyAccepts patterns policy.name
  let metadata : PolicyMetadata :=
    Table.ofList (policies.map fun policy => (policy.id, policy.name))
  let report ← World.always
    (Batch.each .policy (·.name) (exportPolicy context directory) {} policies)
  World.files (metadata.store context.staging)
  World.settle (batchResult (context.batchName .policy) report.failures)
  pure report.done

end OpsContent.Export
