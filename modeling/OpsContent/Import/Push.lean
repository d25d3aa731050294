import OpsContent.Batch
import OpsContent.Import.Context

/-!
# Pushing over the query interface

Definitions are pushed kind by kind, so that a definition comes behind those it refers to, then
policies and custom groups. Within each of the three stages every item is attempted, and what
failed is reported together.
-/

namespace OpsContent.Import

variable {ρ : Type}

def readJson (disk : Disk) (file : Path) : Except SyncError Json :=
  match disk.readText file with
  | .error cause => .error (.io cause)
  | .ok text => (Json.parse text).mapError .json

/-- The definition in a file with its identifier; one without is identified by the file. -/
def readDefinition (disk : Disk) (file : Path) : Except SyncError (String × Json) := do
  let content ← readJson disk file
  if content.isObject then pure ((content.textField? "id").getD file.baseName, content)
  else throw (.configuration
    ("Definition file '" ++ file.text ++ "' does not hold a JSON object"))

/-- Definitions read so far by identifier, and the files that could not be read. -/
structure Definitions where
  table : Table Json := []
  failures : List ItemFailure := []

/-- Read definition files, and note those that cannot be read. -/
def readDefinitions (kind : AssetKind) :
    Definitions → List Path → StateM (World ρ) Definitions
  | definitions, [] => pure definitions
  | definitions, file :: rest => do
      let disk ← World.readDisk
      match readDefinition disk file with
      | .ok (id, content) =>
        readDefinitions kind { definitions with table := definitions.table.insert id content }
          rest
      | .error cause =>
        let failure ← Batch.note kind file.text cause.message
        readDefinitions kind
          { definitions with failures := definitions.failures ++ [failure] } rest

/-- How far the push of definitions has come. -/
structure Progress where
  dependents : Dependents := []
  stats : ImportStats
  failures : List ItemFailure := []

/-- Push the definitions of a kind, if its directory is there. -/
def pushKind (context : Context ρ) (kind : DefinitionKind) (progress : Progress) :
    StateM (World ρ) Progress := do
  let disk ← World.readDisk
  let directory := context.directory kind.assetKind
  if !disk.isDirectory directory then pure progress
  else
    let definitions ← readDefinitions kind.assetKind {} (disk.listFiles directory (some "json"))
    let dependents := progress.dependents.extend kind definitions.table
    let failures := progress.failures ++ definitions.failures
    let outcome ← World.onSite
      (context.query.importDefinitions kind definitions.table dependents)
    match outcome with
    | .ok () =>
      let stats := progress.stats.addPushed kind.assetKind definitions.table.length
      pure { dependents, stats, failures }
    | .error cause =>
      let failure ← Batch.note kind.assetKind kind.assetKind.directory cause.message
      pure { dependents, stats := progress.stats, failures := failures ++ [failure] }

/-- Push definitions kind by kind. -/
def pushKinds (context : Context ρ) : Progress → List DefinitionKind → StateM (World ρ) Progress
  | progress, [] => pure progress
  | progress, kind :: rest => do
      let progress ← pushKind context kind progress
      pushKinds context progress rest

/-- What a failed stage is called. -/
def stageName (context : Context ρ) (what : String) : String :=
  what ++ " import of package '" ++ context.package.fullName ++ "'"

/-- Push all definitions; files that failed are reported together. -/
def pushDefinitions (context : Context ρ) (stats : ImportStats) : Sync ρ ImportStats := do
  let progress ← World.always (pushKinds context { stats } DefinitionKind.importOrder)
  World.settle (batchResult (stageName context "Definition") progress.failures)
  pure progress.stats

/-- Push one policy archive over what the server has. -/
def pushPolicy (context : Context ρ) (file : Path) : Sync ρ Unit := do
  let disk ← World.look
  let content ← World.settle ((disk.readFile file).mapError .io)
  Query.ask (context.query.importPolicy file.baseName content true)

/-- Push the policies of the package. -/
def pushPolicies (context : Context ρ) (stats : ImportStats) : Sync ρ ImportStats := do
  let disk ← World.look
  let files := disk.listFiles (context.directory .policy) (some "zip")
  let report ← World.always (Batch.each .policy Path.baseName (pushPolicy context) {} files)
  World.settle (batchResult (stageName context "Policy") report.failures)
  pure (stats.addPushed .policy report.done)

/-- A group with the name of its policy replaced by the policy's identifier. A reference that is
an identifier already, or unknown, stays; an unknown one is worth a warning. -/
def resolvePolicy (policies : PolicyMetadata) (payload : Json) : StateM (Site ρ) Json :=
  match payload with
  | .object fields =>
    let fields : Table Json := fields
    match (fields.find? "policy").bind Json.text? with
    | none => pure payload
    | some reference =>
      if policies.holds reference then pure payload
      else match policies.idOf reference with
        | some id => pure (.object (fields.insert "policy" (.string id)))
        | none => do
            Site.warn ("Policy '" ++ reference ++ "' not found in policy metadata")
            pure payload
  | _ => pure payload

/-- Push a custom group. It goes by the name in its content, or by that of its file. -/
def pushGroup (context : Context ρ) (policies : PolicyMetadata) (file : Path) : Sync ρ Unit := do
  let disk ← World.look
  let payload ← World.settle (readJson disk file)
  let name := ((RemoteAsset.ofCustomGroup? payload).map (·.name)).getD file.baseName
  let payload ← World.always (World.onSite (resolvePolicy policies payload))
  Query.ask (context.query.importCustomGroup name payload policies)

/-- Push custom groups, linked to policies by the policy metadata. -/
def pushGroups (context : Context ρ) (stats : ImportStats) : Sync ρ ImportStats := do
  let disk ← World.look
  let directory := context.directory .customGroup
  if !disk.isDirectory directory then pure stats
  else
    let policies ← World.always (PolicyMetadata.load context.staging)
    let files := disk.listFiles directory (some "json")
    let report ← World.always
      (Batch.each .customGroup Path.baseName (pushGroup context policies) {} files)
    World.settle (batchResult (stageName context "Custom group") report.failures)
    pure (stats.addPushed .customGroup report.done)

end OpsContent.Import
