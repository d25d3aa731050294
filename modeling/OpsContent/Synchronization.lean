import OpsContent.Export.Package
import OpsContent.Import.Package

/-!
# Synchronizing packages with a server

An export is staged in a scratch directory and reaches the project only when every kind has
succeeded. An import works on a copy of the package. Scratch directories and the channel are
cleaned up whatever the outcome.
-/

namespace OpsContent

/-- A server, by its two interfaces, and the directory for workspaces. -/
structure Synchronizer (ρ : Type) where
  query : Query ρ
  channel : Channel ρ
  scratch : Path

namespace Synchronizer

open Staging

variable {ρ : Type}

/-- Where an export is staged. -/
def stagingIn (workspace : Path) : Path :=
  workspace.join "vrops-export"

/-- Stage what a descriptor asks for in a workspace. -/
def stagePackage (synchronizer : Synchronizer ρ) (package : Package) (descriptor : Descriptor)
    (workspace : Path) : Sync ρ ExportStats := do
  World.files (Disk.makeDirectories (stagingIn workspace))
  Export.exportAll
    { query := synchronizer.query
      channel := synchronizer.channel
      package
      staging := stagingIn workspace
      scratch := workspace } descriptor

/-- Export to the project of a package what a descriptor asks for. A dry run leaves the project
alone. -/
def exportPackage (synchronizer : Synchronizer ρ) (package : Package) (descriptor : Descriptor)
    (dryRun : Bool) : Sync ρ ExportStats :=
  withScratch synchronizer.scratch "vrsync-export" fun workspace => do
    let stats ← synchronizer.stagePackage package descriptor workspace
    if dryRun then pure stats
    else
      World.files (Disk.copyTree (stagingIn workspace) package.path)
      pure { stats with written := true }

/-- Export packages one after another, each with the descriptor that is found for it. The first
failure ends the export. -/
def exportPackages (synchronizer : Synchronizer ρ)
    (descriptorFor : Package → Disk → Except SyncError Descriptor) (dryRun : Bool) :
    ExportStats → List Package → Sync ρ ExportStats
  | total, [] => pure total
  | total, package :: rest => do
      let disk ← World.look
      let descriptor ← World.settle (descriptorFor package disk)
      let stats ← synchronizer.exportPackage package descriptor dryRun
      exportPackages synchronizer descriptorFor dryRun (total.merge stats) rest

/-- What the names of an import's staging directories begin with. -/
def importStem (package : Package) : String :=
  "import-" ++ package.type ++ "-" ++ toString (package.id.getD 0)

/-- Unpack a package and import what it holds. -/
def importPackage (synchronizer : Synchronizer ρ) (package : Package) (dryRun : Bool) :
    Sync ρ ImportStats := do
  let parent := synchronizer.scratch.join "vrops-import"
  World.files (Disk.makeDirectories parent)
  withScratch parent (importStem package) fun staging => do
    unpack package.path staging
    World.concluding
      (Import.importAll
        { query := synchronizer.query
          channel := synchronizer.channel
          package
          staging
          dryRun })
      synchronizer.channel.tidy

/-- Push packages one after another. -/
def importEach (synchronizer : Synchronizer ρ) (dryRun : Bool) :
    ImportStats → List Package → Sync ρ ImportStats
  | total, [] => pure total
  | total, package :: rest => do
      let stats ← synchronizer.importPackage package dryRun
      importEach synchronizer dryRun (total.merge stats) rest

/-- Push packages after checking that all of them are there. The first failure ends the import. -/
def importPackages (synchronizer : Synchronizer ρ) (packages : List Package) (dryRun : Bool) :
    Sync ρ ImportStats := do
  let disk ← World.look
  match packages.find? fun package => !disk.pathExists package.path with
  | some missing => throw (.packageNotFound missing.path)
  | none => importEach synchronizer dryRun {} packages

end Synchronizer

end OpsContent
