import OpsContent.Staging.Resources
import OpsContent.Staging.Unpack

/-!
# Staging one exported asset

The channel leaves an asset in a scratch directory. From there its content moves to the
directory of its kind under the name of the asset, and its texts join those of the others.
-/

namespace OpsContent.Export

open Staging

variable {ρ : Type}

def move (source destination : Path) : Sync ρ Unit :=
  World.files (Disk.moveFile source destination)

def discard (file : Path) : Sync ρ Unit :=
  World.files (Disk.attempt (Disk.removeFile file))

/-- Stage an asset that comes as an archive: its content, and its texts. -/
def stageUnpacked (name ending file : String) (folder scratch directory : Path) : Sync ρ Unit := do
  let archive := scratch.join (name ++ ".zip")
  extractArchive archive scratch
  move (folder.join file) (directory.join (name ++ ending))
  discard archive
  World.always (mergeResources (folder.join "resources") (directory.join "resources"))

/-- Views come as archives with one document. -/
def stageView (name : String) (scratch directory : Path) : Sync ρ Unit :=
  stageUnpacked name ".xml" "content.xml" scratch scratch directory

/-- Dashboards lie one directory deeper in their archives. -/
def stageDashboard (name : String) (scratch directory : Path) : Sync ρ Unit :=
  stageUnpacked name ".json" "dashboard.json" (scratch.join "dashboard") scratch directory

/-- Stage a report: everything in its archive. -/
def stageReport (name : String) (scratch directory : Path) : Sync ρ Unit := do
  let content := scratch.join name
  extractArchive (scratch.join (name ++ ".zip")) content
  World.files (Disk.copyTree content (directory.join name))

/-- Stage a super metric: its file, and its texts. -/
def stageSuperMetric (name : String) (scratch directory : Path) : Sync ρ Unit := do
  let file := name ++ ".json"
  move (scratch.join file) (directory.join file)
  World.always (mergeResources (scratch.join "resources") (directory.join "resources"))

end OpsContent.Export
