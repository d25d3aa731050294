import OpsContent.World

/-!
# Scratch directories

Every export and import works in a scratch directory of its own, which is removed again whatever
the work comes to. Tags keep the names of different runs apart.
-/

namespace OpsContent.Staging

variable {ρ : Type} {α : Type}

/-- Remove a scratch directory, if it is still there. A failure is worth a warning only. -/
def removeScratch (path : Path) : StateM (World ρ) Unit := do
  let disk ← World.readDisk
  if disk.pathExists path then
    match disk.removeTree path with
    | .ok after => World.onDisk (set after)
    | .error cause =>
      World.onSite (Site.warn ("Unable to delete staging directory: " ++ cause.message))

/-- Work in a fresh directory below the given one. -/
def withScratch (parent : Path) (stem : String) (work : Path → Sync ρ α) : Sync ρ α := do
  let path := parent.join (← World.always (World.onSite (Site.uniqueName stem)))
  World.files (Disk.makeDirectories path)
  World.concluding (work path) (removeScratch path)

end OpsContent.Staging
