import OpsContent.World

/-!
# Merging resource files

Localized texts of several assets are gathered in one file per name. A file is appended to the
one of its name, closed with a line feed, so that two files never share a line. Nothing that
goes wrong here stops the work.
-/

namespace OpsContent.Staging

variable {ρ : Type}

/-- Append a file to another, with its last line closed. -/
def appendResource (source destination : Path) (disk : Disk) : Except IoError Disk :=
  match disk.readFile source with
  | .error cause => .error cause
  | .ok content => disk.appendFile destination content.closeLine

/-- Append the files of the given names, and warn of those that cannot be. -/
def mergeFiles (source destination : Path) : List String → StateM (World ρ) Unit
  | [] => pure ()
  | name :: rest => do
      let disk ← World.readDisk
      let file := source.join name
      let target := destination.join name
      if disk.isFile file then
        match appendResource file target disk with
        | .ok after => World.onDisk (set after)
        | .error cause =>
          World.onSite (Site.warn ("Error merging content of \"" ++ file.text ++ "\" to \"" ++
            target.text ++ "\": " ++ cause.message ++
            "; continuing with other resource files"))
      mergeFiles source destination rest

/-- Append every file of a directory to the file of its name in another one. -/
def mergeResources (source destination : Path) : StateM (World ρ) Unit := do
  let disk ← World.readDisk
  let skipped (reason : String) : StateM (World ρ) Unit :=
    World.onSite (Site.warn ("Cannot copy content of directory \"" ++ source.text ++ "\" to \"" ++
      destination.text ++ "\": " ++ reason ++ ". Skipping dir."))
  if disk.pathExists source then
    match disk.listNames source with
    | .error cause => skipped ("source is not readable (" ++ cause.message ++ ")")
    | .ok names =>
      match ← World.onDisk (Disk.makeDirectories destination) with
      | .error cause => skipped ("destination cannot be created (" ++ cause.message ++ ")")
      | .ok () => mergeFiles source destination names

end OpsContent.Staging
