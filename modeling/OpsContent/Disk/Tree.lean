import OpsContent.Disk.Operation

/-!
# Directories with their parents, listings, moves and copies of trees

These actions take several steps. If one fails, the steps before it stay.
-/

namespace OpsContent.Disk

/-- Make a directory and those above it that are missing, walking up at most as far as the
given number of steps. -/
def makeDirectoriesUpTo : Nat → Path → DiskAction Unit
  | 0, _ => throw .noCommonRoot
  | fuel + 1, path => fun disk =>
    if path.absolute = false ∧ path.pieces = [""] then (.ok (), disk)
    else
      match disk.makeDirectory path with
      | .ok after => (.ok (), after)
      | .error (.system .notFound) =>
        match path.parent? with
        | none => (.error .noCommonRoot, disk)
        | some parent =>
          match makeDirectoriesUpTo fuel parent disk with
          | (.error error, after) => (.error error, after)
          | (.ok (), after) =>
            match after.makeDirectory path with
            | .ok made => (.ok (), made)
            | .error error =>
              if after.isDirectory path then (.ok (), after) else (.error error, after)
      | .error error => if disk.isDirectory path then (.ok (), disk) else (.error error, disk)

/-- Make a directory with those above it. -/
def makeDirectories (path : Path) : DiskAction Unit :=
  makeDirectoriesUpTo (path.pieces.length + 2) path

/-- Make the directories above a path. -/
def makeParents (path : Path) : DiskAction Unit :=
  match path.parent? with
  | some parent => makeDirectories parent
  | none => pure ()

/-- Write a file so that it appears under its name only when it is complete. -/
def replaceFile (path : Path) (content : Bytes) : DiskAction Unit := do
  let draft := path.withFileName (path.fileName?.getD "" ++ ".tmp")
  makeParents path
  attempt (writeFile draft content)
  attempt (rename draft path)

/-- Move a file in place of what is at its target. -/
def moveFile (source destination : Path) : DiskAction Unit := do
  makeParents destination
  fun disk =>
    match disk.rename source destination with
    | .ok after => (.ok (), after)
    | .error _ =>
      (do attempt (copyFile source destination)
          attempt (removeFile source) : DiskAction Unit) disk

/-- The entries of a directory that satisfy a test, as paths in the order of their names. A
path that is no directory has none. -/
def listWhere (disk : Disk) (directory : Path) (test : Path → Bool) : List Path :=
  if disk.isDirectory directory then
    match disk.listNames directory with
    | .ok names => (names.map directory.join).filter test
    | .error _ => []
  else []

/-- Files directly in a directory, by extension if one is given. -/
def listFiles (disk : Disk) (directory : Path) (extension : Option String) : List Path :=
  disk.listWhere directory fun path =>
    disk.isFile path && match extension with
      | none => true
      | some wanted => path.hasExtension wanted

def listDirectories (disk : Disk) (directory : Path) : List Path :=
  disk.listWhere directory disk.isDirectory

def deepest : Nat := pathLimit

/-- Copy the entries of a directory that have the given names, each in the given way. -/
def copyNames (copy : Path → Path → DiskAction Unit) (source destination : Path) :
    List String → DiskAction Unit
  | [] => pure ()
  | name :: rest => do
      copy (source.join name) (destination.join name)
      copyNames copy source destination rest

/-- Copy a file or directory that was met on a walk. What it is was told by the listing; what a
directory holds is looked up when the walk enters it, after it was made at the destination. So a
path that is too long fails, for a directory as well as for a file. -/
def copyNode : Nat → Path → Path → DiskAction Unit
  | 0, _, _ => throw (.system .nameTooLong)
  | fuel + 1, source, destination => do
      let disk ← get
      match disk.listed? source with
      | some .directory =>
        makeDirectories destination
        let names ← fun (disk : Disk) =>
          match disk.listNames source with
          | .ok names => (.ok names, disk)
          | .error error => (.error (.walk source error), disk)
        copyNames (copyNode fuel) source destination names
      | some (.file _) =>
        makeParents destination
        attempt (copyFile source destination)
      | none => pure ()

/-- Copy everything below a directory over another one. Files are replaced, and what the source
does not hold is left alone. -/
def copyTree (source destination : Path) : DiskAction Unit := do
  makeDirectories destination
  let disk ← get
  match disk.locate source with
  | .error error => throw (.walk source error)
  | .ok location =>
    if disk.isDirectoryAt location then
      match disk.listNames source with
      | .ok names => copyNames (copyNode deepest) source destination names
      | .error error => throw (.walk source error)

/-- Write files below a directory by their paths, those above them made if needed. A path without
content is a directory. -/
def plant (directory : Path) : List (String × Option Bytes) → DiskAction Unit
  | [] => pure ()
  | (name, some content) :: rest => do
      makeParents (directory.join name)
      attempt (writeFile (directory.join name) content)
      plant directory rest
  | (name, none) :: rest => do
      makeDirectories (directory.join name)
      plant directory rest

end OpsContent.Disk
