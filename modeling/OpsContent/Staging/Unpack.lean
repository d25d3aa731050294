import OpsContent.World

/-!
# Unpacking archives and packages

The entries of an archive are written below a directory in their order; those before an entry
that fails stay. An entry is refused if its name is absolute, or climbs above the directory at
any point.
-/

namespace OpsContent.Staging

variable {ρ : Type}

/-- Does a name stay below where it starts at every point, from the given depth on? -/
def staysBelow : Nat → List String → Bool
  | _, [] => true
  | depth, piece :: rest =>
    if Path.isIdle piece then staysBelow depth rest
    else if piece == ".." then
      match depth with
      | 0 => false
      | depth + 1 => staysBelow depth rest
    else staysBelow (depth + 1) rest

/-- Does the name of an entry stay below the directory? -/
def isEnclosed (name : String) : Bool :=
  let path := Path.ofText name
  !name.toList.contains (Char.ofNat 0) && !path.absolute && staysBelow 0 path.pieces

abbrev ArchiveAction := ExceptT ZipError (StateM Disk)

def onDisk {α : Type} (steps : DiskAction α) : ArchiveAction α := fun disk =>
  match steps disk with
  | (.ok value, disk) => (.ok value, disk)
  | (.error cause, disk) => (.error (.io cause), disk)

/-- Write an entry below a directory. What was read of a damaged entry is written. -/
def extractEntry (bytes : Bytes) (directory : Path) (header : Zip.Header) :
    ArchiveAction Unit := do
  let data ← World.settle (Zip.storedData bytes header)
  if !isEnclosed header.name then throw .badPath
  let path := directory.join header.name
  if Text.endsWith header.name "/" then onDisk (Disk.makeDirectories path)
  else
    let disk ← get
    match path.parent? with
    | some parent => if !disk.pathExists parent then onDisk (Disk.makeDirectories parent)
    | none => pure ()
    let (content, damage) := Zip.content header data
    onDisk (Disk.attempt (Disk.writeFile path content))
    match damage with
    | some cause => throw (.io cause)
    | none => pure ()

/-- Write all entries, up to the first that fails. -/
def extractAll (bytes : Bytes) (directory : Path) : ArchiveAction Unit := do
  let headers ← World.settle (Zip.headers bytes)
  headers.forM (extractEntry bytes directory)

/-- Unpack an archive below a directory, which is made if needed. -/
def extractArchive (archive directory : Path) : Sync ρ Unit := do
  World.files (Disk.makeDirectories directory)
  let disk ← World.look
  match disk.readFile archive with
  | .error (.system .isDirectory) => throw (.archive (.io (.system .isDirectory)))
  | .error cause => throw (.io cause)
  | .ok bytes => fun world =>
    match World.onDisk (extractAll bytes directory) world with
    | (.ok (), world) => (.ok (), world)
    | (.error cause, world) => (.error (.archive cause), world)

/-- Bring the content of a package to a directory. A directory is copied, a file is read as an
archive. -/
def unpack (package directory : Path) : Sync ρ Unit := do
  let disk ← World.look
  if disk.isDirectory package then World.files (Disk.copyTree package directory)
  else if disk.isFile package then extractArchive package directory
  else throw (.packageNotFound package)

end OpsContent.Staging
