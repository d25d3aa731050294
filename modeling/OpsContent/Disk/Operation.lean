import OpsContent.Disk.Lookup

/-!
# Operations on files

Each operation either succeeds or fails without a trace. Operations made of several of these
can fail half way; they are actions that keep the disk they have reached.
-/

namespace OpsContent

/-- A step on the disk that may fail. -/
abbrev DiskAction := ExceptT IoError (StateM Disk)

namespace Disk

/-- Take a step that leaves the disk as it was when it fails. -/
def attempt (operation : Disk → Except IoError Disk) : DiskAction Unit := fun disk =>
  match operation disk with
  | .ok after => (.ok (), after)
  | .error error => (.error error, disk)

/-- The content of a file. -/
def readFile (disk : Disk) (path : Path) : Except IoError Bytes :=
  match disk.locate path with
  | .error error => .error error
  | .ok location =>
    match disk.get? location with
    | some (.file content) => .ok content
    | some .directory => .error (.system .isDirectory)
    | none => .error (.system .notFound)

/-- The content of a file as a text. -/
def readText (disk : Disk) (path : Path) : Except IoError String :=
  match disk.readFile path with
  | .error error => .error error
  | .ok content =>
    match content.toText? with
    | some text => .ok text
    | none => .error .notText

/-- Write a file, made from what stood there before. -/
def updateFile (change : Bytes → Bytes) (path : Path) (disk : Disk) : Except IoError Disk :=
  match disk.target path with
  | .error error => .error error
  | .ok .place => .error (.system .isDirectory)
  | .ok (.entry parent name slash) =>
    if slash then .error (.system .isDirectory)
    else if isTooLong name then .error (.system .nameTooLong)
    else match disk.get? (parent ++ [name]) with
      | some .directory => .error (.system .isDirectory)
      | some (.file content) => .ok (disk.put (parent ++ [name]) (.file (change content)))
      | none => .ok (disk.put (parent ++ [name]) (.file (change [])))

/-- Write a file, in place of its content. -/
def writeFile (path : Path) (content : Bytes) : Disk → Except IoError Disk :=
  updateFile (fun _ => content) path

/-- Write behind the content of a file. -/
def appendFile (path : Path) (content : Bytes) : Disk → Except IoError Disk :=
  updateFile (· ++ content) path

/-- Make one directory. -/
def makeDirectory (path : Path) (disk : Disk) : Except IoError Disk :=
  match disk.target path with
  | .error error => .error error
  | .ok .place => .error (.system .alreadyExists)
  | .ok (.entry parent name _) =>
    if isTooLong name then .error (.system .nameTooLong)
    else if (disk.get? (parent ++ [name])).isSome then .error (.system .alreadyExists)
    else .ok (disk.put (parent ++ [name]) .directory)

/-- Remove a file. -/
def removeFile (path : Path) (disk : Disk) : Except IoError Disk :=
  match disk.target path with
  | .error error => .error error
  | .ok .place => .error (.system .isDirectory)
  | .ok (.entry parent name slash) =>
    if isTooLong name then .error (.system .nameTooLong)
    else match disk.get? (parent ++ [name]) with
      | none => .error (.system .notFound)
      | some .directory => .error (.system .isDirectory)
      | some (.file _) =>
        if slash then .error (.system .notDirectory)
        else .ok (disk.remove (parent ++ [name]))

/-- Remove a directory with everything in it. -/
def removeTree (path : Path) (disk : Disk) : Except IoError Disk :=
  match disk.locate path with
  | .error error => .error error
  | .ok location =>
    match disk.get? location with
    | some .directory =>
      if location = [] then .error (.system .busy) else .ok (disk.removeBelow location)
    | some (.file _) => .error (.system .notDirectory)
    | none => .error (.system .notFound)

/-- The names in a directory, sorted. -/
def listNames (disk : Disk) (path : Path) : Except IoError (List String) :=
  match disk.locate path with
  | .error error => .error error
  | .ok location =>
    match disk.get? location with
    | some .directory => .ok (disk.children location)
    | _ => .error (.system .notDirectory)

/-- Give an entry another place, in place of a file or an empty directory of the same sort. -/
def moveEntry (source destination : Location) (slash : Bool) (disk : Disk) :
    Except IoError Disk :=
  match disk.get? source with
  | none => .error (.system .notFound)
  | some (.file content) =>
    if slash then .error (.system .notDirectory)
    else if source = destination then .ok disk
    else if disk.get? destination = some .directory then .error (.system .isDirectory)
    else .ok ((disk.remove source).put destination (.file content))
  | some .directory =>
    if source = destination then .ok disk
    else if isBelow source destination then .error (.system .invalidArgument)
    else match disk.get? destination with
      | some (.file _) => .error (.system .notDirectory)
      | some .directory =>
        if (disk.children destination).isEmpty then .ok (disk.relocate source destination)
        else .error (.system .notEmpty)
      | none => .ok (disk.relocate source destination)

/-- Move a node, over a file or an empty directory. -/
def rename (source destination : Path) (disk : Disk) : Except IoError Disk :=
  match refuse source, refuse destination with
  | .error error, _ => .error error
  | .ok (), .error error => .error error
  | .ok (), .ok () =>
    match disk.target source with
    | .error error => .error error
    | .ok source =>
      match disk.target destination with
      | .error error => .error error
      | .ok destination =>
        match source, destination with
        | .entry sourceParent sourceName sourceSlash, .entry parent name slash =>
          if isTooLong sourceName then .error (.system .nameTooLong)
          else if (disk.get? (sourceParent ++ [sourceName])).isNone then
            .error (.system .notFound)
          else if isTooLong name then .error (.system .nameTooLong)
          else disk.moveEntry (sourceParent ++ [sourceName]) (parent ++ [name])
            (sourceSlash || slash)
        | _, _ => .error (.system .busy)

/-- Copy the content of a file. -/
def copyFile (source destination : Path) (disk : Disk) : Except IoError Disk :=
  match disk.locate source with
  | .error error => .error error
  | .ok location =>
    match disk.get? location with
    | some (.file content) => disk.writeFile destination content
    | some .directory => .error .notRegularFile
    | none => .error (.system .notFound)

end Disk

end OpsContent
