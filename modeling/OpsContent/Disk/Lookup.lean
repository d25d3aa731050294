import OpsContent.Disk.Basic
import OpsContent.Disk.Error

/-!
# From paths to locations

A path is walked piece by piece from the current directory or the root. Every place it passes
through must be a directory. An operation that makes or removes an entry walks to the parent
and keeps the last name apart.
-/

namespace OpsContent.Disk

/-- How many bytes a name may have. -/
def longestName : Nat := 255

/-- How many bytes a path must stay below. -/
def pathLimit : Nat := 4096

def isTooLong (name : String) : Bool :=
  longestName < name.utf8ByteSize

/-- Where a path starts. -/
def start (disk : Disk) (path : Path) : Location :=
  if path.absolute then [] else disk.current

/-- What is wrong with a path before it is looked up. -/
def refuse (path : Path) : Except IoError Unit :=
  if path.pieces.any fun piece => piece.toList.contains (Char.ofNat 0) then .error .nulInName
  else if path.absolute = false ∧ path.pieces = [""] then .error (.system .notFound)
  else if pathLimit ≤ path.text.utf8ByteSize then .error (.system .nameTooLong)
  else .ok ()

/-- Follow one piece of a path. -/
def step (disk : Disk) (location : Location) (piece : String) : Except Errno Location :=
  match disk.get? location with
  | none => .error .notFound
  | some (.file _) => .error .notDirectory
  | some .directory =>
    if Path.isIdle piece then .ok location
    else if piece = ".." then .ok location.dropLast
    else if isTooLong piece then .error .nameTooLong
    else if (disk.get? (location ++ [piece])).isSome then .ok (location ++ [piece])
    else .error .notFound

/-- Follow the pieces of a path. -/
def walk (disk : Disk) : Location → List String → Except Errno Location
  | location, [] => .ok location
  | location, piece :: rest =>
    match disk.step location piece with
    | .ok next => walk disk next rest
    | .error errno => .error errno

/-- The location of an existing file or directory. -/
def locate (disk : Disk) (path : Path) : Except IoError Location :=
  match refuse path with
  | .error error => .error error
  | .ok () =>
    match disk.walk (disk.start path) path.pieces with
    | .ok location => .ok location
    | .error errno => .error (.system errno)

/-- What a path leads to. -/
def node? (disk : Disk) (path : Path) : Option Node :=
  match disk.locate path with
  | .ok location => disk.get? location
  | .error _ => none

/-- What a listing tells of an entry: the node at a path, even if the path is too long to be used. -/
def listed? (disk : Disk) (path : Path) : Option Node :=
  match disk.walk (disk.start path) path.pieces with
  | .ok location => disk.get? location
  | .error _ => none

/-- Does the path lead to anything? -/
def pathExists (disk : Disk) (path : Path) : Bool :=
  (disk.node? path).isSome

/-- Does the path lead to a file? -/
def isFile (disk : Disk) (path : Path) : Bool :=
  match disk.node? path with
  | some (.file _) => true
  | _ => false

/-- Does the path lead to a directory? -/
def isDirectory (disk : Disk) (path : Path) : Bool :=
  match disk.node? path with
  | some .directory => true
  | _ => false

/-- The end of a path: an entry of a directory, or a place that is no entry, such as the root,
`.` and `..`. -/
inductive Target where
  | entry (parent : Location) (name : String) (slash : Bool)
  | place
  deriving DecidableEq

/-- The end of a path, after its beginning was found to be a directory. -/
def target (disk : Disk) (path : Path) : Except IoError Target :=
  match refuse path with
  | .error error => .error error
  | .ok () =>
    let pieces := (path.pieces.reverse.dropWhile (· == "")).reverse
    match pieces.getLast? with
    | none => .ok .place
    | some name =>
      match disk.walk (disk.start path) pieces.dropLast with
      | .error errno => .error (.system errno)
      | .ok parent =>
        match disk.get? parent with
        | some .directory =>
          if name = "." ∨ name = ".." then .ok .place
          else .ok (.entry parent name (pieces.length < path.pieces.length))
        | _ => .error (.system .notDirectory)

end OpsContent.Disk
