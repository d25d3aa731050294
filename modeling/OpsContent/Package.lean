import OpsContent.Path

/-!
# Packages

A package is a project directory on export, and an archive or an expanded directory on
import. Its name and version can be read off its path.
-/

namespace OpsContent

/-- A package of content, with what its path says about it. -/
structure Package where
  path : Path
  name : String
  type : String
  id : Option Nat
  version : String
  deriving DecidableEq

namespace Package

def defaultType : String := "vrops"

def defaultVersion : String := "0.0.0"

/-- Is this groups of digits with dots between them? -/
def isVersion (chars : List Char) : Bool :=
  (chars.splitOn '.').all fun group => !group.isEmpty && group.all Char.isDigit

/-- Name and version of a file stem, split at its last dash. -/
def splitVersion (stem : String) : String × String :=
  let reversed := stem.toList.reverse
  let version := (reversed.takeWhile (· != '-')).reverse
  match reversed.dropWhile (· != '-') with
  | [] => (stem, defaultVersion)
  | _ :: name =>
    if isVersion version && !name.isEmpty then (String.ofList name.reverse, String.ofList version)
    else (stem, defaultVersion)

/-- What the path of a package says about it. -/
def ofPath (path : Path) : Package :=
  let (name, version) := splitVersion (path.fileStem?.getD "package")
  { path, name, type := defaultType, id := none, version }

/-- The name with the version. -/
def fullName (package : Package) : String :=
  package.name ++ "-" ++ package.version

/-- How a package is shown to the user. -/
def display (package : Package) : String :=
  package.fullName ++ " (" ++ package.path.text ++ ")"

end Package

end OpsContent
