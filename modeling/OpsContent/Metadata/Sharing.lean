import OpsContent.Json.Writer
import OpsContent.World

/-!
# Sharing metadata

A file beside the exported dashboards that says with which groups of users each dashboard is
shared and with which no longer. It is seeded once with empty lists and belongs to the user from
then on.
-/

namespace OpsContent

/-- What is done with a dashboard. -/
inductive SharingAction where
  | share
  | unshare
  deriving DecidableEq

namespace SharingAction

def all : List SharingAction := [.share, .unshare]

def word : SharingAction → String
  | .share => "share"
  | .unshare => "unshare"

end SharingAction

/-- The groups to share each dashboard with, and those to take it from. -/
structure Sharing where
  share : Table (List String) := []
  unshare : Table (List String) := []
  deriving DecidableEq

namespace Sharing

def fileName : String := "dashboardSharingMetadata.vrops.json"

/-- The groups by dashboard for one action. -/
def groups (sharing : Sharing) : SharingAction → Table (List String)
  | .share => sharing.share
  | .unshare => sharing.unshare

/-- Dashboards without groups, for the user to fill in. -/
def seed (dashboards : List String) : Sharing :=
  let groups := Table.ofList (dashboards.map fun name => (name, []))
  { share := groups, unshare := groups }

def groupsJson (groups : Table (List String)) : Json :=
  .object (groups.mapValues Json.ofTexts)

def toJson (sharing : Sharing) : Json :=
  Json.ofFields [("share", groupsJson sharing.share), ("unshare", groupsJson sharing.unshare)]

open JsonDraft in
/-- How the file is written. -/
def record : Record Sharing where
  name := "SharingMetadata"
  default := {}
  strict := true
  fields :=
    [("share", fun draft sharing => do
        pure { sharing with share := ← readTable (readList (readString "a string")) draft }),
      ("unshare", fun draft sharing => do
        pure { sharing with unshare := ← readTable (readList (readString "a string")) draft })]

def read (text : String) : Except JsonError Sharing :=
  JsonDraft.readText record.read text

/-- Where the file is below a project. -/
def path (root : Path) : Path :=
  (root.join AssetKind.dashboard.directory).join fileName

/-- Seed the file in the staging directory, unless it is there or in the project. The answer
says whether it was seeded. -/
def seedIfAbsent (staging project : Path) (dashboards : List String) : DiskAction Bool := do
  let disk ← get
  if disk.pathExists (path staging) || disk.pathExists (path project) then pure false
  else
    Disk.replaceFile (path staging) (Bytes.ofText (seed dashboards).toJson.pretty)
    pure true

/-- Read the file of a project, if there is one. -/
def load (disk : Disk) (root : Path) : Except SyncError (Option Sharing) :=
  if !disk.pathExists (path root) then .ok none
  else match disk.readText (path root) with
    | .error cause => .error (.configuration
        ("An error occurred reading file '" ++ fileName ++ "': " ++ cause.message))
    | .ok text =>
      match read text with
      | .ok sharing => .ok (some sharing)
      | .error cause => .error (.configuration
          ("An error occurred parsing file '" ++ fileName ++ "': " ++ cause.message))

end Sharing

end OpsContent
