import OpsContent.Json.Writer
import OpsContent.World

/-!
# Policy metadata

A file beside the exported policies that names each policy by its identifier. Custom groups
refer to policies by identifier, and identifiers differ between servers; with the names, a group
can be linked again. The file is written anew by every export.
-/

namespace OpsContent

abbrev PolicyMetadata := Table String

namespace PolicyMetadata

def fileName : String := "policiesMetadata.vrops.json"

/-- The first identifier under which a policy of this name is known. -/
def idOf (metadata : PolicyMetadata) (name : String) : Option String :=
  (List.find? (fun entry => entry.2 == name) metadata).map Prod.fst

/-- Where the file is below a project. -/
def path (root : Path) : Path :=
  (root.join AssetKind.policy.directory).join fileName

def text (metadata : PolicyMetadata) : String :=
  (Json.ofTextTable metadata).pretty

def read (text : String) : Except JsonError PolicyMetadata :=
  JsonDraft.readText (JsonDraft.readTable (JsonDraft.readString "a string")) text

/-- Write the file anew. -/
def store (metadata : PolicyMetadata) (root : Path) : DiskAction Unit :=
  Disk.replaceFile (path root) (Bytes.ofText metadata.text)

/-- Read the file. Without a usable file nothing is known, which is worth a warning only if
there are policies or the file is bad. -/
def load {ρ : Type} (root : Path) : StateM (World ρ) PolicyMetadata := do
  let disk ← World.readDisk
  if !disk.pathExists (path root) then
    if disk.pathExists (root.join AssetKind.policy.directory) then
      World.onSite (Site.warn ("Policy metadata file '" ++ fileName ++ "' not found"))
    pure []
  else match disk.readText (path root) with
    | .error cause =>
      World.onSite (Site.warn
        ("An error occurred reading file " ++ fileName ++ ": " ++ cause.message))
      pure []
    | .ok text =>
      match read text with
      | .ok metadata => pure metadata
      | .error cause =>
        World.onSite (Site.warn
          ("An error occurred parsing metadata file " ++ fileName ++ ": " ++ cause.message))
        pure []

end PolicyMetadata

end OpsContent
