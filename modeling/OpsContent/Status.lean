import OpsContent.Descriptor
import OpsContent.Metadata.Policy
import OpsContent.Metadata.Sharing

/-!
# What a project holds

The status of a project is read from its directory alone: how many assets of each kind are
there, which patterns the descriptor asks for, and whether the files with metadata are present.
-/

namespace OpsContent

/-- The descriptor of a project. -/
def Descriptor.fileName : String := "content.yaml"

/-- How many assets of a kind a project holds. A report is a directory, and any other asset a
file with the extension of its kind; the file that says how dashboards are shared is none. -/
def Disk.localCount (disk : Disk) (project : Path) (kind : AssetKind) : Nat :=
  let directory := project.join kind.directory
  match kind with
  | .report => (disk.listDirectories directory).length
  | .view => (disk.listFiles directory (some "xml")).length
  | .policy => (disk.listFiles directory (some "zip")).length
  | .metricConfig => (disk.listFiles directory none).length
  | .dashboard =>
    ((disk.listFiles directory (some "json")).filter fun file =>
      file.fileName? != some Sharing.fileName).length
  | .alertDefinition | .symptomDefinition | .recommendation | .customGroup | .superMetric =>
    (disk.listFiles directory (some "json")).length

/-- One kind in the status of a project. -/
structure KindStatus where
  kind : AssetKind
  /-- How many assets the project holds. -/
  held : Nat
  /-- What the descriptor asks for, if it mentions the kind. -/
  patterns : Option (List String)

/-- What a project holds and asks for. -/
structure ProjectStatus where
  project : Path
  /-- The descriptor, if the project has one. -/
  descriptor : Option Path
  kinds : List KindStatus
  hasPolicyMetadata : Bool
  hasSharingMetadata : Bool

namespace ProjectStatus

/-- Read a descriptor, if the file is there. -/
def readDescriptor (disk : Disk) (path : Path) : Except Failure (Option Descriptor) :=
  if disk.isFile path then
    match Descriptor.ofFile disk path with
    | .ok descriptor => .ok (some descriptor)
    | .error cause => .error (.sync cause)
  else .ok none

/-- The status of a project directory. -/
def ofDisk (disk : Disk) (project : Path) : Except Failure ProjectStatus := do
  if !disk.isDirectory project then
    throw (.invalidArgument ("Project directory not found: " ++ project.text))
  let path := project.join Descriptor.fileName
  let descriptor ← readDescriptor disk path
  pure {
    project
    descriptor := descriptor.map fun _ => path
    kinds := AssetKind.all.map fun kind =>
      { kind
        held := disk.localCount project kind
        patterns := descriptor.bind fun descriptor => descriptor.patterns kind }
    hasPolicyMetadata := disk.isFile (PolicyMetadata.path project)
    hasSharingMetadata := disk.isFile (Sharing.path project) }

/-- The status of a kind as data, its fields in the order in which they are shown. -/
def kindJson (status : KindStatus) : Json :=
  .object [("kind", .string status.kind.key), ("directory", .string status.kind.directory),
    ("local", .ofNat status.held), ("patterns", (status.patterns.map Json.ofTexts).getD .null)]

/-- The status as data, its fields in the order in which they are shown. -/
def toJson (status : ProjectStatus) : Json :=
  .object [("project", .string status.project.text),
    ("descriptor", .ofText? (status.descriptor.map Path.text)),
    ("categories", .array (status.kinds.map kindJson)),
    ("policy_metadata", .bool status.hasPolicyMetadata),
    ("sharing_metadata", .bool status.hasSharingMetadata)]

end ProjectStatus

end OpsContent
