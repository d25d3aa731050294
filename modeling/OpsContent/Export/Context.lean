import OpsContent.Remote.Channel
import OpsContent.Remote.Query

/-!
# The setting of an export

One package is exported from one server into a staging directory, with scratch directories
beside it.
-/

namespace OpsContent.Export

/-- From where and to where an export goes. -/
structure Context (ρ : Type) where
  query : Query ρ
  channel : Channel ρ
  package : Package
  /-- The directory that becomes part of the project. -/
  staging : Path
  /-- The directory that holds scratch directories. -/
  scratch : Path

namespace Context

variable {ρ : Type}

/-- Make the directory of a kind. -/
def kindDirectory (context : Context ρ) (kind : AssetKind) : Sync ρ Path := do
  let directory := context.staging.join kind.directory
  World.files (Disk.makeDirectories directory)
  pure directory

/-- What a failed batch is called. -/
def batchName (context : Context ρ) (kind : AssetKind) : String :=
  "Export of " ++ kind.label ++ " in package '" ++ context.package.fullName ++ "'"

/-- The words for an export that the channel refuses. -/
def unable (kind : AssetKind) (cause : ChannelError) : String :=
  "unable to export " ++ kind.label ++ ": " ++ cause.message

/-- What the names of a kind's scratch directories begin with. -/
def stem (kind : AssetKind) : String :=
  "iac-" ++ Text.lowerAscii kind.key

end Context

end OpsContent.Export
