import OpsContent.Asset
import OpsContent.Package
import OpsContent.Remote.Error
import OpsContent.Zip.Archive

/-!
# Failures

`SyncError` is what an export or import ends with when it fails, and `Failure` what a command
ends with. Every failure belongs to a class, which fixes its name for programs, the exit status
and whether trying again may help.
-/

namespace OpsContent

/-- An item of a batch that failed. -/
structure ItemFailure where
  kind : AssetKind
  item : String
  message : String
  deriving DecidableEq

def ItemFailure.display (failure : ItemFailure) : String :=
  "[" ++ failure.kind.key ++ "] " ++ failure.item ++ ": " ++ failure.message

/-- Why an export or an import fails. -/
inductive SyncError where
  | io (cause : IoError)
  | json (cause : JsonError)
  | archive (cause : ZipError)
  /-- A file of the project does not hold what it should. -/
  | configuration (message : String)
  /-- The command channel failed while it worked on a package. -/
  | connection (package channel message : String)
  | remote (cause : RemoteError)
  /-- The server has nothing of a kind that is needed. -/
  | emptyManifest (kind : AssetKind)
  | packageNotFound (path : Path)
  /-- Items of a batch failed, the others were done. -/
  | batch (context : String) (failures : List ItemFailure)
  /-- Dashboards are to be shared with groups that the server does not know. -/
  | missingGroups (action dashboard : String) (missing : List String)
  deriving DecidableEq

/-- The words for a failed synchronization. -/
def SyncError.message : SyncError → String
  | .io cause => "IO error: " ++ cause.message
  | .json cause => "JSON error: " ++ cause.message
  | .archive cause => "Archive error: " ++ cause.message
  | .configuration message => "Configuration error: " ++ message
  | .connection package channel message =>
    "Connection error for package " ++ package ++ " using " ++ channel ++ ": " ++ message
  | .remote cause => "Remote error: " ++ cause.message
  | .emptyManifest kind => "No " ++ kind.label ++ " available on the server"
  | .packageNotFound path => "Package not found: " ++ path.text
  | .batch context failures =>
    context ++ ": " ++ toString failures.length ++ " item(s) failed: " ++
      "; ".intercalate (failures.map ItemFailure.display)
  | .missingGroups action dashboard missing =>
    "Cannot " ++ action ++ " dashboard '" ++ dashboard ++
      "': user groups not found on the server: " ++ ", ".intercalate missing

/-- A batch fails if any item has. -/
def batchResult (context : String) (failures : List ItemFailure) : Except SyncError Unit :=
  if failures.isEmpty then .ok () else .error (.batch context failures)

/-- Why a command fails. -/
inductive Failure where
  | descriptorNotFound (path : Path)
  | sync (cause : SyncError)
  | remote (cause : RemoteError)
  | io (cause : IoError)
  | json (cause : JsonError)
  | invalidArgument (message : String)
  | config (message : String)
  | other (message : String)
  deriving DecidableEq

/-- The kinds of failures that a caller can tell apart. -/
inductive FailureClass where
  | packageNotFound
  | descriptorNotFound
  | invalidArgument
  | partialFailure
  | missingGroups
  | emptyManifest
  | connection
  | remote
  | config
  | io
  | json
  | archive
  | internal
  deriving DecidableEq

namespace FailureClass

def code : FailureClass → String
  | .packageNotFound => "PACKAGE_NOT_FOUND"
  | .descriptorNotFound => "DESCRIPTOR_NOT_FOUND"
  | .invalidArgument => "INVALID_ARGUMENT"
  | .partialFailure => "PARTIAL_FAILURE"
  | .missingGroups => "MISSING_GROUPS"
  | .emptyManifest => "EMPTY_MANIFEST"
  | .connection => "CONNECTION_ERROR"
  | .remote => "REMOTE_ERROR"
  | .config => "CONFIG_ERROR"
  | .io => "IO_ERROR"
  | .json => "JSON_ERROR"
  | .archive => "ARCHIVE_ERROR"
  | .internal => "INTERNAL_ERROR"

/-- What the program exits with. -/
def exitStatus : FailureClass → Nat
  | .internal => 1
  | .packageNotFound | .descriptorNotFound => 3
  | .invalidArgument => 4
  | .partialFailure | .missingGroups | .emptyManifest => 5
  | .connection | .remote => 6
  | .config => 7
  | .io | .json | .archive => 8

/-- Can another try help? -/
def isRetryable : FailureClass → Bool
  | .connection | .remote | .invalidArgument => true
  | _ => false

end FailureClass

/-- The class of a failed export or import. -/
def SyncError.failureClass : SyncError → FailureClass
  | .io _ => .io
  | .json _ => .json
  | .archive _ => .archive
  | .configuration _ => .config
  | .connection .. => .connection
  | .remote _ => .remote
  | .emptyManifest _ => .emptyManifest
  | .packageNotFound _ => .packageNotFound
  | .batch .. => .partialFailure
  | .missingGroups .. => .missingGroups

def RemoteError.hint? : RemoteError → Option String
  | .status _ _ 401 _ =>
    some "The API token was rejected. Acquire a fresh token and set VRSYNC_TOKEN."
  | _ => none

/-- What to do about a failed export or import. -/
def SyncError.hint? : SyncError → Option String
  | .connection _ channel _ =>
    some ("Check SSH access to the server. For troubleshooting run: " ++ channel)
  | .missingGroups _ _ missing =>
    some ("Create the user groups " ++ ", ".intercalate missing ++
      " on the server or remove them from dashboards/dashboardSharingMetadata.vrops.json")
  | .emptyManifest kind =>
    some ("Remove '" ++ kind.key ++ "' from content.yaml or check the account's permissions.")
  | .packageNotFound path =>
    some ("No file or directory at " ++ path.text ++ ". Build the package first.")
  | .remote cause => cause.hint?
  | _ => none

namespace Failure

def message : Failure → String
  | .descriptorNotFound path => "Package descriptor not found: " ++ path.text
  | .sync cause => cause.message
  | .remote cause => "Remote error: " ++ cause.message
  | .io cause => "IO error: " ++ cause.message
  | .json cause => "JSON error: " ++ cause.message
  | .invalidArgument message => "Invalid argument: " ++ message
  | .config message => "Configuration error: " ++ message
  | .other message => message

def failureClass : Failure → FailureClass
  | .descriptorNotFound _ => .descriptorNotFound
  | .sync cause => cause.failureClass
  | .remote _ => .remote
  | .io _ => .io
  | .json _ => .json
  | .invalidArgument _ => .invalidArgument
  | .config _ => .config
  | .other _ => .internal

def exitStatus (failure : Failure) : Nat :=
  failure.failureClass.exitStatus

/-- What to do about a failure, where there is something. -/
def hint? : Failure → Option String
  | .descriptorNotFound path =>
    some ("Create " ++ path.text ++ " listing the content to export, or pass --descriptor.")
  | .config message =>
    if Text.occursIn "validation failed".toList message.toList then
      some ("Set the missing values with flags, VRSYNC_* environment variables " ++
        "or ~/.vrsync/config.json")
    else none
  | .sync cause => cause.hint?
  | .remote cause => cause.hint?
  | _ => none

/-- The items of a batch that failed. -/
def items? : Failure → Option (List ItemFailure)
  | .sync (.batch _ failures) => some failures
  | _ => none

end Failure

def ItemFailure.toJson (failure : ItemFailure) : Json :=
  Json.ofFields [("kind", .string failure.kind.key), ("item", .string failure.item),
    ("message", .string failure.message)]

/-- A failure as data, for programs that read it. -/
def Failure.toJson (failure : Failure) : Json :=
  let inner := [("code", Json.string failure.failureClass.code),
    ("message", .string failure.message), ("retryable", .bool failure.failureClass.isRetryable),
    ("exit_code", .ofNat failure.exitStatus)]
  let hint := failure.hint?.toList.map fun hint => ("hint", Json.string hint)
  let items := failure.items?.toList.map fun items =>
    ("failures", Json.array (items.map ItemFailure.toJson))
  Json.ofFields [("error", Json.ofFields (inner ++ hint ++ items))]

end OpsContent
