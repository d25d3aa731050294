import OpsContent.Remote.Channel
import OpsContent.Remote.Query

/-!
# Servers that follow a script

A scripted server answers from prepared listings and files, and fails where the script says so.
It shows what an export or import does without a server.
-/

namespace OpsContent.Scripted

variable {ρ : Type}

/-- What a scripted query interface answers. -/
structure Answers where
  views : List String := []
  reports : List String := []
  superMetrics : List String := []
  policies : List PolicySummary := []
  policyContent : Table Bytes := []
  customGroups : List RemoteAsset := []
  definitions : DefinitionKind → List RemoteAsset := fun _ => []
  userGroups : List String := []
  /-- Failures by the name of the call, with what it is about behind a colon. -/
  failures : Table RemoteError := []

namespace Answers

/-- Answer a call, or fail as the script says. -/
def reply {α : Type} (answers : Answers) (call : String) (value : α) : QueryAction ρ α :=
  World.settle (match answers.failures.find? call with
    | some failure => .error failure
    | none => .ok value)

/-- Names without identifiers. -/
def listing (names : List String) : List Listing :=
  names.map fun name => { id := none, name }

/-- The query interface that gives these answers. -/
def query (answers : Answers) : Query ρ where
  listViews := answers.reply "list_views" (listing answers.views)
  listReports := answers.reply "list_reports" (listing answers.reports)
  listSuperMetrics := answers.reply "list_super_metrics" (listing answers.superMetrics)
  listPolicies := answers.reply "list_policies" answers.policies
  policyContent := fun policy =>
    answers.reply ("get_policy_content:" ++ policy.id)
      ((answers.policyContent.find? policy.id).getD (Bytes.ofText ("policy " ++ policy.id)))
  listCustomGroups := answers.reply "list_custom_groups" answers.customGroups
  listDefinitions := fun kind =>
    answers.reply ("list_definitions:" ++ kind.key) (answers.definitions kind)
  importDefinitions := fun kind _ _ => answers.reply ("import_definitions:" ++ kind.key) ()
  importCustomGroup := fun name _ _ => answers.reply ("import_custom_group:" ++ name) ()
  importPolicy := fun name _ _ => answers.reply ("import_policy_archive:" ++ name) ()
  findGroups := fun names =>
    answers.reply "find_groups_by_name" (names.filter answers.userGroups.contains)

end Answers

/-- What a scripted channel does. -/
structure Behaviour where
  description : String := "fake channel"
  /-- Files by kind and name of an asset. -/
  exports : Table (List (String × Option Bytes)) := []
  /-- Failures by the name of the call, with what it is about behind a colon. -/
  failures : Table String := []
  /-- The queue survives a cleanup. -/
  sticky : Bool := false

/-- What a scripted channel counts. -/
structure Memory where
  connects : Nat := 0
  queue : Nat := 0

/-- The name of a kind in the keys of the script. -/
def kindName : ChannelKind → String
  | .view => "view"
  | .dashboard => "dashboard"
  | .report => "report"
  | .superMetric => "super_metric"
  | .metricConfig => "metric_config"

namespace Behaviour

/-- Fail if one of the names is to fail. -/
def attempt (behaviour : Behaviour) (operation : String) (calls : List String) :
    Except ChannelError Unit :=
  match calls.findSome? behaviour.failures.find? with
  | some cause => .error { operation, cause }
  | none => .ok ()

/-- Change what is counted. -/
def remember (change : Memory → Memory) : StateM (Site Memory) Unit :=
  modify fun site => { site with remote := change site.remote }

/-- Connect. A failure may be set for one connect of the session. -/
def connect (behaviour : Behaviour) : ChannelAction Memory Unit := do
  World.always (remember fun memory => { memory with connects := memory.connects + 1 })
  fun site => (behaviour.attempt "connect"
    ["connect#" ++ toString site.remote.connects, "connect"], site)

/-- Write the files of an asset, as the script has them. -/
def exportAsset (behaviour : Behaviour) (kind : ChannelKind) (name : String) (directory : Path) :
    Action Memory ChannelError Unit := do
  let operation := "export " ++ kindName kind
  World.settle (behaviour.attempt operation ["export_" ++ kindName kind ++ ":" ++ name])
  match behaviour.exports.find? (kindName kind ++ ":" ++ name) with
  | none => throw { operation, cause := "'" ++ name ++ "' not found" }
  | some files =>
    let _ ← World.always (World.onDisk (Disk.plant directory files))

/-- Count a file as queued. -/
def enqueue (behaviour : Behaviour) (kind : ChannelKind) (file : Path) (_ : Disk) :
    ChannelAction Memory Unit := do
  World.settle (behaviour.attempt "queue"
    ["add_" ++ kindName kind ++ ":" ++ file.fileName?.getD ""])
  World.always (remember fun memory => { memory with queue := memory.queue + 1 })

/-- The channel that behaves so. -/
def channel (behaviour : Behaviour) : Channel Memory where
  describe := fun _ => behaviour.description
  queued := Memory.queue
  connect := behaviour.connect
  close := pure ()
  exportAsset := behaviour.exportAsset
  enqueue := behaviour.enqueue
  importFiles := World.settle (behaviour.attempt "import" ["import_files"])
  share := fun name _ => World.settle (behaviour.attempt "share" ["share:" ++ name])
  unshare := fun name _ => World.settle (behaviour.attempt "unshare" ["unshare:" ++ name])
  cleanup := remember fun memory =>
    if behaviour.sticky then memory else { memory with queue := 0 }

end Behaviour

end OpsContent.Scripted
