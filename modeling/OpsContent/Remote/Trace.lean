import OpsContent.Remote.Recorder

/-!
# Traces of calls

A traced server keeps every call that is made of it, in order and before it is answered. The
answers are those of the server inside.
-/

namespace OpsContent

/-- A call of the query interface with what it is given. -/
inductive Call where
  | listViews
  | listReports
  | listSuperMetrics
  | listPolicies
  | listCustomGroups
  | listDefinitions (kind : DefinitionKind)
  | policyContent (id : String)
  | importDefinitions (kind : DefinitionKind) (definitions : Table Json)
      (dependents : Dependents)
  | importCustomGroup (name : String) (payload : Json) (policies : PolicyMetadata)
  | importPolicy (name : String) (content : Bytes) (overwrite : Bool)
  | findGroups (names : List String)
  | connect
  | close
  | cleanup
  | exportAsset (kind : ChannelKind) (name : String) (directory : Path)
  /-- The content is that of the file when it was queued. -/
  | enqueue (kind : ChannelKind) (file : Path) (content : Option Bytes)
  /-- The number is that of the files that were queued. -/
  | importFiles (queued : Nat)
  | share (name : String) (groups : List String)
  | unshare (name : String) (groups : List String)

/-- A server whose calls are recorded. -/
abbrev Traced (ρ : Type) := Recorded Call ρ

namespace Traced

variable {ρ α : Type}

abbrev calls (traced : Traced ρ) : List Call :=
  traced.record

abbrev inside : Part (Traced ρ) ρ :=
  Recorded.inside

/-- Keep a call and let the server answer it. -/
def answer (call : Call) (step : StateM (Site ρ) α) : StateM (Site (Traced ρ)) α := do
  Recorded.note call
  inside.onSite step

/-- A query interface that keeps its calls. -/
def query (query : Query ρ) : Query (Traced ρ) where
  listViews := answer .listViews query.listViews
  listReports := answer .listReports query.listReports
  listSuperMetrics := answer .listSuperMetrics query.listSuperMetrics
  listPolicies := answer .listPolicies query.listPolicies
  policyContent := fun policy => answer (.policyContent policy.id) (query.policyContent policy)
  listCustomGroups := answer .listCustomGroups query.listCustomGroups
  listDefinitions := fun kind => answer (.listDefinitions kind) (query.listDefinitions kind)
  importDefinitions := fun kind definitions dependents =>
    answer (.importDefinitions kind definitions dependents)
      (query.importDefinitions kind definitions dependents)
  importCustomGroup := fun name payload policies =>
    answer (.importCustomGroup name payload policies)
      (query.importCustomGroup name payload policies)
  importPolicy := fun name content overwrite =>
    answer (.importPolicy name content overwrite) (query.importPolicy name content overwrite)
  findGroups := fun names => answer (.findGroups names) (query.findGroups names)

/-- A command channel that keeps its calls. -/
def channel (channel : Channel ρ) : Channel (Traced ρ) where
  describe := fun traced => channel.describe traced.server
  queued := fun traced => channel.queued traced.server
  connect := answer .connect channel.connect
  close := answer .close channel.close
  exportAsset := fun kind name directory => do
    World.always (World.onSite (Recorded.note (.exportAsset kind name directory)))
    inside.onWorld (channel.exportAsset kind name directory)
  enqueue := fun kind file disk =>
    answer (.enqueue kind file (disk.readFile file).toOption) (channel.enqueue kind file disk)
  importFiles := fun site =>
    answer (.importFiles (channel.queued site.remote.server)) channel.importFiles site
  share := fun name groups => answer (.share name groups) (channel.share name groups)
  unshare := fun name groups => answer (.unshare name groups) (channel.unshare name groups)
  cleanup := answer .cleanup channel.cleanup

end Traced

end OpsContent
