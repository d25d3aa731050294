import OpsContent.Import.Share
import OpsContent.Proofs.ExportKinds
import OpsContent.Proofs.Trees
import OpsContent.Remote.Recorder
import OpsContent.Remote.Scripted

/-!
# Calls that share dashboards

Sharing metadata is a list of tasks, and an import does one after the other until one of them cannot
be done.  A task is two calls: its groups are looked up, and if all of them exist the dashboard is
shared or no longer shared.
-/

namespace OpsContent

open Import List Sharing

variable {ρ α β : Type} {disk : Disk}

/-! ## Sharing metadata as it is read -/

namespace JsonDraft

variable {reader : Reader α} {result : Table α}

theorem sorted_readEntries {table : Table α} {entries : List (String × JsonDraft)}
    (sorted : table.Sorted) (ran : readEntries reader table entries = .ok result) :
    result.Sorted := by
  induction entries generalizing table with
  | nil =>
    cases ran
    exact sorted
  | cons entry rest ih =>
    obtain ⟨value, -, later⟩ := bind_eq_ok ran
    exact ih (sorted.insert _ value) later

theorem sorted_readTable {draft : JsonDraft} (ran : readTable reader draft = .ok result) :
    result.Sorted := by
  cases draft with
  | object fields stop =>
    obtain ⟨table, entered, ended⟩ := bind_eq_ok ran
    cases stop with
    | some cause => cases ended
    | none =>
      cases ended
      exact sorted_readEntries .nil entered
  | _ => cases ran

namespace Record

variable {record : Record α} {condition : α → Prop} {value : α}

theorem of_readFields {seen : List String} {result : α} {fields : List (String × JsonDraft)}
    (kept : ∀ field ∈ record.fields, ∀ draft value after, condition value →
      field.2 draft value = .ok after → condition after) (start : condition value)
    (ran : record.readFields seen value fields = .ok result) : condition result := by
  induction fields generalizing seen value with
  | nil =>
    cases ran
    exact start
  | cons entry rest ih =>
    unfold readFields at ran
    split at ran
    · split at ran
      · cases ran
      · obtain ⟨_, -, later⟩ := bind_eq_ok ran
        exact ih start later
    next found =>
      split at ran
      · cases ran
      · obtain ⟨after, read, later⟩ := bind_eq_ok ran
        exact ih (kept _ (mem_of_find?_eq_some found) _ _ _ start read) later

theorem of_readOrdered {result : α × List JsonDraft}
    {fields : List (String × (JsonDraft → α → Except JsonError α))} {items : List JsonDraft}
    (kept : ∀ field ∈ fields, ∀ draft value after, condition value →
      field.2 draft value = .ok after → condition after) (start : condition value)
    (ran : readOrdered value fields items = .ok result) : condition result.1 := by
  fun_induction readOrdered value fields items with
  | case1 => cases ran; exact start
  | case2 => cases ran; exact start
  | case3 value name reader fields item items ih =>
    obtain ⟨after, read, later⟩ := bind_eq_ok ran
    exact ih after (forall_mem_cons.1 kept).2
      (kept (name, reader) (by simp) item value after start read) later

theorem of_read {draft : JsonDraft} {result : α}
    (kept : ∀ field ∈ record.fields, ∀ draft value after, condition value →
      field.2 draft value = .ok after → condition after)
    (start : condition record.default) (ran : record.read draft = .ok result) :
    condition result := by
  cases draft with
  | object fields stop =>
    obtain ⟨value, read, ended⟩ := bind_eq_ok ran
    cases stop with
    | some cause => cases ended
    | none =>
      cases ended
      exact of_readFields kept start read
  | array items stop =>
    obtain ⟨value, read, ended⟩ := bind_eq_ok ran
    dsimp only at ended
    split at ended
    · cases ended
      exact of_readOrdered kept start read
    · cases ended
  | _ => cases ran

end Record

end JsonDraft

namespace Sharing

variable {sharing : Sharing}

/-- Both tables are in order. -/
def Ordered (sharing : Sharing) : Prop :=
  sharing.share.Sorted ∧ sharing.unshare.Sorted

theorem ordered_of_field {draft : JsonDraft} {before after : Sharing} (ordered : before.Ordered) :
    ∀ field ∈ record.fields, field.2 draft before = .ok after → after.Ordered := by
  intro field member filled
  simp only [record, mem_cons, not_mem_nil, or_false] at member
  rcases member with rfl | rfl
  · obtain ⟨table, read, made⟩ := bind_eq_ok filled
    cases made
    exact ⟨JsonDraft.sorted_readTable read, ordered.2⟩
  · obtain ⟨table, read, made⟩ := bind_eq_ok filled
    cases made
    exact ⟨ordered.1, JsonDraft.sorted_readTable read⟩

theorem ordered_of_read {text : String} (ran : read text = .ok sharing) : sharing.Ordered := by
  obtain ⟨value, made, ended⟩ := bind_eq_ok ran
  split at ended
  · cases ended
    exact JsonDraft.Record.of_read
      (fun field member _ _ _ ordered filled => ordered_of_field ordered field member filled)
      ⟨.nil, .nil⟩ made
  · cases ended

theorem ordered_of_load {root : Path} (loaded : load disk root = .ok (some sharing)) :
    sharing.Ordered := by
  unfold load at loaded
  split at loaded
  · cases loaded
  · split at loaded
    · cases loaded
    · split at loaded
      next parsed =>
        cases loaded
        exact ordered_of_read parsed
      · cases loaded

end Sharing

/-! ## Calls and their answers -/

/-- A call with its answer. -/
inductive Exchange where
  | connect (answer : Except ChannelError Unit)
  | findGroups (groups : List String) (answer : Except RemoteError (List String))
  | sharing (task : SharingTask) (answer : Except ChannelError Unit)
  | close
  /-- Any other call. -/
  | other

namespace Exchange

@[simp] def succeeded : Exchange → Bool
  | .connect answer => answer.toBool
  | .findGroups _ answer => answer.toBool
  | .sharing _ answer => answer.toBool
  | .close | .other => true

@[simp] def task? : Exchange → Option SharingTask
  | .sharing task _ => some task
  | _ => none

/-- The tasks that were called. -/
def calledTasks (exchanges : List Exchange) : List SharingTask :=
  exchanges.filterMap task?

@[simp] theorem calledTasks_nil : calledTasks [] = [] := rfl

@[simp] theorem calledTasks_append (first later : List Exchange) :
    calledTasks (first ++ later) = calledTasks first ++ calledTasks later :=
  filterMap_append

@[simp] theorem calledTasks_cons (exchange : Exchange) (rest : List Exchange) :
    calledTasks (exchange :: rest) = exchange.task?.toList ++ calledTasks rest :=
  calledTasks_append [exchange] rest

end Exchange

/-- A server with what it was asked and what it answered. -/
abbrev Exchanged (ρ : Type) := Recorded Exchange ρ

namespace Exchanged

open Recorded

def other (step : StateM (Site ρ) α) : StateM (Site (Exchanged ρ)) α :=
  noting (fun _ => .other) step

/-- A query interface whose exchanges are kept. -/
def query (query : Query ρ) : Query (Exchanged ρ) where
  listViews := other query.listViews
  listReports := other query.listReports
  listSuperMetrics := other query.listSuperMetrics
  listPolicies := other query.listPolicies
  policyContent := fun policy => other (query.policyContent policy)
  listCustomGroups := other query.listCustomGroups
  listDefinitions := fun kind => other (query.listDefinitions kind)
  importDefinitions := fun kind definitions dependents =>
    other (query.importDefinitions kind definitions dependents)
  importCustomGroup := fun name payload policies =>
    other (query.importCustomGroup name payload policies)
  importPolicy := fun name content overwrite => other (query.importPolicy name content overwrite)
  findGroups := fun names => noting (.findGroups names) (query.findGroups names)

/-- A command channel whose exchanges are kept. -/
def channel (channel : Channel ρ) : Channel (Exchanged ρ) where
  describe := fun exchanged => channel.describe exchanged.server
  queued := fun exchanged => channel.queued exchanged.server
  connect := noting .connect channel.connect
  close := noting (fun _ => .close) channel.close
  exportAsset := fun kind name directory =>
    notingOnWorld .other (channel.exportAsset kind name directory)
  enqueue := fun kind file disk => other (channel.enqueue kind file disk)
  importFiles := other channel.importFiles
  share := fun name groups => noting (.sharing ⟨.share, name, groups⟩) (channel.share name groups)
  unshare := fun name groups =>
    noting (.sharing ⟨.unshare, name, groups⟩) (channel.unshare name groups)
  cleanup := other channel.cleanup

end Exchanged

/-- An import whose exchanges with the server are kept. -/
def Import.Context.exchanged (context : Context ρ) : Context (Exchanged ρ) where
  query := Exchanged.query context.query
  channel := Exchanged.channel context.channel
  package := context.package
  staging := context.staging
  dryRun := context.dryRun

/-! ## One task after another -/

namespace Import

variable {exchanges : List Exchange} {outcome : Except SyncError Unit} {tasks : List SharingTask}

open Exchange

variable {found : List String} {task : SharingTask} {world : World (Exchanged ρ)}
  {sharing : Sharing}

/-- The exchanges in which a task is tried, and how this ends. -/
inductive Tries (task : SharingTask) : List Exchange → Except SyncError Unit → Prop where
  | unanswered (cause : RemoteError) :
      Tries task [.findGroups task.groups (.error cause)] (.error (.remote cause))
  | missing (found : List String) (absent : missingGroups task.groups found ≠ []) :
      Tries task [.findGroups task.groups (.ok found)]
        (.error (.missingGroups task.action.word task.dashboard (missingGroups task.groups found)))
  | refused (found : List String) (present : missingGroups task.groups found = [])
      (cause : ChannelError) (package channel message : String) :
      Tries task [.findGroups task.groups (.ok found), .sharing task (.error cause)]
        (.error (.connection package channel message))
  | done (found : List String) (present : missingGroups task.groups found = []) :
      Tries task [.findGroups task.groups (.ok found), .sharing task (.ok ())] (.ok ())

/-- The exchanges in which tasks are done one after the other until one fails, and how this
ends. -/
inductive CarriesOut : List SharingTask → List Exchange → Except SyncError Unit → Prop where
  | done : CarriesOut [] [] (.ok ())
  | stop {task : SharingTask} {exchanges : List Exchange} {cause : SyncError}
      (tried : Tries task exchanges (.error cause)) (rest : List SharingTask) :
      CarriesOut (task :: rest) exchanges (.error cause)
  | next {task : SharingTask} {rest : List SharingTask} {first later : List Exchange}
      {outcome : Except SyncError Unit} (tried : Tries task first (.ok ()))
      (carried : CarriesOut rest later outcome) : CarriesOut (task :: rest) (first ++ later) outcome

theorem missingGroups_eq_nil_iff {groups : List String} :
    missingGroups groups found = [] ↔ ∀ group ∈ groups, group ∈ found := by
  simp [missingGroups]

/-- The step adds exchanges to those of the world, which with its outcome meet the condition. -/
def Shows (condition : List Exchange → Except SyncError Unit → Prop) (world : World (Exchanged ρ))
    (step : Sync (Exchanged ρ) α) : Prop :=
  Logs (·.site.remote.record) ([·]) world step fun made outcome =>
    condition made (outcome.map fun _ => ())

variable (context : Context ρ) (description : String)

theorem tries_call (present : missingGroups task.groups found = []) (step : ChannelAction ρ Unit)
    (stats : ImportStats) :
    Shows (fun made => Tries task (.findGroups task.groups (.ok found) :: made)) world (do
      Channel.run context.package description ChannelError.message
        (World.onSite (Recorded.noting (.sharing task) step))
      pure stats) := by
  refine (Recorded.logs_run world context.package description _ _ step).andThen ?_ ?_
  · rintro _ cause ⟨answer, rfl, failed⟩
    cases answer with
    | ok _ => cases failed
    | error _ =>
      cases failed
      exact .refused found present _ _ _ _
  · rintro _ _ ⟨answer, rfl, succeeded⟩
    cases answer with
    | error _ => cases succeeded
    | ok _ => exact .silent rfl (.done found present)

theorem tries_applyTask (task : SharingTask) (stats : ImportStats) (world : World (Exchanged ρ)) :
    Shows (Tries task) world (applyTask context.exchanged description task stats) := by
  refine (Recorded.logs_ask world (.findGroups task.groups) _).logs.andThen ?_ ?_
  · rintro _ cause ⟨answer, rfl, failed⟩
    cases answer with
    | ok _ => cases failed
    | error _ =>
      cases failed
      exact .unanswered _
  · rintro _ found ⟨answer, rfl, succeeded⟩
    cases answer with
    | error _ => cases succeeded
    | ok _ =>
      cases succeeded
      dsimp only
      split
      next absent => exact .silent rfl (.missing found (by simpa using absent))
      next present =>
        have allFound : missingGroups task.groups found = [] := by simpa using present
        obtain ⟨action, dashboard, groups⟩ := task
        cases action with
        | share => exact tries_call context description allFound _ _
        | unshare => exact tries_call context description allFound _ _

/-- Tasks are carried out in order. -/
theorem carriesOut_applyTasks (tasks : List SharingTask) (stats : ImportStats)
    (world : World (Exchanged ρ)) :
    Shows (CarriesOut tasks) world (applyTasks context.exchanged description stats tasks) := by
  induction tasks generalizing stats world with
  | nil => exact .silent rfl .done
  | cons task rest ih =>
    refine (tries_applyTask context description task stats world).andThen ?_ ?_
    · exact fun made cause tried => .stop tried rest
    · exact fun made stats tried => (ih stats _).mono fun more outcome => .next tried

/-- The exchanges of all tasks with the session around them, and how this ends. -/
inductive Applies (tasks : List SharingTask) : List Exchange → Except SyncError Unit → Prop where
  | idle (nothing : tasks = []) : Applies tasks [] (.ok ())
  | refused (something : tasks ≠ []) (cause : ChannelError) (package channel message : String) :
      Applies tasks [.connect (.error cause)] (.error (.connection package channel message))
  | held {exchanges : List Exchange} {outcome : Except SyncError Unit} (something : tasks ≠ [])
      (carried : CarriesOut tasks exchanges outcome) :
      Applies tasks (.connect (.ok ()) :: exchanges ++ [.close]) outcome

theorem applies_session (something : tasks ≠ []) (stats : ImportStats) (world : World (Exchanged ρ)) :
    Shows (Applies tasks) world
      (context.exchanged.channel.session context.package description ChannelError.message
        (applyTasks context.exchanged description stats tasks)) := by
  refine (Recorded.logs_run world _ description _ .connect _).andThen ?_ ?_
  · rintro _ cause ⟨answer, rfl, failed⟩
    cases answer with
    | ok _ => cases failed
    | error _ =>
      cases failed
      exact .refused something _ _ _ _
  · rintro _ _ ⟨answer, rfl, succeeded⟩
    cases answer with
    | error _ => cases succeeded
    | ok _ =>
      obtain ⟨exchanges, added, carried⟩ :=
        carriesOut_applyTasks context description tasks stats _
      refine ⟨exchanges ++ [.close], ?_, .held something carried⟩
      exact (congrArg (· ++ [Exchange.close]) added).trans (by simp)

theorem isDirectory_of_load (loaded : load disk context.staging = .ok (some sharing)) :
    disk.isDirectory (context.directory .dashboard) := by
  unfold load at loaded
  split at loaded
  · cases loaded
  next present =>
    have found : (disk.node? (path context.staging)).isSome := by
      simpa [Disk.pathExists, Option.isSome_iff_ne_none] using present
    obtain ⟨node, reached⟩ := Option.isSome_iff_exists.1 found
    have directory := AssetKind.dashboard.isEntry_directory
    exact Disk.isDirectory_of_node?_join (by decide) (Path.pieces_join_ne_blank _ directory)
      reached

theorem applies_applySharing (stats : ImportStats)
    (loaded : load world.disk context.staging = .ok (some sharing)) :
    Shows (Applies (sharingTasks sharing)) world (applySharing context.exchanged stats) := by
  have stands : world.disk.isDirectory (context.exchanged.directory .dashboard) :=
    isDirectory_of_load context loaded
  have looked : (World.look : Sync (Exchanged ρ) Disk) world = (.ok world.disk, world) := rfl
  have settled : (World.settle (load world.disk context.exchanged.staging) :
      Sync (Exchanged ρ) (Option Sharing)) world = (.ok (some sharing), world) := by
    exact congrArg (·, world) loaded
  unfold Shows Logs applySharing
  rw [exceptBind_of_ok looked, stands]
  simp only [Bool.not_true, Bool.false_eq_true, if_false]
  rw [exceptBind_of_ok settled]
  dsimp only
  split
  next nothing =>
    exact ⟨[], (append_nil _).symm, .idle (isEmpty_iff.1 nothing)⟩
  next something =>
    exact applies_session context _ (fun nothing => something (isEmpty_iff.2 nothing))
      stats world

/-! ## What the exchanges show -/

/-- Every call comes directly behind a lookup of its groups that found all of them. -/
def LookedUp (exchanges : List Exchange) : Prop :=
  ∀ earlier task answer later, exchanges = earlier ++ .sharing task answer :: later →
    ∃ before found, earlier = before ++ [.findGroups task.groups (.ok found)] ∧
      ∀ group ∈ task.groups, group ∈ found

theorem LookedUp.append {first later : List Exchange} (looked : LookedUp first)
    (lookedLater : LookedUp later) : LookedUp (first ++ later) := by
  intro earlier task answer rest whole
  rcases append_eq_append_iff.1 whole with ⟨middle, rfl, behind⟩ | ⟨middle, rfl, ahead⟩
  · obtain ⟨before, found, rfl, all⟩ := lookedLater middle task answer rest behind
    exact ⟨first ++ before, found, by simp, all⟩
  · cases middle with
    | nil =>
      obtain ⟨before, found, split, all⟩ := lookedLater [] task answer rest ahead.symm
      simp at split
    | cons exchange middle =>
      cases ahead
      exact looked earlier task answer middle rfl

theorem LookedUp.of_notCalled (silent : calledTasks exchanges = []) : LookedUp exchanges := by
  intro earlier task answer later whole
  simp [whole] at silent

theorem lookedUp_pair (present : missingGroups task.groups found = [])
    (answer : Except ChannelError Unit) :
    LookedUp [.findGroups task.groups (.ok found), .sharing task answer] := by
  intro earlier other given later whole
  cases earlier with
  | nil => cases whole
  | cons exchange earlier =>
    cases earlier with
    | nil =>
      cases whole
      exact ⟨[], found, rfl, missingGroups_eq_nil_iff.1 present⟩
    | cons second earlier =>
      cases earlier <;> cases whole

/-- How far an import came with its tasks, as the exchanges show it. -/
structure AppliedInOrder (tasks : List SharingTask) (exchanges : List Exchange)
    (outcome : Except SyncError Unit) : Prop where
  called : calledTasks exchanges <+: tasks
  lookedUp : LookedUp exchanges
  finished : outcome = .ok () ↔
    calledTasks exchanges = tasks ∧ ∀ exchange ∈ exchanges, exchange.succeeded = true
  missing : ∀ word dashboard groups, outcome = .error (.missingGroups word dashboard groups) →
    ∃ task rest before found, tasks = calledTasks exchanges ++ task :: rest ∧
      exchanges = before ++ [.findGroups task.groups (.ok found), .close] ∧
      word = task.action.word ∧ dashboard = task.dashboard ∧
      groups = task.groups.filter (· ∉ found)
  unhindered : (∀ exchange ∈ exchanges, exchange.succeeded = true) →
    (∀ groups found, .findGroups groups (.ok found) ∈ exchanges → ∀ group ∈ groups, group ∈ found) →
      outcome = .ok ()
  unopened : tasks = [] → exchanges = []

theorem Tries.lookedUp (tries : Tries task exchanges outcome) : LookedUp exchanges := by
  cases tries with
  | unanswered cause => exact LookedUp.of_notCalled rfl
  | missing found absent => exact LookedUp.of_notCalled rfl
  | refused found present cause => exact lookedUp_pair present _
  | done found present => exact lookedUp_pair present _

namespace CarriesOut

variable {tasks : List SharingTask} {exchanges : List Exchange} {outcome : Except SyncError Unit}

theorem lookedUp (carries : CarriesOut tasks exchanges outcome) : LookedUp exchanges := by
  induction carries with
  | done => exact LookedUp.of_notCalled rfl
  | stop tried rest => exact tried.lookedUp
  | next tried carried ih => exact tried.lookedUp.append ih

theorem called (carries : CarriesOut tasks exchanges outcome) :
    calledTasks exchanges <+: tasks := by
  induction carries with
  | done => exact prefix_rfl
  | stop tried rest => cases tried <;> simp
  | next tried carried ih =>
    cases tried
    simpa using ih

/-- Sharing succeeds if each task was called and succeeded. -/
theorem finished (carries : CarriesOut tasks exchanges outcome) :
    outcome = .ok () ↔
      calledTasks exchanges = tasks ∧ ∀ exchange ∈ exchanges, exchange.succeeded := by
  induction carries with
  | done => simp
  | stop tried rest => cases tried <;> simp [Except.toBool]
  | next tried carried ih =>
    cases tried
    simpa [Except.toBool] using ih

theorem unhindered (carries : CarriesOut tasks exchanges outcome)
    (succeeded : ∀ exchange ∈ exchanges, exchange.succeeded)
    (all : ∀ groups found, .findGroups groups (.ok found) ∈ exchanges →
      ∀ group ∈ groups, group ∈ found) : outcome = .ok () := by
  induction carries with
  | done => rfl
  | stop tried rest =>
    cases tried with
    | unanswered cause => simp [Except.toBool] at succeeded
    | refused found present cause => simp [Except.toBool] at succeeded
    | missing found absent =>
      exact absurd (missingGroups_eq_nil_iff.2 (all _ found (by simp))) absent
  | next tried carried ih =>
    exact ih (fun exchange member => succeeded exchange (by simp [member]))
      fun groups found member => all groups found (by simp [member])

theorem missing {word dashboard : String} {groups : List String}
    (carries : CarriesOut tasks exchanges (.error (.missingGroups word dashboard groups))) :
    ∃ task rest before found, tasks = calledTasks exchanges ++ task :: rest ∧
      exchanges = before ++ [.findGroups task.groups (.ok found)] ∧
      word = task.action.word ∧ dashboard = task.dashboard ∧
      groups = task.groups.filter (· ∉ found) := by
  generalize ended :
    Except.error (SyncError.missingGroups word dashboard groups) = outcome at carries
  induction carries with
  | done => cases ended
  | @stop task exchanges cause tried rest =>
    cases tried with
    | unanswered cause => cases ended
    | refused found present cause => cases ended
    | missing found absent =>
      cases ended
      exact ⟨task, rest, [], found, rfl, rfl, rfl, rfl, by simp [missingGroups]⟩
  | @next first rest exchanges later outcome tried carried ih =>
    obtain ⟨task, others, before, found, rfl, rfl, named⟩ := ih ended
    refine ⟨task, others, exchanges ++ before, found, ?_, (append_assoc ..).symm, named⟩
    cases tried
    simp

end CarriesOut

theorem Applies.inOrder (applies : Applies tasks exchanges outcome) :
    AppliedInOrder tasks exchanges outcome := by
  cases applies with
  | idle nothing =>
    subst nothing
    refine ⟨prefix_rfl, LookedUp.of_notCalled rfl, by simp, ?_, fun _ _ => rfl, fun _ => rfl⟩
    intro word dashboard groups failed
    cases failed
  | refused something cause package channel message =>
    refine ⟨List.nil_prefix, LookedUp.of_notCalled rfl, ?_, ?_, ?_,
      fun nothing => absurd nothing something⟩
    · simp [Except.toBool]
    · intro word dashboard groups failed
      cases failed
    · simp [Except.toBool]
  | @held exchanges outcome something carried =>
    refine ⟨?_, ?_, ?_, ?_, ?_, fun nothing => absurd nothing something⟩
    · simpa using carried.called
    · have opened : LookedUp [.connect (.ok ())] := .of_notCalled rfl
      exact (opened.append carried.lookedUp).append (.of_notCalled rfl)
    · simpa [Except.toBool, or_imp, forall_and] using carried.finished
    · intro word dashboard groups failed
      subst failed
      obtain ⟨task, rest, before, found, whole, rfl, named⟩ := carried.missing
      exact ⟨task, rest, .connect (.ok ()) :: before, found, by simpa using whole, by simp,
        named⟩
    · intro succeeded all
      exact carried.unhindered (fun exchange member => succeeded exchange (by simp [member]))
        fun groups found member => all groups found (by simp [member])

theorem sharingTasks_eq (sharing : Sharing) :
    sharingTasks sharing =
      ((sharing.share.filter (!·.2.isEmpty)).map fun entry => ⟨.share, entry.1, entry.2⟩) ++
        (sharing.unshare.filter (!·.2.isEmpty)).map fun entry => ⟨.unshare, entry.1, entry.2⟩ := by
  simp [sharingTasks, SharingAction.all, groups]

/-- Sharing is applied in order and never to a missing group.  For all metadata that can be read
and every server, the calls that share dashboards and then those that no longer share them follow
the sorted names of the dashboards with groups, and they break off where a call fails or a group
is missing. -/
theorem sharing_applied_inOrder (context : Context ρ) (stats : ImportStats)
    (world : World (Exchanged ρ)) {sharing : Sharing}
    (loaded : Sharing.load world.disk context.staging = .ok (some sharing)) :
    sharing.share.Sorted ∧ sharing.unshare.Sorted ∧
    ∃ outcome after exchanges,
      applySharing context.exchanged stats world = (outcome, after) ∧
      after.site.remote.record = world.site.remote.record ++ exchanges ∧
      AppliedInOrder
        (((sharing.share.filter (!·.2.isEmpty)).map fun entry => ⟨.share, entry.1, entry.2⟩) ++
          (sharing.unshare.filter (!·.2.isEmpty)).map fun entry => ⟨.unshare, entry.1, entry.2⟩)
        exchanges (outcome.map fun _ => ()) := by
  have ordered := Sharing.ordered_of_load loaded
  refine ⟨ordered.1, ordered.2, ?_⟩
  obtain ⟨exchanges, added, applies⟩ := applies_applySharing context stats loaded
  have inOrder := applies.inOrder
  rw [sharingTasks_eq] at inOrder
  rw [List.flatMap_singleton'] at added
  exact ⟨_, _, exchanges, Prod.eta _, added, inOrder⟩

def groupedSharing : Sharing where
  share := [("A", ["ops", "ops"])]
  unshare := [("A", ["dev", "ops", "web"]), ("B", []), ("C", ["ops"])]

/-- The metadata as it stands in the file, with the dashboards out of order. -/
def groupedWorld : World (Exchanged Scripted.Memory) where
  disk := { current := [], nodes := [(["work"], .directory),
    (["work", AssetKind.dashboard.directory], .directory),
    (["work", AssetKind.dashboard.directory, Sharing.fileName], .file (Bytes.ofText
      ("\x7b\"unshare\":\x7b\"C\":[\"ops\"],\"B\":[],\"A\":[\"dev\",\"ops\",\"web\"]\x7d," ++
        "\"share\":\x7b\"A\":[\"ops\",\"ops\"]\x7d\x7d")))] }
  site := { tags := fun _ => "0", remote := { server := {} } }

/-- A server with one group of users. -/
def groupedContext : Context Scripted.Memory where
  query := Scripted.Answers.query { userGroups := ["ops"] }
  channel := Scripted.Behaviour.channel {}
  package := ⟨⟨true, ["work"]⟩, "p", "", none, "1.0.0"⟩
  staging := ⟨true, ["work"]⟩
  dryRun := false

/-- One dashboard is shared, and two of the groups from which it is to be revoked are missing. -/
theorem sharing_applied_inOrder_grouped :
    Sharing.load groupedWorld.disk groupedContext.staging = .ok (some groupedSharing) ∧
      (applySharing groupedContext.exchanged {} groupedWorld).1 =
        .error (.missingGroups "unshare" "A" ["dev", "web"]) ∧
      ∃ outcome after exchanges,
        applySharing groupedContext.exchanged {} groupedWorld = (outcome, after) ∧
        after.site.remote.record = exchanges ∧
        AppliedInOrder [⟨.share, "A", ["ops", "ops"]⟩, ⟨.unshare, "A", ["dev", "ops", "web"]⟩,
          ⟨.unshare, "C", ["ops"]⟩] exchanges (outcome.map fun _ => ()) := by
  have loaded : Sharing.load groupedWorld.disk groupedContext.staging =
      .ok (some groupedSharing) := by
    decide +kernel
  exact ⟨loaded, by decide +kernel,
    (sharing_applied_inOrder groupedContext {} groupedWorld loaded).2.2⟩

end Import

end OpsContent
