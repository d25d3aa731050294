import OpsContent.Proofs.ImportTotals
import OpsContent.Proofs.QueuedArchives
import OpsContent.Proofs.RemoteScratch

/-!
# The queue between packages

A submission takes whatever is queued and does not clear the queue.  That packages are kept apart
rests on the cleanup at the end of every import: between calls nothing is queued, so what a
submission takes was queued by the same import.
-/

namespace OpsContent

open List

variable {ρ α : Type}

/-! ## Channels with a queue -/

/-- What is pending on a channel is what was queued since the last cleanup. -/
structure Channel.HoldsQueue (channel : Channel ρ) (pending : ρ → List Ssh.Pending) : Prop
    extends channel.Pends pending where
  refused : ∀ kind file disk site cause after,
    channel.enqueue kind file disk site = (.error cause, after) →
      pending after.remote = pending site.remote
  close : ∀ site, pending (channel.close site).2.remote = pending site.remote
  exportAsset : ∀ kind name directory world,
    pending (channel.exportAsset kind name directory world).2.site.remote =
      pending world.site.remote
  importFiles : ∀ site, pending (channel.importFiles site).2.remote = pending site.remote
  share : ∀ name groups site,
    pending (channel.share name groups site).2.remote = pending site.remote
  unshare : ∀ name groups site,
    pending (channel.unshare name groups site).2.remote = pending site.remote
  cleanup : ∀ site, pending (channel.cleanup site).2.remote = []

theorem Scripted.Answers.maintains (answers : Scripted.Answers) (property : ρ → Prop) :
    (answers.query : Query ρ).Maintains property where
  views := Keeps.settle _
  reports := Keeps.settle _
  superMetrics := Keeps.settle _
  policies := Keeps.settle _
  policyContent := fun _ => .settle _
  customGroups := Keeps.settle _
  definitions := fun _ => .settle _
  importDefinitions := fun _ _ _ => .settle _
  importCustomGroup := fun _ _ _ => .settle _
  importPolicy := fun _ _ _ => .settle _
  findGroups := fun _ => .settle _

/-! ## The queue of a secure shell -/

namespace Ssh

variable (address : Address) (launcher : Launcher ρ) {files : List Pending}

theorem keepsPending_launch (invocation : Invocation) :
    Keeps (Site.Has fun state : State ρ => state.pending = files) (launch launcher invocation) :=
  fun site same => (pending_launch launcher invocation site).trans same

theorem keepsPending_run (operation : String) (invocation : Invocation) :
    Keeps (Site.Has fun state : State ρ => state.pending = files)
      (run launcher operation invocation) :=
  fun site same => (pending_run launcher operation invocation site).trans same

theorem keptByPrograms_pending :
    KeptByPrograms address launcher fun state => state.pending = files where
  directories operation _ := keepsPending_run launcher operation _
  uploads operation _ _ := keepsPending_run launcher operation _
  tools operation _ := keepsPending_run launcher operation _

theorem keepsPending_fetch (operation remote : String) (directory : Path) :
    Keeps (World.Has fun state : State ρ => state.pending = files)
      (fetch address launcher operation remote directory) := by
  refine .andThen (fun world => keepsPending_launch launcher _ world.site) fun outcome => ?_
  refine .andThen (fun _ same => same) fun _ => ?_
  split
  · exact .succeed ()
  · exact .fail _

theorem keepsPending_exportAsset (kind : ChannelKind) (name : String) (directory : Path) :
    Keeps (World.Has fun state : State ρ => state.pending = files)
      (exportAsset address launcher kind name directory) := by
  unfold exportAsset
  have connected := keeps_ensureConnected (fun state : State ρ => state.pending = files)
    ("export " ++ kind.words)
  refine .andThen (fun world => connected world.site) fun _ => ?_
  refine .andThen (fun _ same => same) fun current => ?_
  refine .andThen (fun _ same => same) fun unique => ?_
  refine .andThen (fun world => keepsPending_run launcher _ _ world.site) fun _ => ?_
  refine .andThen (fun _ same => same) fun made => ?_
  split
  · exact .fail _
  · exact keepsPending_fetch address launcher _ _ _

theorem pending_cleanup (site : Site (State ρ)) :
    (cleanup address launcher site).2.remote.pending = [] := by
  change ((if site.remote.connected then _ else _ : StateM (Site (State ρ)) Unit)
    { site with remote := { site.remote with pending := [] } }).2.remote.pending = []
  split
  · have kept := pending_run launcher "cleanup"
      (address.command ("rm -rf " ++ Shell.quote site.remote.directory))
      { site with remote := { site.remote with pending := [] } }
    cases done : run launcher "cleanup"
        (address.command ("rm -rf " ++ Shell.quote site.remote.directory))
        { site with remote := { site.remote with pending := [] } } with
    | mk result after =>
      rw [done] at kept
      rw [bind_of_eq done]
      cases result with
      | ok _ => exact kept
      | error cause => exact kept
  · rfl

theorem holdsQueue : (channel address launcher).HoldsQueue State.pending where
  toPends := pends address launcher
  refused kind file disk site cause after failed := by
    change enqueue kind file disk site = _ at failed
    unfold enqueue at failed
    split at failed
    · cases failed
      rfl
    · cases failed
  close site := rfl
  exportAsset kind name directory world :=
    keepsPending_exportAsset address launcher kind name directory world rfl
  importFiles site := (keptByPrograms_pending address launcher).importFiles site rfl
  share name groups site :=
    (keptByPrograms_pending address launcher).sharing "share" name groups site rfl
  unshare name groups site :=
    (keptByPrograms_pending address launcher).sharing "unshare" name groups site rfl
  cleanup site := pending_cleanup address launcher site

end Ssh

/-! ## Watching a queue -/

/-- What happens to the queue of a channel. -/
inductive QueueEvent where
  | queued (file : Ssh.Pending)
  /-- What was pending at that moment. -/
  | submitted (files : List Ssh.Pending)
  | cleaned
  deriving DecidableEq

/-- A server whose queue is watched. -/
abbrev Watched (ρ : Type) := Recorded QueueEvent ρ

namespace Watched

open Recorded

/-- A channel whose queue is watched.  A file counts as queued if the channel takes it. -/
def channel (pending : ρ → List Ssh.Pending) (channel : Channel ρ) : Channel (Watched ρ) :=
  { inside.channel channel with
    enqueue := fun kind file disk => do
      inside.onSite (channel.enqueue kind file disk)
      World.always (note (.queued ⟨kind, file⟩))
    importFiles := fun site =>
      inside.onSite channel.importFiles
        (note (.submitted (pending site.remote.server)) site).2
    cleanup := do
      inside.onSite channel.cleanup
      note .cleaned }

/-- A property of what happened to the queue and of what waits in it. -/
def Shows (pending : ρ → List Ssh.Pending)
    (property : List QueueEvent → List Ssh.Pending → Prop) (watched : Watched ρ) : Prop :=
  property watched.record (pending watched.server)

variable {pending : ρ → List Ssh.Pending} {property : List QueueEvent → List Ssh.Pending → Prop}

theorem keeps_inside {step : StateM (Site ρ) α}
    (spares : ∀ site, pending (step site).2.remote = pending site.remote) :
    Keeps (Site.Has (Shows pending property)) (inside.onSite step) := by
  intro site holds
  change property site.remote.record (pending (step (inside.narrow site)).2.remote)
  rw [spares]
  exact holds

theorem maintains_query {query : Query ρ}
    (apart : ∀ files, query.Maintains fun server => pending server = files) :
    (inside.query query).Maintains (Shows pending property) :=
  Part.maintains _ apart fun kept => keeps_inside fun site => kept _ site rfl

variable {base : Channel ρ}

theorem frames_channel (queue : base.HoldsQueue pending) :
    (channel pending base).Frames (World.Has (Shows pending property))
      (World.Has (Shows pending property)) (World.Has (Shows pending property))
      (World.Has (Shows pending property)) :=
  .of_keeps (fun world => keeps_inside queue.connect world.site)
    fun world => keeps_inside queue.close world.site

theorem keeps_exportAsset (queue : base.HoldsQueue pending) (kind : ChannelKind) (name : String)
    (directory : Path) :
    Keeps (World.Has (Shows pending property))
      ((channel pending base).exportAsset kind name directory) := by
  intro world holds
  change property world.site.remote.record
    (pending (base.exportAsset kind name directory _).2.site.remote)
  rw [queue.exportAsset]
  exact holds

end Watched

/-! ## What one import does to the queue -/

/-- The files that one import of a package queued. -/
structure Consignment where
  package : Package
  /-- What makes the name of the staging directory unique. -/
  tag : String
  files : List Ssh.Pending
  submitted : Bool

/-- What happens to the queue in one import. -/
def Consignment.events (consignment : Consignment) : List QueueEvent :=
  consignment.files.map .queued ++
    (if consignment.submitted then [.submitted consignment.files] else []) ++ [.cleaned]

namespace Synchronizer

variable {packages : List Package} {world : World (Watched ρ)}

/-- A file that is queued for something in the directory of its kind, where a package was
unpacked. -/
def Unpacked (synchronizer : Synchronizer ρ) (package : Package) (tag : String)
    (file : Ssh.Pending) : Prop :=
  ∃ name, file.file = Import.queuedFile file.kind
    (((synchronizer.importStaging package tag).join file.kind.assetKind.directory).join name)

/-- The queue of the channel is watched. -/
def watched (synchronizer : Synchronizer ρ) (pending : ρ → List Ssh.Pending) :
    Synchronizer (Watched ρ) where
  query := Recorded.inside.query synchronizer.query
  channel := Watched.channel pending synchronizer.channel
  scratch := synchronizer.scratch

variable {synchronizer : Synchronizer ρ} {pending : ρ → List Ssh.Pending} {package : Package}
  {before : List QueueEvent}

/-- Files of the package are queued, and nothing is submitted yet. -/
def Queueing (synchronizer : Synchronizer ρ) (package : Package) (tag : String)
    (before events : List QueueEvent) (files : List Ssh.Pending) : Prop :=
  events = before ++ files.map .queued ∧ ∀ file ∈ files, synchronizer.Unpacked package tag file

/-- Files of the package are queued, and submitted at most once. -/
def Submitting (synchronizer : Synchronizer ρ) (package : Package) (tag : String)
    (before events : List QueueEvent) (files : List Ssh.Pending) : Prop :=
  ∃ submitted : Bool,
    events = before ++ (files.map .queued ++ if submitted then [.submitted files] else []) ∧
      ∀ file ∈ files, synchronizer.Unpacked package tag file

theorem keeps_enqueue (queue : synchronizer.channel.HoldsQueue pending) {tag : String}
    {kind : ChannelKind} {file : Path} (unpacked : synchronizer.Unpacked package tag ⟨kind, file⟩)
    (disk : Disk) :
    Keeps (Site.Has (Watched.Shows pending (synchronizer.Queueing package tag before)))
      ((synchronizer.watched pending).channel.enqueue kind file disk) := by
  rintro site ⟨events, fits⟩
  change Watched.Shows pending _ ((Recorded.inside.onSite _ >>= fun _ => World.always _ :
    ChannelAction (Watched ρ) Unit) site).2.remote
  rw [exceptBind_apply]
  unfold Part.onSite
  cases ran : synchronizer.channel.enqueue kind file disk (Recorded.inside.narrow site) with
  | mk outcome after =>
    cases outcome with
    | error cause =>
      have same := queue.refused kind file disk _ cause after ran
      change site.remote.record = before ++ (pending after.remote).map .queued ∧
        ∀ file ∈ pending after.remote, _
      rw [same]
      exact ⟨events, fits⟩
    | ok _ =>
      have added := queue.enqueue kind file disk _ after ran
      change site.remote.record ++ [.queued ⟨kind, file⟩] =
        before ++ (pending after.remote).map .queued ∧ ∀ file ∈ pending after.remote, _
      rw [added, events, map_append, append_assoc]
      refine ⟨rfl, fun other member => ?_⟩
      rcases mem_append.1 member with early | last
      · exact fits other early
      · rw [mem_singleton.1 last]
        exact unpacked

theorem leads_importFiles (queue : synchronizer.channel.HoldsQueue pending) {tag : String} :
    Leads (Site.Has (Watched.Shows pending (synchronizer.Queueing package tag before)))
      (Site.Has (Watched.Shows pending (synchronizer.Submitting package tag before)))
      (synchronizer.watched pending).channel.importFiles := by
  rintro site ⟨events, fits⟩
  refine Watched.keeps_inside queue.importFiles _ ⟨true, ?_, fits⟩
  change site.remote.record ++ [.submitted (pending site.remote.server)] = _
  rw [events, append_assoc]
  rfl

theorem leads_importAll_watched (queue : synchronizer.channel.HoldsQueue pending)
    (apart : ∀ files, synchronizer.query.Maintains fun server => pending server = files)
    (package : Package) (dryRun : Bool) (tag : String) :
    Leads (World.Has (Watched.Shows pending (synchronizer.Queueing package tag before)))
      (World.Has (Watched.Shows pending (synchronizer.Submitting package tag before)))
      (Import.importAll ((synchronizer.watched pending).importContext package dryRun
        ((synchronizer.watched pending).importStaging package tag))) := by
  have unsent : ∀ server, Watched.Shows pending (synchronizer.Queueing package tag before) server →
      Watched.Shows pending (synchronizer.Submitting package tag before) server := by
    rintro server ⟨events, fits⟩
    exact ⟨false, by rw [events]; simp, fits⟩
  refine Import.leads_importAll_of_calls unsent (fun kind name => keeps_enqueue queue ⟨name, rfl⟩)
    ?_ (@leads_importFiles _ _ _ package before queue tag) (Watched.maintains_query apart)
    (Watched.maintains_query apart) (Watched.frames_channel queue)
    (fun name groups => Watched.keeps_inside (queue.share name groups))
    (fun name groups => Watched.keeps_inside (queue.unshare name groups))
  exact ⟨(Watched.frames_channel queue).connected, fun world holds =>
    (Watched.frames_channel queue).refused world (unsent _ holds),
    (Watched.frames_channel queue).closed⟩

/-- Nothing is pending, and what happened to the queue are consignments of packages among the
given ones, each from where its package was unpacked. -/
def Consigned (synchronizer : Synchronizer ρ) (before : List QueueEvent) (packages : List Package)
    (events : List QueueEvent) (files : List Ssh.Pending) : Prop :=
  files = [] ∧ ∃ consignments : List Consignment,
    events = before ++ consignments.flatMap Consignment.events ∧
      (consignments.map Consignment.package).Sublist packages ∧
      ∀ consignment ∈ consignments, ∀ file ∈ consignment.files,
        synchronizer.Unpacked consignment.package consignment.tag file

theorem Consigned.mono {more : List Package} {events : List QueueEvent} {files : List Ssh.Pending}
    (consigned : synchronizer.Consigned before packages events files)
    (among : packages.Sublist more) : synchronizer.Consigned before more events files := by
  obtain ⟨nothing, consignments, happened, inOrder, unpacked⟩ := consigned
  exact ⟨nothing, consignments, happened, inOrder.trans among, unpacked⟩

theorem leads_cleanup_watched (queue : synchronizer.channel.HoldsQueue pending)
    {consignments : List Consignment}
    (inOrder : (consignments.map Consignment.package).Sublist packages)
    (unpacked : ∀ consignment ∈ consignments, ∀ file ∈ consignment.files,
      synchronizer.Unpacked consignment.package consignment.tag file) :
    Leads
      (Site.Has (Watched.Shows pending fun events files => ∃ tag,
        synchronizer.Submitting package tag
          (before ++ consignments.flatMap Consignment.events) events files))
      (Site.Has (Watched.Shows pending (synchronizer.Consigned before (packages ++ [package]))))
      (synchronizer.watched pending).channel.cleanup := by
  rintro site ⟨tag, submitted, events, fits⟩
  let consignment : Consignment :=
    { package, tag, files := pending site.remote.server, submitted }
  refine ⟨queue.cleanup _, consignments ++ [consignment], ?_, ?_, ?_⟩
  · change site.remote.record ++ [.cleaned] = _
    rw [events, flatMap_append, flatMap_singleton, Consignment.events]
    simp only [append_assoc]
    rfl
  · rw [map_append]
    exact inOrder.append (List.Sublist.refl _)
  · intro other member
    rcases mem_append.1 member with early | last
    · exact unpacked other early
    · rw [mem_singleton.1 last]
      exact fits

variable (queue : synchronizer.channel.HoldsQueue pending)
  (apart : ∀ files, synchronizer.query.Maintains fun server => pending server = files)

include queue apart

theorem leads_importPackage_watched (packages : List Package) (package : Package)
    (dryRun : Bool) :
    Leads (World.Has (Watched.Shows pending (synchronizer.Consigned before packages)))
      (World.Has (Watched.Shows pending (synchronizer.Consigned before (packages ++ [package]))))
      ((synchronizer.watched pending).importPackage package dryRun) := by
  rintro world ⟨nothing, consignments, happened, inOrder, unpacked⟩
  let idle (events : List QueueEvent) (files : List Ssh.Pending) : Prop :=
    events = before ++ consignments.flatMap Consignment.events ∧ files = []
  have start : World.Has (Watched.Shows pending idle) world := ⟨happened, nothing⟩
  refine leads_importPackage ?_ (fun tag => ?_) (leads_cleanup_watched queue inOrder unpacked)
    world start
  · rintro server ⟨events, noFiles⟩
    exact ⟨noFiles, consignments, events, inOrder.trans (sublist_append_left _ _), unpacked⟩
  · rintro world ⟨events, noFiles⟩
    have queueing : World.Has (Watched.Shows pending (synchronizer.Queueing package tag
        (before ++ consignments.flatMap Consignment.events))) world := by
      refine ⟨?_, ?_⟩
      · rw [noFiles, events, map_nil, append_nil]
      · rw [noFiles]
        simp
    exact ⟨tag, leads_importAll_watched queue apart package dryRun tag world queueing⟩

theorem keeps_exportPackage_watched (packages : List Package) (package : Package)
    (descriptor : Descriptor) (dryRun : Bool) :
    Keeps (World.Has (Watched.Shows pending (synchronizer.Consigned before packages)))
      ((synchronizer.watched pending).exportPackage package descriptor dryRun) :=
  keeps_exportPackage (Watched.maintains_query apart).toListsWith (Watched.frames_channel queue)
    (Watched.keeps_exportAsset queue) package descriptor dryRun

omit queue apart

/-! ## Sequences of calls -/

/-- A call of a synchronizer. -/
inductive Operation where
  | exportPackage (package : Package) (descriptor : Descriptor) (dryRun : Bool)
  | exportPackages (descriptorFor : Package → Disk → Except SyncError Descriptor)
      (packages : List Package) (dryRun : Bool)
  | importPackage (package : Package) (dryRun : Bool)
  | importPackages (packages : List Package) (dryRun : Bool)

def Operation.imported : Operation → List Package
  | .exportPackage .. | .exportPackages .. => []
  | .importPackage package _ => [package]
  | .importPackages packages _ => packages

/-- What a call makes of the world, whether it fails or not. -/
def perform (synchronizer : Synchronizer ρ) (operation : Operation) (world : World ρ) : World ρ :=
  match operation with
  | .exportPackage package descriptor dryRun =>
    (synchronizer.exportPackage package descriptor dryRun world).2
  | .exportPackages descriptorFor packages dryRun =>
    (synchronizer.exportPackages descriptorFor dryRun {} packages world).2
  | .importPackage package dryRun => (synchronizer.importPackage package dryRun world).2
  | .importPackages packages dryRun => (synchronizer.importPackages packages dryRun world).2

/-- Operations one after another. -/
def performAll (synchronizer : Synchronizer ρ) (operations : List Operation) (world : World ρ) :
    World ρ :=
  operations.foldl (fun world operation => synchronizer.perform operation world) world

section

variable {synchronizer : Synchronizer ρ} {holds : List Package → World ρ → Prop}
  (mono : ∀ fewer more world, fewer.Sublist more → holds fewer world → holds more world)
  (exports : ∀ packages package descriptor dryRun,
    Keeps (holds packages) (synchronizer.exportPackage package descriptor dryRun))
  (imports : ∀ packages package dryRun, Leads (holds packages) (holds (packages ++ [package]))
    (synchronizer.importPackage package dryRun))

theorem keeps_exportPackages {property : World ρ → Prop} (exports : ∀ package descriptor dryRun,
      Keeps property (synchronizer.exportPackage package descriptor dryRun))
    (descriptorFor : Package → Disk → Except SyncError Descriptor) (dryRun : Bool)
    (total : ExportStats) (packages : List Package) :
    Keeps property (synchronizer.exportPackages descriptorFor dryRun total packages) := by
  induction packages generalizing total with
  | nil => exact .succeed total
  | cons package rest ih =>
    refine .andThen (fun _ holds => holds) fun disk => ?_
    refine .andThen (.settle _) fun descriptor => ?_
    exact .andThen (exports package descriptor dryRun) fun stats => ih _

include mono imports

theorem leads_importEach (packages : List Package) (dryRun : Bool) (total : ImportStats)
    (rest : List Package) :
    Leads (holds packages) (holds (packages ++ rest))
      (synchronizer.importEach dryRun total rest) := by
  induction rest generalizing packages total with
  | nil =>
    rw [append_nil]
    exact Keeps.succeed total
  | cons package rest ih =>
    rw [append_cons]
    exact .andThen (imports packages package dryRun)
      (fun _ => mono _ _ _ (sublist_append_left _ _)) fun stats => ih (packages ++ [package]) _

include exports

/-- What holds of the packages that were imported so far holds behind every call. -/
theorem leads_perform {packages : List Package} {world : World ρ} (start : holds packages world)
    (operation : Operation) :
    holds (packages ++ operation.imported) (synchronizer.perform operation world) := by
  cases operation with
  | exportPackage package descriptor dryRun =>
    rw [Operation.imported, append_nil]
    exact exports packages package descriptor dryRun _ start
  | exportPackages descriptorFor exported dryRun =>
    rw [Operation.imported, append_nil]
    exact keeps_exportPackages (exports packages) descriptorFor dryRun {} exported _ start
  | importPackage package dryRun => exact imports packages package dryRun _ start
  | importPackages imported dryRun =>
    have more : ∀ world, holds packages world → holds (packages ++ imported) world :=
      fun _ => mono _ _ _ (sublist_append_left _ _)
    refine Leads.andThen (fun _ holds => holds) more (fun disk => ?_) world start
    split
    · exact more
    · exact leads_importEach mono imports packages dryRun {} imported

theorem leads_performAll {packages : List Package} {world : World ρ} (start : holds packages world)
    (operations : List Operation) :
    holds (packages ++ operations.flatMap Operation.imported)
      (synchronizer.performAll operations world) := by
  induction operations generalizing packages world with
  | nil =>
    rw [flatMap_nil, append_nil]
    exact start
  | cons operation rest ih =>
    have reached := ih (leads_perform mono exports imports start operation)
    rw [append_assoc] at reached
    exact reached

end

/-- Batches of different packages never mix.  On a channel that holds its queue until it is cleaned
up, and that no query touches, every sequence of exports and imports that begins with an empty
queue ends with an empty queue, wherever its calls fail.  What happened to the queue in between are
consignments, at most one for each import of a package and in their order: the files of that
package are queued, submitted at most once, all of them and nothing else, and forgotten.  A missing
package ends an import of several ones before any call is made, and if that import succeeds, its
statistics are the sums of those of its packages. -/
theorem packages_never_mix (synchronizer : Synchronizer ρ) (pending : ρ → List Ssh.Pending)
    (queue : synchronizer.channel.HoldsQueue pending)
    (apart : ∀ files, synchronizer.query.Maintains fun server => pending server = files) :
    (∀ (operations : List Operation) (world : World (Watched ρ)),
      pending world.site.remote.server = [] →
      let after := ((synchronizer.watched pending).performAll operations world).site.remote
      pending after.server = [] ∧ ∃ consignments : List Consignment,
        after.record = world.site.remote.record ++ consignments.flatMap Consignment.events ∧
        (consignments.map Consignment.package).Sublist (operations.flatMap Operation.imported) ∧
        ∀ consignment ∈ consignments, ∀ file ∈ consignment.files,
          synchronizer.Unpacked consignment.package consignment.tag file) ∧
    (∀ packages dryRun (world : World (Traced ρ)),
      (∃ package ∈ packages, world.disk.pathExists package.path = false) →
      ∃ package ∈ packages, world.disk.pathExists package.path = false ∧
        synchronizer.traced.importPackages packages dryRun world =
          (.error (.packageNotFound package.path), world)) ∧
    ∀ packages dryRun world stats after,
      synchronizer.importPackages packages dryRun world = (.ok stats, after) →
      ∃ results, synchronizer.Imports dryRun world packages results after ∧
        stats.IsSum results := by
  refine ⟨fun operations world empty => ?_, ?_, ?_⟩
  · have start : World.Has (Watched.Shows pending
        (synchronizer.Consigned world.site.remote.record [])) world :=
      ⟨empty, [], by simp, List.nil_sublist _, by simp⟩
    exact leads_performAll (fun _ _ _ among consigned => consigned.mono among)
      (keeps_exportPackage_watched queue apart) (leads_importPackage_watched queue apart) start
      operations
  · rintro packages dryRun world ⟨missing, member, absent⟩
    exact importPackages_missing member absent
  · intro packages dryRun world stats after done
    exact importPackages_ok done

/-! ## Over a secure shell -/

/-- A channel to a server on which programs do what a script says. -/
def scriptedShell : Synchronizer (Ssh.State Ssh.Script) where
  query := ({} : Scripted.Answers).query
  channel := Ssh.channel { host := "ops", user := "root", port := 22 } Ssh.Script.launch
  scratch := ⟨true, ["tmp"]⟩

/-- Two projects with a super metric each, and a server that refuses the first upload. -/
def twoProjects : World (Watched (Ssh.State Ssh.Script)) where
  disk := { current := [], nodes :=
    [(["work"], .directory), (["work", "supermetrics"], .directory),
      (["work", "supermetrics", "cpu.json"], .file (Bytes.ofText "1")),
      (["home"], .directory), (["home", "supermetrics"], .directory),
      (["home", "supermetrics", "disk.json"], .file (Bytes.ofText "2"))] }
  site :=
    { tags := fun _ => "0"
      remote := { server := { directory := "/tmp/vrsync-0", server :=
        { outcomes := [{}, {}, { ending := .exit 1 }] } } } }

def queuedMetric (name : String) : Ssh.Pending :=
  ⟨.superMetric, ⟨true, ["tmp", "vrops-import", "import-vrops-0-0", "supermetrics", name]⟩⟩

def twoImports : List Operation :=
  [.importPackage bareProject false,
    .importPackages [{ bareProject with path := ⟨true, ["home"]⟩ }] false]

/-- The import of the first project fails when its file is submitted, and the second project is
submitted without that file. -/
theorem packages_never_mix_twoProjects :
    ((scriptedShell.watched Ssh.State.pending).performAll twoImports
        twoProjects).site.remote.server.pending = [] ∧
      ((scriptedShell.watched Ssh.State.pending).performAll twoImports
          twoProjects).site.remote.record =
        [.queued (queuedMetric "cpu.json"), .submitted [queuedMetric "cpu.json"], .cleaned,
          .queued (queuedMetric "disk.json"), .submitted [queuedMetric "disk.json"], .cleaned] := by
  have never := (packages_never_mix scriptedShell Ssh.State.pending (Ssh.holdsQueue _ _)
    fun _ => Scripted.Answers.maintains _ _).1 twoImports twoProjects rfl
  refine ⟨never.1, ?_⟩
  decide +kernel

end Synchronizer

end OpsContent
