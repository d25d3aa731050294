import OpsContent.Proofs.QueuedFiles
import OpsContent.Remote.Scripted

/-!
# Queued archives

An archive is named after its source without the ending, and endings are told apart regardless of
case.  So two views or two dashboards that differ in nothing but the case of their endings are
given one archive, and the content of the second one replaces that of the first.  This is the only
way in which a source can lose its archive to another one.
-/

namespace OpsContent

open OpsContent.Path Disk List ChannelKind

variable {ρ : Type}

namespace Ssh

variable (address : Address) (launcher : Launcher ρ)

theorem pending_launch (invocation : Invocation) (site : Site (State ρ)) :
    (launch launcher invocation site).2.remote.pending = site.remote.pending := by
  unfold launch
  split <;> rfl

theorem pending_run (operation : String) (invocation : Invocation) (site : Site (State ρ)) :
    (run launcher operation invocation site).2.remote.pending = site.remote.pending := by
  unfold run
  rw [exceptBind_apply, ← pending_launch launcher invocation site]
  unfold World.always
  cases launch launcher invocation site with
  | mk outcome after =>
    dsimp only
    cases outcome.failure? invocation.program <;> rfl

theorem pends : (channel address launcher).Pends State.pending where
  enqueue kind file disk site after done := by
    change enqueue kind file disk site = _ at done
    unfold enqueue at done
    split at done
    · cases done
    · cases done
      rfl
  connect site := by
    change (connect address launcher site).2.remote.pending = _
    unfold connect
    rw [exceptBind_apply]
    unfold state
    dsimp only
    split
    · rw [exceptBind_apply]
      have kept := pending_run launcher "connect"
        (address.command ("mkdir -p " ++ Shell.quote site.remote.directory)) site
      cases ran : run launcher "connect"
          (address.command ("mkdir -p " ++ Shell.quote site.remote.directory)) site with
      | mk outcome after =>
        rw [ran] at kept
        cases outcome with
        | error cause => exact kept
        | ok _ => exact kept
    · rfl

end Ssh

namespace Import

variable {context : Context ρ} {pending : ρ → List Ssh.Pending} {disk : Disk}
  {after before : World ρ} {stats : ImportStats} {name : String}

/-! ## One file for each source -/

/-- Every source of every kind is given a file of its own. -/
def OwnFiles (context : Context ρ) (disk : Disk) : Prop :=
  ∀ kind other, ∀ source ∈ sources context disk kind, ∀ another ∈ sources context disk other,
    queuedFile kind source = queuedFile other another → kind = other ∧ source = another

theorem queuedFile_directory (context : Context ρ) (kind : ChannelKind) (entry : IsEntry name) :
    queuedFile kind ((context.directory kind.assetKind).join name) =
      (context.directory kind.assetKind).join (queuedName kind name) :=
  queuedFile_join (endsInName_join _ (AssetKind.isEntry_directory _)) kind entry

theorem directory_join_inj {kind other : ChannelKind} {another : String} (entry : IsEntry name)
    (otherEntry : IsEntry another) (same : (context.directory kind.assetKind).join name =
      (context.directory other.assetKind).join another) : kind = other ∧ name = another := by
  have ends := fun kind : ChannelKind =>
    (endsInName_join context.staging kind.assetKind.isEntry_directory).stem
  have pieces := congrArg Path.pieces same
  rw [pieces_join_entry entry, pieces_join_entry otherEntry, Context.directory, Context.directory,
    ends kind, ends other, pieces_join_entry (AssetKind.isEntry_directory _),
    pieces_join_entry (AssetKind.isEntry_directory _)] at pieces
  obtain ⟨above, last⟩ := append_inj' pieces rfl
  exact ⟨eq_of_directory_eq (by simpa using above), by simpa using last⟩

theorem ownFiles_iff (named : disk.NamedBelow (disk.place context.staging)) :
    OwnFiles context disk ↔
      ∀ kind, ((sourceNames context disk kind).map (queuedName kind)).Nodup := by
  constructor
  · intro own kind
    apply List.Nodup.map_on _ (nodup_sourceNames context disk kind)
    intro name member other otherMember same
    have entry := isEntry_sourceNames named member
    have otherEntry := isEntry_sourceNames named otherMember
    have equal := own kind kind _ (by rw [sources_eq]; exact mem_map_of_mem member) _
      (by rw [sources_eq]; exact mem_map_of_mem otherMember)
      (by rw [queuedFile_directory context kind entry, queuedFile_directory context kind otherEntry,
        same])
    exact (join_inj entry otherEntry).1 equal.2
  · intro unique kind other source member another otherMember same
    rw [sources_eq] at member otherMember
    obtain ⟨name, inNames, rfl⟩ := mem_map.1 member
    obtain ⟨otherName, inOtherNames, rfl⟩ := mem_map.1 otherMember
    have entry := isEntry_sourceNames named inNames
    have otherEntry := isEntry_sourceNames named inOtherNames
    rw [queuedFile_directory context kind entry, queuedFile_directory context other otherEntry] at same
    obtain ⟨rfl, sameName⟩ := directory_join_inj (isEntry_queuedName kind entry)
      (isEntry_queuedName other otherEntry) same
    rw [inj_on_of_nodup_map (unique kind) inNames inOtherNames sameName]
    exact ⟨rfl, rfl⟩

theorem nodup_queuedName_iff (named : disk.NamedBelow (disk.place context.staging)) :
    (∀ kind, ((sourceNames context disk kind).map (queuedName kind)).Nodup) ↔
      ((sources context disk .view).map baseName).Nodup ∧
        ((sources context disk .dashboard).map baseName).Nodup := by
  have injective : Function.Injective (· ++ ".zip" : String → String) := fun one two same => by
    simpa using same
  have bases : ∀ kind, ((sources context disk kind).map baseName).map (· ++ ".zip") =
      (sourceNames context disk kind).map fun name => (splitName name).1 ++ ".zip" := by
    intro kind
    rw [sources_eq, map_map, map_map]
    apply map_congr_left
    intro name member
    simp [baseName_join _ (isEntry_sourceNames named member)]
  constructor
  · intro unique
    refine ⟨List.Nodup.of_map (· ++ ".zip") ?_, List.Nodup.of_map (· ++ ".zip") ?_⟩
    · rw [bases]
      exact unique .view
    · rw [bases]
      exact unique .dashboard
  · rintro ⟨views, dashboards⟩ kind
    cases kind with
    | view =>
      have distinct := views.map injective
      rwa [bases] at distinct
    | dashboard =>
      have distinct := dashboards.map injective
      rwa [bases] at distinct
    | report => exact (nodup_sourceNames context disk .report).map injective
    | superMetric =>
      rw [show queuedName .superMetric = id from rfl, map_id]
      exact nodup_sourceNames context disk .superMetric
    | metricConfig =>
      rw [show queuedName .metricConfig = id from rfl, map_id]
      exact nodup_sourceNames context disk .metricConfig

/-! ## What is submitted -/

/-- The world when files are submitted. -/
def submission (context : Context ρ) (world : World ρ) : World ρ :=
  (World.onSite context.channel.connect world).2

theorem importFiles_of_submit {result : ImportStats} {world : World ρ}
    (wet : context.dryRun = false) (waiting : 0 < context.channel.queued world.site.remote)
    (done : submit context stats world = (.ok result, after)) :
    (context.channel.importFiles (submission context world).site).1 = .ok () := by
  unfold submit at done
  obtain ⟨has, start, looked, done⟩ := exceptBind_ok done
  cases always_ok looked
  split at done
  next idle => simp [wet, waiting] at idle
  · obtain ⟨description, _, described, done⟩ := exceptBind_ok done
    cases always_ok described
    obtain ⟨_, last, ran, -⟩ := exceptBind_ok done
    obtain ⟨_, opened, connected, closing⟩ := exceptBind_ok ran
    obtain ⟨connected, sameDisk⟩ := Channel.run_onSite_ok connected
    have here : (submission context world).site = opened.site := by
      simp [submission, World.onSite, connected]
    rw [here]
    obtain ⟨final, imported, -⟩ := concluding_ok closing
    rw [(Channel.run_onSite_ok imported).1]

/-- A file carries the content that a source had. -/
def Carries (kind : ChannelKind) (before after : Disk) (source file : Path) : Prop :=
  ∃ content bytes, before.readFile (contentFile kind source) = .ok content ∧
    after.readFile file = .ok bytes ∧ Packs kind content bytes

theorem carries_of_queuedAll (all : QueuedAll pending context all before after)
    (named : before.disk.NamedBelow (before.disk.place context.staging))
    (unique : ∀ kind, ((sourceNames context before.disk kind).map (queuedName kind)).Nodup)
    (kind : ChannelKind) {source : Path} (member : source ∈ sources context before.disk kind) :
    Carries kind before.disk after.disk source (queuedFile kind source) := by
  rw [sources_eq] at member
  obtain ⟨name, inNames, rfl⟩ := mem_map.1 member
  have listed : kind ∈ ChannelKind.all := by cases kind <;> decide
  obtain ⟨content, bytes, read, packs, stored⟩ := all.readFile listed (unique kind) inNames
  rw [queuedFile_directory context kind (isEntry_sourceNames named inNames)]
  exact ⟨content, bytes, read, stored, packs⟩

theorem pending_of_queuedAll (all : QueuedAll pending context all before after)
    (named : before.disk.NamedBelow (before.disk.place context.staging)) :
    pending after.site.remote = pending before.site.remote ++
      ChannelKind.all.flatMap fun kind =>
        (sources context before.disk kind).map fun source => ⟨kind, queuedFile kind source⟩ := by
  rw [all.queue]
  congr 1
  apply flatMap_congr
  intro kind _
  rw [sources_eq, map_map]
  apply map_congr_left
  intro name member
  simp [queuedFile_directory context kind (isEntry_sourceNames named member)]

/-- Once everything is queued, what is submitted is one file for each source, in the order of
kinds and names.  Every source is carried by a file of its own exactly if no two views and no two
dashboards have the same base name. -/
theorem submission_carries_iff (pends : context.channel.Pends pending) {stats : ImportStats}
    {world queued : World ρ} (named : world.disk.NamedBelow (world.disk.place context.staging))
    (done : enqueueKinds context {} ChannelKind.all world = (.ok stats, queued)) :
    (context.dryRun = false → 0 < context.channel.queued queued.site.remote →
        ∀ result after, submit context stats queued = (.ok result, after) →
          (context.channel.importFiles (submission context queued).site).1 = .ok ()) ∧
      pending (submission context queued).site.remote = pending world.site.remote ++
        (ChannelKind.all.flatMap fun kind =>
          (sources context world.disk kind).map fun source => ⟨kind, queuedFile kind source⟩) ∧
      ((∀ kind, ∀ source ∈ sources context world.disk kind,
          Carries kind world.disk (submission context queued).disk source
            (queuedFile kind source)) ∧ OwnFiles context world.disk ↔
        ((sources context world.disk .view).map baseName).Nodup ∧
          ((sources context world.disk .dashboard).map baseName).Nodup) := by
  have all := enqueueKinds_ok pends (by decide) named done
  refine ⟨fun wet waiting _ _ => importFiles_of_submit wet waiting,
    (pends.connect queued.site).trans (pending_of_queuedAll all named), ?_⟩
  rw [ownFiles_iff named, ← nodup_queuedName_iff named]
  refine ⟨And.right, fun unique => ⟨fun kind source member => ?_, unique⟩⟩
  exact carries_of_queuedAll all named unique kind member

/-! ## On a secure shell -/

/-- An import of an unpacked package over a secure shell on which every program succeeds. -/
def shellImport : Context (Ssh.State Ssh.Script) where
  query := ({} : Scripted.Answers).query
  channel := Ssh.channel { host := "host", user := "root", port := 22 } Ssh.Script.launch
  package := Package.ofPath (Path.ofText "pkg-1.0.0")
  staging := Path.ofText "pkg"
  dryRun := false

/-- A package with some files, all in directories of kinds. -/
def unpacked (files : List (Location × String)) : World (Ssh.State Ssh.Script) where
  disk :=
    { current := []
      nodes :=
        ((["pkg"] :: AssetKind.all.map fun kind => ["pkg", kind.directory]) ++
            [["pkg", "reports", "daily"]]).map (·, .directory) ++
          files.map fun file => ("pkg" :: file.1, .file (Bytes.ofText file.2)) }
  site := { tags := toString, remote := { directory := "/tmp/vrsync", server := { outcomes := [] } } }

def viewText (id : String) : String :=
  "<Content><Views><ViewDef id=\"" ++ id ++ "\"/></Views></Content>"

/-- Files of all kinds that are queued, with a sharing file that is not. -/
def mixedFiles : List (Location × String) :=
  [(["views", "cpu.xml"], viewText "1"), (["views", "memory.XML"], viewText "2"),
    (["dashboards", "top.json"], "3"), (["dashboards", Sharing.fileName], "\x7b\x7d"),
    (["dashboards", "cpu.Json"], "4"), (["reports", "daily", "content.xml"], "5"),
    (["supermetrics", "sum.json"], "6"), (["metricconfigs", "cpu"], "7")]

def queuedFiles (files : List (Location × String)) : World (Ssh.State Ssh.Script) :=
  (enqueueKinds shellImport {} ChannelKind.all (unpacked files)).2

theorem enqueueKinds_shellImport {files : List (Location × String)}
    (ran : (enqueueKinds shellImport {} all (unpacked files)).1 = .ok stats) :
    enqueueKinds shellImport {} all (unpacked files) =
      (.ok stats, queuedFiles files) := by
  rw [queuedFiles, ← ran, Prod.eta]

/-- Files of one base name are apart if they are of different kinds. -/
theorem submission_carries_mixedFiles :
    ((submission shellImport (queuedFiles mixedFiles)).site.remote.pending.map (·.file.text) =
        ["pkg/views/cpu.zip", "pkg/views/memory.zip", "pkg/dashboards/cpu.zip",
          "pkg/dashboards/top.zip", "pkg/reports/daily.zip", "pkg/supermetrics/sum.json",
          "pkg/metricconfigs/cpu"]) ∧
      (∀ kind, ∀ source ∈ sources shellImport (unpacked mixedFiles).disk kind,
        Carries kind (unpacked mixedFiles).disk
          (submission shellImport (queuedFiles mixedFiles)).disk source (queuedFile kind source)) ∧
      OwnFiles shellImport (unpacked mixedFiles).disk := by
  obtain ⟨ran, pending⟩ : (enqueueKinds shellImport {} ChannelKind.all (unpacked mixedFiles)).1 =
        .ok { queued := [("dashboard", 2), ("metricConfig", 1), ("report", 1), ("superMetric", 1),
          ("view", 2)] } ∧
      (submission shellImport (queuedFiles mixedFiles)).site.remote.pending.map (·.file.text) =
        ["pkg/views/cpu.zip", "pkg/views/memory.zip", "pkg/dashboards/cpu.zip",
          "pkg/dashboards/top.zip", "pkg/reports/daily.zip", "pkg/supermetrics/sum.json",
          "pkg/metricconfigs/cpu"] := by
    decide +kernel
  have named : (unpacked mixedFiles).disk.WellNamed := wellNamed_of_nodes (by decide)
  have pends : shellImport.channel.Pends Ssh.State.pending := Ssh.pends _ _
  have law := submission_carries_iff pends (named.namedBelow _) (enqueueKinds_shellImport ran)
  exact ⟨pending, law.2.2.2 ⟨by decide, by decide⟩⟩

def twinFiles : List (Location × String) :=
  [(["views", "cpu.XML"], viewText "1"), (["views", "cpu.xml"], viewText "2"),
    (["dashboards", "cpu.JSON"], "3"), (["dashboards", "cpu.json"], "4")]

/-- Two views whose endings differ in case are submitted as one archive, and so are two
dashboards.  The archive has the content of the second one. -/
theorem submission_drops_twins :
    (submission shellImport (queuedFiles twinFiles)).site.remote.pending =
        [⟨.view, Path.ofText "pkg/views/cpu.zip"⟩, ⟨.view, Path.ofText "pkg/views/cpu.zip"⟩,
          ⟨.dashboard, Path.ofText "pkg/dashboards/cpu.zip"⟩,
          ⟨.dashboard, Path.ofText "pkg/dashboards/cpu.zip"⟩] ∧
      (submission shellImport (queuedFiles twinFiles)).disk.readFile
          (Path.ofText "pkg/dashboards/cpu.zip") =
        .ok (Zip.write [("dashboard/dashboard.json", Bytes.ofText "4")]) := by
  decide +kernel

end Import

end OpsContent
