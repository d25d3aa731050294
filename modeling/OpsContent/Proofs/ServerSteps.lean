import OpsContent.Proofs.ExportedAssets
import OpsContent.Proofs.ImportStages
import OpsContent.Proofs.Projects

/-!
# What happens to the server

The server is touched only by the calls that are made of it.  Files, logs and scratch directories
leave it alone, so what an export or import does to a property of the server follows from what
its questions and its sessions do.
-/

namespace OpsContent

open OpsContent.Path Staging

variable {ρ α : Type} {synchronizer : Synchronizer ρ}

def Site.Has (property : ρ → Prop) (site : Site ρ) : Prop :=
  property site.remote

theorem World.Has.ignoresLog (property : ρ → Prop) : IgnoresLog (World.Has property) :=
  fun _ _ _ holds => holds

/-! ## Steps that leave the server alone -/

/-- The step leaves the server alone. -/
def SparesServer (step : StateM (World ρ) α) : Prop :=
  ∀ world, (step world).2.site.remote = world.site.remote

namespace SparesServer

variable {property : ρ → Prop} {step : StateM (World ρ) α}

theorem keeps (spares : SparesServer step) : Keeps (World.Has property) step := by
  intro world holds
  rw [World.Has, spares world]
  exact holds

theorem of_keeps (kept : ∀ server, Keeps (World.Has (· = server)) step) :
    SparesServer step :=
  fun world => kept _ world rfl

theorem files (steps : DiskAction α) : SparesServer (World.files steps : Sync ρ α) :=
  of_keeps fun _ => keepsRemote_files steps

theorem removeScratch (path : Path) :
    SparesServer (Staging.removeScratch path : StateM (World ρ) Unit) :=
  remote_removeScratch path

theorem unpack (package directory : Path) :
    SparesServer (Staging.unpack package directory : Sync ρ Unit) := by
  refine of_keeps fun server => ?_
  refine .andThen (fun _ same => same) fun disk => ?_
  split
  · exact keepsRemote_files _
  · split
    · exact keepsRemote_extractArchive _ _
    · exact .fail _

theorem writeArchive (path : Path) (entries : List (String × Bytes)) :
    SparesServer (Staging.writeArchive path entries : Sync ρ Unit) := by
  intro world
  have written := Staging.written_writeArchive path entries world
  generalize Staging.writeArchive path entries world = result at written ⊢
  cases written with
  | unmade => exact Staging.remote_discardArchive path world
  | tooLarge => exact Staging.remote_discardArchive path _
  | whole => rfl

theorem build (kind : ChannelKind) (source : Path) :
    SparesServer (Import.build kind source : Sync ρ Path) :=
  of_keeps fun _ => Import.keeps_build
    (fun entries world same => (writeArchive _ entries world).trans same)
    fun what world same => (Staging.remote_removeSource source what world).trans same

end SparesServer

theorem leads_withScratch {before after : ρ → Prop} {parent : Path} {stem : String}
    {work : Path → Sync ρ α} (failed : ∀ server, before server → after server)
    (worked : ∀ tag, Leads (World.Has before) (World.Has after)
      (work (parent.join (stem ++ "-" ++ tag)))) :
    Leads (World.Has before) (World.Has after) (withScratch parent stem work) := by
  intro world holds
  rw [withScratch_apply]
  cases Disk.makeDirectories (parent.join (world.nextName stem)) world.disk with
  | mk outcome base =>
    cases outcome with
    | error cause => exact failed _ holds
    | ok _ => exact (SparesServer.removeScratch _).keeps _ (worked _ (world.drawn base) holds)

/-! ## Questions -/

/-- The listings and contents that an export asks for do not change the property. -/
structure Query.ListsWith (query : Query ρ) (property : ρ → Prop) : Prop where
  views : Keeps (Site.Has property) query.listViews
  reports : Keeps (Site.Has property) query.listReports
  superMetrics : Keeps (Site.Has property) query.listSuperMetrics
  policies : Keeps (Site.Has property) query.listPolicies
  policyContent : ∀ policy, Keeps (Site.Has property) (query.policyContent policy)
  customGroups : Keeps (Site.Has property) query.listCustomGroups
  definitions : ∀ kind, Keeps (Site.Has property) (query.listDefinitions kind)

/-- No call of the query interface changes the property. -/
structure Query.Maintains (query : Query ρ) (property : ρ → Prop) : Prop
    extends query.ListsWith property where
  importDefinitions : ∀ kind definitions dependents,
    Keeps (Site.Has property) (query.importDefinitions kind definitions dependents)
  importCustomGroup : ∀ name payload policies,
    Keeps (Site.Has property) (query.importCustomGroup name payload policies)
  importPolicy : ∀ name content overwrite,
    Keeps (Site.Has property) (query.importPolicy name content overwrite)
  findGroups : ∀ names, Keeps (Site.Has property) (query.findGroups names)

/-- What the steps of a part keep, its interface does not change. -/
theorem Part.maintains {σ ι : Type} {part : Part σ ρ} {property : σ → Prop} {query : Query ρ}
    (apart : ι → ρ → Prop) (maintains : ∀ index, query.Maintains (apart index))
    (kept : ∀ {α : Type} {step : StateM (Site ρ) α},
      (∀ index, Keeps (Site.Has (apart index)) step) →
        Keeps (Site.Has property) (part.onSite step)) :
    (part.query query).Maintains property where
  views := kept fun index => (maintains index).views
  reports := kept fun index => (maintains index).reports
  superMetrics := kept fun index => (maintains index).superMetrics
  policies := kept fun index => (maintains index).policies
  policyContent := fun _ => kept fun index => (maintains index).policyContent _
  customGroups := kept fun index => (maintains index).customGroups
  definitions := fun _ => kept fun index => (maintains index).definitions _
  importDefinitions := fun _ _ _ => kept fun index => (maintains index).importDefinitions _ _ _
  importCustomGroup := fun _ _ _ => kept fun index => (maintains index).importCustomGroup _ _ _
  importPolicy := fun _ _ _ => kept fun index => (maintains index).importPolicy _ _ _
  findGroups := fun _ => kept fun index => (maintains index).findGroups _

/-! ## Imports -/

/-- The stages of an import lead where its calls lead: those that queue files, the session that
submits them, the questions, and the session that shares dashboards. -/
theorem Import.leads_importAll_of_calls {context : Context ρ}
    {before opened ended after sharing : ρ → Prop} (unsent : ∀ server, before server → after server)
    (queued : ∀ kind name disk, Keeps (Site.Has before) (context.channel.enqueue kind
      (queuedFile kind ((context.directory kind.assetKind).join name)) disk))
    (submits : context.channel.Frames (World.Has before) (World.Has opened) (World.Has ended)
      (World.Has after))
    (sent : Leads (Site.Has opened) (Site.Has ended) context.channel.importFiles)
    (pushes : context.query.Maintains after) (asks : context.query.Maintains sharing)
    (shares : context.channel.Frames (World.Has after) (World.Has sharing) (World.Has sharing)
      (World.Has after))
    (shared : ∀ name groups, Keeps (Site.Has sharing) (context.channel.share name groups))
    (unshared : ∀ name groups, Keeps (Site.Has sharing) (context.channel.unshare name groups)) :
    Leads (World.Has before) (World.Has after) (importAll context) := by
  have ignores : ∀ property : ρ → Prop, IgnoresLog (World.Has property) := World.Has.ignoresLog
  refine leads_importAll ?_ ?_ (fun _ => ?_) ?_ ?_ ?_ (fun _ => unsent _) fun _ holds => holds
  · refine keeps_enqueueKinds (ignores _)
      (fun world kind _ source member => ⟨?_, fun disk world => ?_⟩) {} _
    · exact (SparesServer.build kind source).keeps
    · rw [sources_eq] at member
      obtain ⟨name, -, rfl⟩ := List.mem_map.1 member
      exact queued kind name disk world.site
  · exact leads_submit (ignores _) (ignores _) (fun _ => unsent _) (fun _ => submits)
      fun world => sent world.site
  · exact keeps_pushDefinitions (ignores _) fun kind definitions dependents world =>
      pushes.importDefinitions kind definitions dependents world.site
  · exact keeps_pushPolicies (ignores _) fun name content overwrite world =>
      pushes.importPolicy name content overwrite world.site
  · exact keeps_pushGroups (ignores _) fun name payload policies world =>
      pushes.importCustomGroup name payload policies world.site
  · exact keeps_applySharing (ignores _) (ignores _) shares
      (fun names world => asks.findGroups names world.site)
      (fun name groups world => shared name groups world.site)
      (fun name groups world => unshared name groups world.site)

/-- Where an import with this tag works. -/
def Synchronizer.importStaging (synchronizer : Synchronizer ρ) (package : Package)
    (tag : String) : Path :=
  (synchronizer.scratch.join "vrops-import").join (importStem package ++ "-" ++ tag)

/-- An import leads where its stages and the cleanup behind them lead.  Whatever fails before
that leaves the server as it was. -/
theorem Synchronizer.leads_importPackage {before after final : ρ → Prop} {package : Package}
    {dryRun : Bool} (failed : ∀ server, before server → final server)
    (imported : ∀ tag, Leads (World.Has before) (World.Has after)
      (Import.importAll (synchronizer.importContext package dryRun
        (synchronizer.importStaging package tag))))
    (cleaned : Leads (Site.Has after) (Site.Has final) synchronizer.channel.cleanup) :
    Leads (World.Has before) (World.Has final) (synchronizer.importPackage package dryRun) := by
  refine .andThen (SparesServer.files _).keeps (fun _ => failed _) fun _ => ?_
  refine leads_withScratch failed fun tag => ?_
  refine .andThen (SparesServer.unpack _ _).keeps (fun _ => failed _) fun _ => ?_
  exact .concluding (imported tag)
    (.tidy (World.Has.ignoresLog final) fun world holds => cleaned world.site holds)

/-! ## Exports -/

namespace Export

variable {context : Context ρ} {idle opened : ρ → Prop} {kind : ChannelKind}

theorem keeps_exportOne {stage : Stage ρ}
    (exported : ∀ name directory,
      Keeps (World.Has opened) (context.channel.exportAsset kind name directory))
    (spared : ∀ name scratch directory, SparesServer (stage name scratch directory))
    (description : String) (directory : Path) (name : String) :
    Keeps (World.Has opened) (exportOne context kind description stage directory name) := by
  refine leads_withScratch (fun _ holds => holds) fun scratch => ?_
  refine Keeps.andThen (Leads.run (World.Has.ignoresLog opened) (exported _ _)) fun _ => ?_
  exact .item (World.Has.ignoresLog opened) _ _ (spared _ _ _).keeps

theorem keeps_tryMetricConfig
    (exported : ∀ name directory,
      Keeps (World.Has opened) (context.channel.exportAsset .metricConfig name directory))
    (directory : Path) (candidate : String) :
    Keeps (World.Has opened) (tryMetricConfig context directory candidate) := by
  refine leads_withScratch (fun _ holds => holds) fun scratch => ?_
  refine Keeps.andThen (exported _ _) fun outcome => ?_
  split
  · exact .succeed false
  · refine .andThen (fun _ holds => holds) fun disk => ?_
    split
    · exact .andThen (SparesServer.files _).keeps fun _ => .succeed true
    · exact .succeed false

theorem sparesServer_stagings {stage : Stage ρ} (staging : (kind, stage) ∈ stagings) (name : String)
    (scratch directory : Path) : SparesServer (stage name scratch directory) := by
  rcases mem_stagings.1 staging with ⟨rfl, rfl⟩ | ⟨rfl, rfl⟩ | ⟨rfl, rfl⟩
  · exact .of_keeps fun _ => keepsRemote_stageUnpacked
  · exact .of_keeps fun _ => keepsRemote_stageReport
  · exact .of_keeps fun _ => keepsRemote_stageSuperMetric

theorem upholds_server (query : context.query.ListsWith idle)
    (frames : context.channel.Frames (World.Has idle) (World.Has opened) (World.Has opened)
      (World.Has idle))
    (exported : ∀ kind name directory,
      Keeps (World.Has opened) (context.channel.exportAsset kind name directory))
    (descriptor : Descriptor) :
    Upholds descriptor context (World.Has idle) (World.Has opened) fun _ _ => True where
  logs := World.Has.ignoresLog idle
  logsInside := World.Has.ignoresLog opened
  query := by
    have asks : ∀ {α : Type} {question : QueryAction ρ α}, Keeps (Site.Has idle) question →
        Keeps (World.Has idle) (Query.ask question) :=
      fun kept => .ask fun world holds => kept world.site holds
    have lists : ∀ {α : Type} {step : QueryAction ρ (List α)} {name : α → String} {kind : AssetKind},
        Keeps (Site.Has idle) step → ListsKeeping (World.Has idle) step name fun name =>
          descriptor.Asks kind name → True :=
      fun kept => ⟨asks kept, fun _ _ _ _ _ _ _ => trivial⟩
    exact ⟨lists query.views, lists query.reports, lists query.superMetrics, lists query.policies,
      fun policy => asks (query.policyContent policy), lists query.customGroups,
      fun kind => lists (query.definitions kind)⟩
  frames := frames
  directory _ := (SparesServer.files _).keeps
  file _ _ _ _ _ _ _ := (SparesServer.files _).keeps
  exported kind _ staging name _ description :=
    keeps_exportOne (exported kind) (sparesServer_stagings staging) description _ name
  tried _ _ candidate _ := keeps_tryMetricConfig (exported .metricConfig) _ candidate

end Export

theorem Synchronizer.keeps_exportPackage {idle opened : ρ → Prop}
    (query : synchronizer.query.ListsWith idle)
    (frames : synchronizer.channel.Frames (World.Has idle) (World.Has opened) (World.Has opened)
      (World.Has idle))
    (exported : ∀ kind name directory,
      Keeps (World.Has opened) (synchronizer.channel.exportAsset kind name directory))
    (package : Package) (descriptor : Descriptor) (dryRun : Bool) :
    Keeps (World.Has idle) (synchronizer.exportPackage package descriptor dryRun) := by
  have staged : ∀ workspace, Keeps (World.Has idle)
      (synchronizer.stagePackage package descriptor workspace) := by
    intro workspace
    refine .andThen (SparesServer.files _).keeps fun _ => ?_
    have upholds : Export.Upholds descriptor (synchronizer.exportContext package workspace) _ _
        fun _ _ => True := Export.upholds_server query frames exported descriptor
    refine upholds.exportKinds (fun _ _ _ _ => trivial) (fun _ patterns _ => ?_)
      (fun _ _ => (SparesServer.files _).keeps) {}
    rw [Export.exportDashboards_eq]
    refine .andThen (upholds.fetchDashboards fun name _ description => ?_) fun count => ?_
    · exact Export.keeps_exportOne (exported .dashboard)
        (fun _ _ _ => .of_keeps fun _ => keepsRemote_stageUnpacked) description _ name
    · intro world holds
      obtain ⟨log, ran⟩ := Export.seedSharing_apply _ patterns count world
      rw [ran]
      exact holds
  refine leads_withScratch (fun _ holds => holds) fun tag => ?_
  refine Keeps.andThen (staged _) fun stats => ?_
  split
  · exact .succeed _
  · exact .andThen (SparesServer.files _).keeps fun _ => .succeed _

end OpsContent
