import OpsContent.Proofs.Batches
import OpsContent.Proofs.ExportSteps
import OpsContent.Proofs.WorldSteps

/-!
# Exports that keep a property

An export keeps a property if its elementary steps do: the questions to the server, the files that
are written, and the assets that come over the channel one by one.  It may be one property in a
session and another outside of it.
-/

namespace OpsContent

open OpsContent.Path Staging Export World

variable {ρ α β : Type}
variable {names : List String} {name : String}

/-- A question that keeps a property, and lists assets under names that satisfy a condition. -/
structure ListsKeeping (property : World ρ → Prop) (step : QueryAction ρ (List α))
    (name : α → String) (good : String → Prop) : Prop where
  kept : Keeps property (Query.ask step)
  names : Yields (Query.ask step) fun values => ∀ value ∈ values, good (name value)

/-- A query interface whose questions all keep a property. -/
structure Query.ServesKeeping (query : Query ρ) (property : World ρ → Prop)
    (good : AssetKind → String → Prop) : Prop where
  views : ListsKeeping property query.listViews (·.name) (good .view)
  reports : ListsKeeping property query.listReports (·.name) (good .report)
  superMetrics : ListsKeeping property query.listSuperMetrics (·.name) (good .superMetric)
  policies : ListsKeeping property query.listPolicies (·.name) (good .policy)
  policyContent : ∀ policy, Keeps property (Query.ask (query.policyContent policy))
  customGroups : ListsKeeping property query.listCustomGroups (·.name) (good .customGroup)
  definitions : ∀ kind, ListsKeeping property (query.listDefinitions kind) (·.name)
    (good kind.assetKind)

theorem Query.Serves.keeping {query : Query ρ} {good : AssetKind → String → Prop}
    {property : World ρ → Prop} (serves : query.Serves good)
    (kept : ∀ {α : Type} {step : StateM (Site ρ) α}, Keeps Site.TagsFit step →
      Keeps property (onSite step)) :
    query.ServesKeeping property good := by
  have lists : ∀ {α : Type} {step : QueryAction ρ (List α)} {name : α → String}
      {good : String → Prop}, Lists step name good → ListsKeeping property step name good :=
    fun lists => ⟨(kept lists.tags).ask, Zone.yields_ask lists.names⟩
  exact ⟨lists serves.views, lists serves.reports, lists serves.superMetrics,
    lists serves.policies, fun policy => (kept (serves.policyContent policy)).ask,
    lists serves.customGroups, fun kind => lists (serves.definitions kind)⟩

def World.logged (world : World ρ) (log : List LogLine) : World ρ :=
  { world with site := { world.site with log } }

/-- The descriptor asks for an asset of this name. -/
def Descriptor.Asks (descriptor : Descriptor) (kind : AssetKind) (name : String) : Prop :=
  ∃ patterns, descriptor.patterns kind = some patterns ∧ Pattern.anyAccepts patterns name = true

namespace Export

/-- The directory of a kind. -/
def Context.shelfOf (context : Context ρ) (kind : AssetKind) : Path :=
  context.staging.join kind.directory

theorem mem_matchedNames {kind : AssetKind} {listed : List Listing} {patterns : List String}
    (matched : matchedNames kind listed patterns = .ok names) (member : name ∈ names) :
    (∃ listing ∈ listed, listing.name = name) ∧ Pattern.anyAccepts patterns name := by
  unfold matchedNames at matched
  split at matched
  · cases matched
  · cases matched
    simpa [Pattern.select] using member

/-- Dashboards without the sharing metadata. -/
def fetchDashboards (context : Context ρ) (patterns : List String) : Sync ρ Nat := do
  World.always (World.onSite (warnOfWildcards .dashboard patterns))
  let directory ← context.kindDirectory .dashboard
  exportNames context .dashboard stageDashboard directory (literals patterns)

/-- The sharing metadata is seeded behind the dashboards; a failure is only logged. -/
def seedSharing (context : Context ρ) (patterns : List String) (count : Nat) : Sync ρ Nat := do
  let seeded ← World.outcomeOf
    (World.onDisk (Sharing.seedIfAbsent context.staging context.package.path (literals patterns)))
  match seeded with
  | .ok _ => pure ()
  | .error cause =>
    World.always (World.onSite (Site.warn
      ("Error generating dashboard sharing metadata file: " ++ (SyncError.io cause).message)))
  pure count

theorem seedSharing_apply (context : Context ρ) (patterns : List String) (count : Nat)
    (world : World ρ) :
    ∃ log, seedSharing context patterns count world = (.ok count,
      ({ world with disk := (Sharing.seedIfAbsent context.staging context.package.path
        (literals patterns) world.disk).2 } : World ρ).logged log) := by
  cases seeded : Sharing.seedIfAbsent context.staging context.package.path (literals patterns)
      world.disk with
  | mk outcome disk =>
    have onDisk : World.onDisk (Sharing.seedIfAbsent context.staging context.package.path
        (literals patterns)) world = (outcome, { world with disk }) := by
      rw [World.onDisk, seeded]
    have ran : (World.outcomeOf (World.onDisk (Sharing.seedIfAbsent context.staging
        context.package.path (literals patterns))) : Sync ρ _) world =
          (.ok outcome, { world with disk }) :=
      congrArg (fun done : Except IoError Bool × World ρ => (Except.ok done.1, done.2)) onDisk
    unfold seedSharing
    rw [exceptBind_of_ok ran]
    cases outcome with
    | ok _ => exact ⟨world.site.log, rfl⟩
    | error cause => exact ⟨_, rfl⟩

theorem seedIfAbsent_of_exists {staging project : Path} {disk : Disk}
    (present : disk.pathExists (Sharing.path project)) (names : List String) :
    Sharing.seedIfAbsent staging project names disk = (.ok false, disk) := by
  change (if disk.pathExists (Sharing.path staging) || disk.pathExists (Sharing.path project)
    then _ else _ : DiskAction Bool) disk = _
  rw [present, Bool.or_true, if_pos rfl]
  rfl

theorem exportDashboards_eq (context : Context ρ) (patterns : List String) :
    exportDashboards context patterns =
      (fetchDashboards context patterns >>= seedSharing context patterns) := by
  simp only [exportDashboards, fetchDashboards, bind_assoc]
  rfl

/-- The policy metadata can be stored, whatever it is, and a property is kept. -/
def Context.StoresKeeping (context : Context ρ) (property : World ρ → Prop) : Prop :=
  ∀ metadata : PolicyMetadata, Keeps property (World.files (metadata.store context.staging))

/-- How the kinds with a listing are staged. -/
def stagings : List (ChannelKind × Stage ρ) :=
  [(.view, stageView), (.report, stageReport), (.superMetric, stageSuperMetric)]

theorem mem_stagings {kind : ChannelKind} {stage : Stage ρ} :
    (kind, stage) ∈ stagings ↔ (kind = .view ∧ stage = stageView) ∨
      (kind = .report ∧ stage = stageReport) ∨ kind = .superMetric ∧ stage = stageSuperMetric := by
  simp [stagings]

/-- The elementary steps of an export, dashboards and the policy metadata apart, keep a property, and
another one in sessions.  What is asked for has good names. -/
structure Upholds (descriptor : Descriptor) (context : Context ρ) (outside inside : World ρ → Prop)
    (good : AssetKind → String → Prop) : Prop where
  logs : IgnoresLog outside
  logsInside : IgnoresLog inside
  query : context.query.ServesKeeping outside fun kind name =>
    descriptor.Asks kind name → good kind name
  frames : context.channel.Frames outside inside inside outside
  directory : ∀ kind, Keeps outside (World.files (Disk.makeDirectories (context.shelfOf kind)))
  file : ∀ kind : AssetKind, kind.leeway = 2 → ∀ name, good kind name →
    ∀ file ∈ kind.stagedNames name, ∀ content,
      Keeps outside (World.files (Disk.replaceFile ((context.shelfOf kind).join file) content))
  exported : ∀ kind stage, (kind, stage) ∈ stagings → ∀ name, good kind.assetKind name →
    ∀ description, Keeps inside
      (exportOne context kind description stage (context.shelfOf kind.assetKind) name)
  tried : ∀ name, good .metricConfig name → ∀ candidate ∈ AssetKind.metricConfig.stagedNames name,
    Keeps inside (tryMetricConfig context (context.shelfOf .metricConfig) candidate)

theorem exportEach_eq (context : Context ρ) (kind : ChannelKind) (description : String)
    (stage : Stage ρ) (directory : Path) (report : Batch.Report) (names : List String) :
    exportEach context kind description stage directory report names =
      Batch.tally (exportOne context kind description stage directory) report names := by
  induction names generalizing report with
  | nil => rfl
  | cons name rest ih => exact congrArg _ (funext fun outcome => ih (report.add outcome))

theorem exportEachMetricConfig_eq (context : Context ρ) (directory : Path) (report : Batch.Report)
    (names : List String) :
    exportEachMetricConfig context directory report names =
      Batch.tally (exportMetricConfig context directory) report names := by
  induction names generalizing report with
  | nil => rfl
  | cons name rest ih => exact congrArg _ (funext fun outcome => ih (report.add outcome))

theorem keeps_tally {property : World ρ → Prop} {each : String → Sync ρ (Option ItemFailure)}
    (kept : ∀ name ∈ names, Keeps property (each name)) (report : Batch.Report) :
    Keeps property (Batch.tally each report names) := by
  induction names generalizing report with
  | nil => exact .succeed report
  | cons name rest ih =>
    exact .andThen (kept name (by simp)) fun _ => ih (List.forall_mem_cons.1 kept).2 _

namespace Upholds

variable {descriptor : Descriptor} {context : Context ρ} {outside inside : World ρ → Prop}
  {good : AssetKind → String → Prop} {patterns : List String} {kind : ChannelKind}
  {stage : Stage ρ} (upholds : Upholds descriptor context outside inside good)

include upholds

/-! ## Over the command channel -/

theorem keeps_batch {batch : String} {each : String → String → Sync ρ (Option ItemFailure)}
    {words : ChannelError → String} {result : Batch.Report → β}
    (kept : ∀ name ∈ names, ∀ description, Keeps inside (each description name)) :
    Keeps outside (do
      let description ← always context.channel.description
      let report ← context.channel.session context.package description words
        (Batch.tally (each description) {} names)
      World.settle (batchResult batch report.failures)
      pure (result report) : Sync ρ β) := by
  refine .andThen (fun _ holds => holds) fun description => ?_
  refine .andThen (Leads.session upholds.logs upholds.frames
    (keeps_tally (fun name member => kept name member description) {})) fun report => ?_
  exact .andThen (.settle _) fun _ => .succeed _

/-- Work in the directory of a kind. -/
theorem inDirectory (kind : AssetKind) {work : Path → Sync ρ β}
    (kept : Keeps outside (work (context.shelfOf kind))) :
    Keeps outside (context.kindDirectory kind >>= work : Sync ρ β) := by
  have shelf : Yields (context.kindDirectory kind) (· = context.shelfOf kind) :=
    .andThen fun _ => .succeed rfl
  refine .andThenWith (.andThen (upholds.directory kind) fun _ => .succeed _) shelf ?_
  rintro _ rfl
  exact kept

theorem exportNames {directory : Path} (kept : ∀ name ∈ names, ∀ description,
      Keeps inside (exportOne context kind description stage directory name)) :
    Keeps outside (exportNames context kind stage directory names) := by
  unfold Export.exportNames
  simp only [exportEach_eq]
  split
  · exact .succeed 0
  · exact upholds.keeps_batch kept

theorem exportListed (kind : ChannelKind) (stage : Stage ρ) (staging : (kind, stage) ∈ stagings)
    {listing : QueryAction ρ (List Listing)}
    (listed : ListsKeeping outside listing (·.name) fun name =>
      descriptor.Asks kind.assetKind name → good kind.assetKind name)
    (asked : descriptor.patterns kind.assetKind = some patterns) :
    Keeps outside (exportListed context kind listing stage patterns) := by
  refine .andThenWith listed.kept listed.names fun values proper => ?_
  have selected : Yields (World.settle (matchedNames kind.assetKind values patterns) : Sync ρ _)
      fun names => ∀ name ∈ names, good kind.assetKind name := by
    intro world names after settled name member
    obtain ⟨matched, -⟩ := settle_ok settled
    obtain ⟨⟨found, inListing, rfl⟩, accepted⟩ := mem_matchedNames matched member
    exact proper found inListing ⟨patterns, asked, accepted⟩
  refine .andThenWith (.settle _) selected fun names wanted => ?_
  exact upholds.inDirectory kind.assetKind (upholds.exportNames fun name member =>
    upholds.exported kind stage staging name (wanted name member))

/-! ## Kinds without a listing -/

omit upholds in
theorem keeps_warnOfWildcards (logs : IgnoresLog outside) (kind : AssetKind)
    (patterns : List String) :
    Keeps outside (always (onSite (warnOfWildcards kind patterns)) : Sync ρ Unit) := by
  unfold Export.warnOfWildcards
  induction patterns.filter Pattern.isWildcard with
  | nil => exact .succeed ()
  | cons pattern rest ih => exact fun world holds => ih _ (logs _ _ world holds)

theorem fetchDashboards (kept : ∀ name ∈ literals patterns, ∀ description, Keeps inside
      (exportOne context .dashboard description stageDashboard (context.shelfOf .dashboard) name)) :
    Keeps outside (fetchDashboards context patterns) :=
  .andThen (keeps_warnOfWildcards upholds.logs _ _) fun _ =>
    upholds.inDirectory .dashboard (upholds.exportNames kept)

theorem exportMetricConfig (wanted : good .metricConfig name) :
    Keeps inside (exportMetricConfig context (context.shelfOf .metricConfig) name) := by
  have tried := upholds.tried name wanted
  refine .andThen (tried name (by simp [AssetKind.stagedNames])) fun plain => ?_
  refine .andThen (tried (name ++ ".xml") (by simp [AssetKind.stagedNames])) fun found => ?_
  split
  · exact .succeed none
  · exact fun world holds => upholds.logsInside _ _ world holds

theorem exportMetricConfigs (wanted : ∀ name ∈ literals patterns, good .metricConfig name) :
    Keeps outside (exportMetricConfigs context patterns) := by
  unfold Export.exportMetricConfigs
  simp only [exportEachMetricConfig_eq]
  refine .andThen (keeps_warnOfWildcards upholds.logs _ _) fun _ => ?_
  refine upholds.inDirectory .metricConfig ?_
  split
  · exact .succeed _
  · exact upholds.keeps_batch fun name member _ => upholds.exportMetricConfig (wanted name member)

/-! ## Over the query interface -/

theorem writeAssets {kind : AssetKind} (queried : kind.leeway = 2)
    (files : ∀ name, kind.stagedNames name = [name ++ ".json"]) {assets : List RemoteAsset}
    (proper : ∀ asset ∈ assets, descriptor.Asks kind asset.name → good kind asset.name)
    (asked : descriptor.patterns kind = some patterns) :
    Keeps outside (writeAssets context kind (context.shelfOf kind) patterns assets) := by
  refine .andThen (Keeps.each upholds.logs kind _ ?_ {}) fun _ => ?_
  · intro asset member
    rw [matchedAssets, List.mem_filter] at member
    exact upholds.file kind queried asset.name
      (proper asset member.1 ⟨patterns, asked, member.2⟩) _ (by simp [files]) _
  · exact .andThen (.settle _) fun _ => .succeed _

theorem exportDefinitions (kind : DefinitionKind)
    (asked : descriptor.patterns kind.assetKind = some patterns) :
    Keeps outside (exportDefinitions context kind patterns) := by
  refine upholds.inDirectory kind.assetKind ?_
  have listed := upholds.query.definitions kind
  refine .andThenWith listed.kept listed.names fun assets proper => ?_
  exact upholds.writeAssets (by cases kind <;> rfl) (by cases kind <;> exact fun _ => rfl) proper
    asked

theorem exportCustomGroups (asked : descriptor.patterns .customGroup = some patterns) :
    Keeps outside (exportCustomGroups context patterns) := by
  refine upholds.inDirectory .customGroup ?_
  have listed := upholds.query.customGroups
  refine .andThenWith listed.kept listed.names fun groups proper => ?_
  split
  · exact .andThen (upholds.logs _ _) fun _ => .succeed _
  · exact .map (upholds.writeAssets rfl (fun _ => rfl) proper asked) some

theorem fetchPolicies (asked : descriptor.patterns .policy = some patterns)
    {listed : List PolicySummary}
    (proper : ∀ policy ∈ listed, descriptor.Asks .policy policy.name → good .policy policy.name) :
    Keeps outside (always (Batch.each .policy (·.name) (exportPolicy context (context.shelfOf .policy))
      {} (listed.filter fun policy => Pattern.anyAccepts patterns policy.name)) : Sync ρ _) := by
  refine Keeps.each upholds.logs .policy _ (fun policy member => ?_) {}
  rw [List.mem_filter] at member
  refine .andThen (upholds.query.policyContent policy) fun content => ?_
  exact upholds.file .policy rfl policy.name
    (proper policy member.1 ⟨patterns, asked, member.2⟩) _ (by simp [AssetKind.stagedNames]) _

theorem exportPolicies (stored : context.StoresKeeping outside)
    (asked : descriptor.patterns .policy = some patterns) :
    Keeps outside (exportPolicies context patterns) := by
  refine upholds.inDirectory .policy ?_
  have listed := upholds.query.policies
  refine .andThenWith listed.kept listed.names fun policies proper => ?_
  refine .andThen (upholds.fetchPolicies asked proper) fun _ => ?_
  refine .andThen (stored _) fun _ => ?_
  exact .andThen (.settle _) fun _ => .succeed _

/-! ## All kinds -/

/-- One kind keeps what its steps keep. -/
theorem exportKind {kind : AssetKind} (notDashboard : kind ≠ .dashboard)
    (asked : descriptor.patterns kind = some patterns)
    (wanted : kind = .metricConfig → ∀ name ∈ literals patterns, good .metricConfig name)
    (stored : kind = .policy → context.StoresKeeping outside) :
    Keeps outside (exportKind context kind patterns) := by
  cases kind with
  | view =>
    exact .map (upholds.exportListed .view stageView (by simp [stagings]) upholds.query.views asked)
      some
  | dashboard => exact absurd rfl notDashboard
  | report =>
    exact .map (upholds.exportListed .report stageReport (by simp [stagings])
      upholds.query.reports asked) some
  | alertDefinition => exact .map (upholds.exportDefinitions .alert asked) some
  | symptomDefinition => exact .map (upholds.exportDefinitions .symptom asked) some
  | recommendation => exact .map (upholds.exportDefinitions .recommendation asked) some
  | policy => exact .map (upholds.exportPolicies (stored rfl) asked) some
  | customGroup => exact upholds.exportCustomGroups asked
  | superMetric =>
    exact .map (upholds.exportListed .superMetric stageSuperMetric (by simp [stagings])
      upholds.query.superMetrics asked) some
  | metricConfig => exact upholds.exportMetricConfigs (wanted rfl)

/-- All kinds keep what each of them keeps. -/
theorem exportKinds (wanted : ∀ patterns, descriptor.patterns .metricConfig = some patterns →
      ∀ name ∈ literals patterns, good .metricConfig name) {kinds : List AssetKind}
    (dashboards : .dashboard ∈ kinds → ∀ patterns, descriptor.patterns .dashboard = some patterns →
      Keeps outside (exportDashboards context patterns))
    (stored : .policy ∈ kinds → context.StoresKeeping outside) (stats : ExportStats) :
    Keeps outside (exportKinds context descriptor stats kinds) := by
  induction kinds generalizing stats with
  | nil => exact .succeed stats
  | cons kind rest ih =>
    have later := ih (fun member => dashboards (by simp [member])) fun member =>
      stored (by simp [member])
    unfold Export.exportKinds
    cases asked : descriptor.patterns kind with
    | none => exact later stats
    | some patterns =>
      have kept : Keeps outside (Export.exportKind context kind patterns) := by
        by_cases isDashboard : kind = .dashboard
        · subst isDashboard
          exact .map (dashboards (by simp) patterns asked) some
        · refine upholds.exportKind isDashboard asked ?_ ?_
          · rintro rfl
            exact wanted patterns asked
          · rintro rfl
            exact stored (by simp)
      refine .andThen kept fun count => ?_
      split
      · exact later _
      · exact later _

end Upholds

end Export

end OpsContent
