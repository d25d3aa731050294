import OpsContent.Export.Package
import OpsContent.Proofs.WorldSteps
import OpsContent.Proofs.ZoneSteps

/-!
# Exports keep to their scratch directory

An export that asks for names which stay inside writes only below the directory it was given,
whatever the server answers and wherever it fails.  What is assumed of the server is said here:
the command channel writes only to the directory of each call, and nobody tampers with the tags.
-/

namespace OpsContent

open OpsContent.Path Staging

variable {ρ α : Type}

/-- Tags can be part of a name. -/
def Site.TagsFit (site : Site ρ) : Prop :=
  ∀ index, '/' ∉ (site.tags index).toList

/-- A listing of assets whose names all satisfy a condition. -/
structure Lists (step : QueryAction ρ (List α)) (name : α → String) (good : String → Prop) :
    Prop where
  tags : Keeps Site.TagsFit step
  names : Yields step fun values => ∀ value ∈ values, good (name value)

theorem Lists.mono {step : QueryAction ρ (List α)} {name : α → String} {good better : String → Prop}
    (lists : Lists step name good) (implies : ∀ text, good text → better text) :
    Lists step name better :=
  ⟨lists.tags, fun site values after ran value member =>
    implies _ (lists.names site values after ran value member)⟩

/-- A query interface that lists only names which satisfy a condition on their kind.  Failures
are free. -/
structure Query.Serves (query : Query ρ) (good : AssetKind → String → Prop) : Prop where
  views : Lists query.listViews (·.name) (good .view)
  reports : Lists query.listReports (·.name) (good .report)
  superMetrics : Lists query.listSuperMetrics (·.name) (good .superMetric)
  policies : Lists query.listPolicies (·.name) (good .policy)
  policyContent : ∀ policy, Keeps Site.TagsFit (query.policyContent policy)
  customGroups : Lists query.listCustomGroups (·.name) (good .customGroup)
  definitions : ∀ kind, Lists (query.listDefinitions kind) (·.name) (good kind.assetKind)

theorem Query.Serves.mono {query : Query ρ} {good better : AssetKind → String → Prop}
    (serves : query.Serves good) (implies : ∀ kind name, good kind name → better kind name) :
    query.Serves better where
  views := serves.views.mono (implies .view)
  reports := serves.reports.mono (implies .report)
  superMetrics := serves.superMetrics.mono (implies .superMetric)
  policies := serves.policies.mono (implies .policy)
  policyContent := serves.policyContent
  customGroups := serves.customGroups.mono (implies .customGroup)
  definitions := fun kind => (serves.definitions kind).mono (implies kind.assetKind)

/-- A command channel that writes only below the directory it is given, and under proper names
there. -/
structure Channel.Confined (channel : Channel ρ) : Prop where
  connect : Keeps Site.TagsFit channel.connect
  close : Keeps Site.TagsFit channel.close
  tags : ∀ kind name directory world, world.site.TagsFit →
    (channel.exportAsset kind name directory world).2.site.TagsFit
  current : ∀ kind name directory world,
    (channel.exportAsset kind name directory world).2.disk.current = world.disk.current
  outside : ∀ kind name directory world, world.disk.isDirectory directory = true →
    ∀ location, Disk.isBelow (world.disk.place directory) location = false →
      (channel.exportAsset kind name directory world).2.disk.get? location =
        world.disk.get? location
  entries : ∀ kind name directory world, world.disk.isDirectory directory = true →
    ∀ rest, ((channel.exportAsset kind name directory world).2.disk.get?
        (world.disk.place directory ++ rest)).isSome = true →
      (world.disk.get? (world.disk.place directory ++ rest)).isSome = true ∨
        ∀ name ∈ rest, IsEntry name

/-- A confined channel that leaves the directory it writes to where it is. -/
structure Channel.Fills (channel : Channel ρ) : Prop extends channel.Confined where
  stands : ∀ kind name directory world, world.disk.isDirectory directory = true →
    (channel.exportAsset kind name directory world).2.disk.isDirectory directory = true

/-- The names that an asset is moved or written to under. -/
def AssetKind.stagedNames : AssetKind → String → List String
  | .view, name => [name ++ ".zip", name ++ ".xml"]
  | .dashboard, name => [name ++ ".zip", name ++ ".json"]
  | .report, name => [name]
  | .metricConfig, name => [name, name ++ ".xml"]
  | .policy, name => [name ++ ".zip"]
  | _, name => [name ++ ".json"]

/-- How many levels the directories that the names of a kind are joined to lie inside the
workspace.  What comes over the channel passes through a scratch directory right in it. -/
def AssetKind.leeway : AssetKind → Nat
  | .view | .dashboard | .report | .superMetric | .metricConfig => 1
  | .policy | .customGroup | .alertDefinition | .symptomDefinition | .recommendation => 2

/-- The name leads nowhere outside of the workspace. -/
def AssetKind.Fits (kind : AssetKind) (name : String) : Prop :=
  ∀ staged ∈ kind.stagedNames name, StaysWithin kind.leeway staged

instance (kind : AssetKind) (name : String) : Decidable (kind.Fits name) :=
  inferInstanceAs (Decidable (∀ staged ∈ kind.stagedNames name, StaysWithin kind.leeway staged))

/-! ## Steps of staging -/

namespace Staging

variable {property : World ρ → Prop} {source path : Path} {world : World ρ}

theorem keeps_extractArchive (archive : Path)
    (made : Keeps property (World.onDisk (Disk.makeDirectories path)))
    (extracted : ∀ bytes, Keeps property (World.onDisk (extractAll bytes path))) :
    Keeps property (extractArchive archive path : Sync ρ Unit) := by
  unfold extractArchive
  refine .andThen made.files fun _ => ?_
  refine .andThen (fun _ holds => holds) fun disk => ?_
  split
  · exact .fail _
  · exact .fail _
  next bytes _ =>
    apply (extracted bytes).of_same
    intro world
    split <;> simp_all

/-- Writing to files of the given names keeps the property. -/
def KeptByUpdates (property : World ρ → Prop) (path : Path) (names : List String) : Prop :=
  ∀ name ∈ names, ∀ world change after, property world →
    Disk.updateFile change (path.join name) world.disk = .ok after →
      property { world with disk := after }

variable (ignores : IgnoresLog property)

include ignores

theorem keeps_mergeFiles {names : List String} (kept : KeptByUpdates property path names) :
    Keeps property (mergeFiles source path names) := by
  induction names with
  | nil => exact .pure ()
  | cons name rest ih =>
    have later := ih (List.forall_mem_cons.1 kept).2
    intro world holds
    unfold mergeFiles
    change property ((if world.disk.isFile (source.join name) then _ else _ :
      StateM (World ρ) Unit) world).2
    split
    · cases appended : appendResource (source.join name) (path.join name) world.disk with
      | error cause => exact later _ (ignores _ _ world holds)
      | ok after =>
        apply later
        unfold appendResource at appended
        split at appended
        · cases appended
        · exact kept name (by simp) world _ after holds appended
    · exact later world holds

theorem mergeResources_at (holds : property world)
    (made : property (World.onDisk (Disk.makeDirectories path) world).2)
    (kept : ∀ names, world.disk.listNames source = .ok names → KeptByUpdates property path names) :
    property (mergeResources source path world).2 := by
  unfold mergeResources
  change property ((if world.disk.pathExists source then _ else _ :
    StateM (World ρ) Unit) world).2
  split
  · cases listed : world.disk.listNames source with
    | error cause => exact ignores _ _ world holds
    | ok names =>
      cases making : World.onDisk (Disk.makeDirectories path) world with
      | mk outcome opened =>
        rw [making] at made
        dsimp only
        rw [bind_of_eq making]
        cases outcome with
        | error cause => exact ignores _ _ opened made
        | ok _ => exact keeps_mergeFiles ignores (kept names listed) opened made
  · exact holds

end Staging

/-- An export inside a zone. -/
structure Export.Context.Inside (context : Export.Context ρ) (zone : Zone) : Prop where
  scratch : context.scratch = zone.root
  staging : zone.Encloses 1 context.staging
  channel : context.channel.Confined

namespace Zone

variable {steps : DiskAction α} {world : World ρ} {step : QueryAction ρ α} {name : String}

/-- The disk is changed only in the zone, and tags can be part of names. -/
structure Within (zone : Zone) (world : World ρ) : Prop where
  disk : zone.Holds world.disk
  tags : world.site.TagsFit

variable {zone : Zone} {path scratch directory : Path} {depth : Nat}

/-! ## Steps of the world -/

theorem keeps_onDisk {step : StateM Disk α} (kept : Keeps zone.Holds step) :
    Keeps zone.Within (World.onDisk step : StateM (World ρ) α) :=
  fun world within => ⟨kept world.disk within.disk, within.tags⟩

theorem keeps_onSite {step : StateM (Site ρ) α} (kept : Keeps Site.TagsFit step) :
    Keeps zone.Within (World.onSite step) :=
  fun world within => ⟨within.disk, kept world.site within.tags⟩

theorem keeps_files (kept : Keeps zone.Holds steps) :
    Keeps zone.Within (World.files steps : Sync ρ α) :=
  (keeps_onDisk kept).files

/-- Work on files leaves the site alone. -/
theorem files_ok {after : World ρ} {value : α} (ran : World.files steps world = (.ok value, after))
    : steps world.disk = (.ok value, after.disk) ∧ after.site = world.site := by
  cases done : steps world.disk with
  | mk outcome disk =>
    simp only [World.files, World.onDisk, done] at ran
    cases outcome with
    | error cause => cases ran
    | ok found =>
      cases ran
      exact ⟨rfl, rfl⟩

theorem yields_ask {condition : α → Prop} (yields : Yields step condition) :
    Yields (Query.ask step) condition := by
  intro world value after ran
  cases answered : step world.site with
  | mk outcome site =>
    simp only [Query.ask, World.onSite, answered] at ran
    cases outcome with
    | error cause => cases ran
    | ok found =>
      cases ran
      exact yields _ _ _ answered

theorem keeps_note (severity : Severity) (message : String) :
    Keeps Site.TagsFit (Site.note severity message : StateM (Site ρ) Unit) :=
  fun _ fit => fit

theorem ignoresLog (zone : Zone) : IgnoresLog (zone.Within : World ρ → Prop) :=
  fun severity message => keeps_onSite (keeps_note severity message)

theorem keeps_look : Keeps zone.Within (World.look : Sync ρ Disk) :=
  fun _ within => within

/-! ## Scratch directories -/

theorem keeps_removeScratch (encloses : zone.Encloses 1 path) :
    Keeps zone.Within (removeScratch path : StateM (World ρ) Unit) := by
  intro world within
  change zone.Within ((if world.disk.pathExists path then _ else _ : StateM (World ρ) Unit) world).2
  split
  · cases removed : world.disk.removeTree path with
    | ok after => exact ⟨within.disk.removeTree encloses removed, within.tags⟩
    | error cause => exact keeps_onSite (keeps_note _ _) world within
  · exact within

theorem Encloses.pieces_ne_blank (encloses : zone.Encloses depth path) : path.pieces ≠ [""] := by
  obtain ⟨-, more, whole, -⟩ := encloses
  obtain ⟨leading, name, ending, entry⟩ := zone.ending
  rw [whole, ending]
  intro blank
  have member : name ∈ [""] := blank ▸ by simp
  exact entry.notEmpty (List.mem_singleton.1 member)

theorem isEntry_scratchName {stem tag : String} (long : 2 ≤ stem.length)
    (noSlash : '/' ∉ stem.toList) (fit : '/' ∉ tag.toList) : IsEntry (stem ++ "-" ++ tag) := by
  apply isEntry_of_length
  · have dash : "-".length = 1 := by decide
    rw [String.length_append, String.length_append]
    omega
  · simp [noSlash, fit]

/-- A scratch directory is in the zone. -/
theorem keeps_withScratch {stem : String} {work : Path → Sync ρ α} (long : 2 ≤ stem.length)
    (noSlash : '/' ∉ stem.toList)
    (kept : ∀ path, zone.Encloses 1 path → ∀ world, zone.Within world →
      world.disk.isDirectory path → zone.Within (work path world).2) :
    Keeps zone.Within (withScratch zone.root stem work) := by
  intro world within
  have entry := isEntry_scratchName long noSlash (within.tags world.site.drawn)
  have encloses := zone.encloses_root.joinEntry entry
  have drawn : zone.Within { world with site := (Site.uniqueName stem world.site).2 } :=
    ⟨within.disk, within.tags⟩
  apply Keeps.andThen_at drawn
  rintro _ _ ⟨⟩ -
  apply Keeps.andThen_at (keeps_files (keeps_makeDirectories encloses) _ drawn)
  intro _ after made withinAfter
  apply keeps_removeScratch encloses
  apply kept _ encloses _ withinAfter
  exact Disk.isDirectory_of_makeDirectories (files_ok made).1 encloses.pieces_ne_blank

theorem keeps_exportAsset {channel : Channel ρ} (confined : channel.Confined) (kind : ChannelKind)
    (name : String) (encloses : zone.Encloses 1 scratch) (within : zone.Within world)
    (stands : world.disk.isDirectory scratch) :
    zone.Within (channel.exportAsset kind name scratch world).2 := by
  have admits := encloses.admits within.disk.current
  have tags := confined.tags kind name scratch world within.tags
  refine ⟨⟨(confined.current ..).trans within.disk.current, ?_, ?_⟩, tags⟩
  · intro location outside
    rw [confined.outside kind name scratch world stands location
      (admits.contains.isBelow_eq_false outside)]
    exact within.disk.outside location outside
  · intro rest exported
    cases below : Disk.isBelow (world.disk.place scratch) (zone.top ++ rest) with
    | false =>
      rw [confined.outside kind name scratch world stands _ below] at exported
      exact within.disk.entries rest exported
    | true =>
      obtain ⟨more, whole⟩ := Disk.isBelow_iff.1 below
      rw [← whole] at exported
      rcases confined.entries kind name scratch world stands more exported with stood | proper
      · rw [whole] at stood
        exact within.disk.entries rest stood
      · obtain ⟨names, -, entries, placed⟩ := admits
        rw [placed, List.append_assoc] at whole
        intro other member
        rw [← List.append_cancel_left whole] at member
        rcases List.mem_append.1 member with early | late
        · exact entries other early
        · exact proper other late

/-! ## Staging -/

theorem keeps_extractArchive (archive : Path) (encloses : zone.Encloses 0 path) :
    Keeps zone.Within (extractArchive archive path : Sync ρ Unit) :=
  Staging.keeps_extractArchive archive (keeps_onDisk (keeps_makeDirectories encloses))
    fun bytes => keeps_onDisk (keeps_extractAll encloses bytes)

theorem keeps_move {source : Path} (leaves : zone.Encloses 1 source)
    (encloses : zone.Encloses 1 path) :
    Keeps zone.Within (Export.move source path : Sync ρ Unit) :=
  keeps_files (keeps_moveFile leaves encloses)

theorem keeps_discard (encloses : zone.Encloses 0 path) :
    Keeps zone.Within (Export.discard path : Sync ρ Unit) :=
  keeps_files (Disk.keeps_attempt fun _ _ holds done => holds.removeFile encloses done)

theorem keeps_mergeResources {source : Path} (reads : zone.Encloses depth source)
    (encloses : zone.Encloses 0 path) :
    Keeps zone.Within (mergeResources source path : StateM (World ρ) Unit) := by
  intro world within
  apply mergeResources_at zone.ignoresLog within
    (keeps_onDisk (keeps_makeDirectories encloses) world within)
  intro names listed name member later change after withinLater updated
  have entry := within.disk.isEntry_of_listed reads listed name member
  exact ⟨withinLater.disk.updateFile (encloses.join entry.staysWithin) updated, withinLater.tags⟩

theorem isEntry_resources : IsEntry "resources" := by
  decide

theorem keeps_stageUnpacked {ending file : String} {folder : Path}
    (zip : StaysWithin 1 (name ++ ".zip")) (named : StaysWithin 1 (name ++ ending))
    (content : IsEntry file) (inFolder : zone.Encloses 0 folder)
    (fromScratch : zone.Encloses 1 scratch) (toDirectory : zone.Encloses 2 directory) :
    Keeps zone.Within
      (Export.stageUnpacked name ending file folder scratch directory : Sync ρ Unit) := by
  have inDirectory := toDirectory.mono (Nat.zero_le 2)
  refine .andThen (keeps_extractArchive _ (fromScratch.mono (Nat.zero_le 1))) fun _ => ?_
  refine .andThen (keeps_move (inFolder.joinEntry content) (toDirectory.join named)) fun _ => ?_
  refine .andThen (keeps_discard (fromScratch.join zip)) fun _ => ?_
  exact keeps_mergeResources (inFolder.joinEntry isEntry_resources)
    (inDirectory.join isEntry_resources.staysWithin)

theorem keeps_stageView (fits : AssetKind.view.Fits name) (fromScratch : zone.Encloses 1 scratch)
    (toDirectory : zone.Encloses 2 directory) :
    Keeps zone.Within (Export.stageView name scratch directory : Sync ρ Unit) :=
  keeps_stageUnpacked (fits _ (by simp [AssetKind.stagedNames]))
    (fits _ (by simp [AssetKind.stagedNames])) (by decide) (fromScratch.mono (Nat.zero_le 1))
    fromScratch toDirectory

theorem keeps_stageDashboard (fits : AssetKind.dashboard.Fits name)
    (fromScratch : zone.Encloses 1 scratch) (toDirectory : zone.Encloses 2 directory) :
    Keeps zone.Within (Export.stageDashboard name scratch directory : Sync ρ Unit) := by
  have folder : IsEntry "dashboard" := by decide
  exact keeps_stageUnpacked (fits _ (by simp [AssetKind.stagedNames]))
    (fits _ (by simp [AssetKind.stagedNames])) (by decide)
    ((fromScratch.mono (Nat.zero_le 1)).join folder.staysWithin) fromScratch toDirectory

/-- A report may be unpacked right into the workspace, and still goes no further up than the
staging directory. -/
theorem keeps_stageReport (fits : AssetKind.report.Fits name)
    (fromScratch : zone.Encloses 1 scratch) (toDirectory : zone.Encloses 2 directory) :
    Keeps zone.Within (Export.stageReport name scratch directory : Sync ρ Unit) := by
  have stays : StaysWithin 1 name := fits name (by simp [AssetKind.stagedNames])
  have content : zone.Encloses 0 (scratch.join name) := fromScratch.join stays
  have target : zone.Encloses 1 (directory.join name) := toDirectory.join stays
  refine .andThen (keeps_extractArchive _ content) fun _ => ?_
  exact keeps_files (keeps_copyTree content (target.mono (Nat.zero_le 1)))

theorem keeps_stageSuperMetric (fits : AssetKind.superMetric.Fits name)
    (fromScratch : zone.Encloses 1 scratch) (toDirectory : zone.Encloses 2 directory) :
    Keeps zone.Within (Export.stageSuperMetric name scratch directory : Sync ρ Unit) := by
  have stays : StaysWithin 1 (name ++ ".json") := fits _ (by simp [AssetKind.stagedNames])
  have source := fromScratch.joinFile stays (by decide) (by decide)
  have target : zone.Encloses 1 (directory.join (name ++ ".json")) := toDirectory.join stays
  have inDirectory := toDirectory.mono (Nat.zero_le 2)
  refine .andThen (keeps_move source target) fun _ => ?_
  exact keeps_mergeResources (fromScratch.joinEntry isEntry_resources)
    (inDirectory.join isEntry_resources.staysWithin)

/-! ## Sessions -/

theorem within_run {package : Package} {description : String} {words : ChannelError → String}
    {step : StateM (World ρ) (Except ChannelError α)} (within : zone.Within (step world).2) :
    zone.Within (Channel.run package description words step world).2 := by
  unfold Channel.run
  split
  next ran => rwa [ran] at within
  next cause failed ran =>
    rw [ran] at within
    exact keeps_onSite (keeps_note _ _) failed within

end Zone

end OpsContent
