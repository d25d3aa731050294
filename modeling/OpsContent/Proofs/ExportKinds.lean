import OpsContent.Proofs.KeptExports

/-!
# Every kind is exported inside the scratch directory

What an export does for a single asset stays inside, and so does the whole of it.  The names that it
asks for are all that matters: those of a listing that match a pattern, and the literal patterns of
the kinds without a listing.
-/

namespace OpsContent

open OpsContent.Path Staging

variable {ρ : Type}

/-- All names that an export comes to ask for stay inside. -/
structure Descriptor.NamesFit (descriptor : Descriptor) (query : Query ρ) : Prop where
  listed : query.Serves fun kind name => descriptor.Asks kind name → kind.Fits name
  dashboards : ∀ patterns, descriptor.patterns .dashboard = some patterns →
    ∀ name ∈ Export.literals patterns, AssetKind.dashboard.Fits name
  metricConfigs : ∀ patterns, descriptor.patterns .metricConfig = some patterns →
    ∀ name ∈ Export.literals patterns, AssetKind.metricConfig.Fits name

theorem AssetKind.isEntry_directory (kind : AssetKind) : IsEntry kind.directory := by
  cases kind <;> decide

namespace Export.Context.Inside

open Export

variable {context : Context ρ} {zone : Zone} {directory : Path} {descriptor : Descriptor}

/-! ## Over the command channel -/

theorem encloses_directory (inside : context.Inside zone) (kind : AssetKind) :
    zone.Encloses 2 (context.staging.join kind.directory) :=
  inside.staging.joinEntry kind.isEntry_directory

theorem stem_fits (kind : AssetKind) :
    2 ≤ (Context.stem kind).length ∧ '/' ∉ (Context.stem kind).toList := by
  cases kind <;> decide

theorem keeps_inScratch (inside : context.Inside zone) {α : Type} (kind : AssetKind)
    {work : Path → Sync ρ α}
    (kept : ∀ path, zone.Encloses 1 path → ∀ world, zone.Within world →
      world.disk.isDirectory path → zone.Within (work path world).2) :
    Keeps zone.Within (withScratch context.scratch (Context.stem kind) work) := by
  rw [inside.scratch]
  exact Zone.keeps_withScratch (stem_fits kind).1 (stem_fits kind).2 kept

theorem keeps_exportOne (inside : context.Inside zone) (kind : ChannelKind) (description : String)
    {stage : Stage ρ} {name : String}
    (staged : ∀ scratch, zone.Encloses 1 scratch →
      Keeps zone.Within (stage name scratch directory)) :
    Keeps zone.Within (exportOne context kind description stage directory name) := by
  apply inside.keeps_inScratch
  intro scratch encloses world within stands
  apply Keeps.andThen_at
  · exact Zone.within_run (Zone.keeps_exportAsset inside.channel kind name encloses within stands)
  · intro _ after _ withinAfter
    exact Keeps.item zone.ignoresLog kind.assetKind name (staged scratch encloses) after withinAfter

/-! ## Kinds without a listing -/

theorem keeps_warnOfWildcards (kind : AssetKind) (patterns : List String) :
    Keeps Site.TagsFit (warnOfWildcards kind patterns : StateM (Site ρ) Unit) := by
  unfold warnOfWildcards
  induction patterns.filter Pattern.isWildcard with
  | nil => exact .pure ()
  | cons pattern rest ih => exact .bind (Zone.keeps_note _ _) fun _ => ih

theorem keeps_seedIfAbsent (inside : context.Inside zone) (project : Path) (names : List String) :
    Keeps zone.Holds (Sharing.seedIfAbsent context.staging project names) := by
  have file : IsEntry Sharing.fileName := by decide
  have encloses : zone.Encloses 1 (Sharing.path context.staging) :=
    ((inside.encloses_directory .dashboard).mono (Nat.zero_le 2)).joinEntry file
  refine .andThen Keeps.get fun disk => ?_
  split
  · exact .succeed false
  · exact .andThen (Zone.keeps_replaceFile encloses _) fun _ => .succeed true

theorem keeps_tryMetricConfig (inside : context.Inside zone) (encloses : zone.Encloses 2 directory)
    {candidate : String} (stays : StaysWithin 1 candidate) :
    Keeps zone.Within (tryMetricConfig context directory candidate) := by
  apply inside.keeps_inScratch
  intro scratch fromScratch world within stands
  apply Keeps.andThen_at
  · exact Zone.keeps_exportAsset inside.channel .metricConfig candidate fromScratch within stands
  · rintro outcome after - withinAfter
    cases outcome with
    | error cause => exact withinAfter
    | ok _ =>
      have source : zone.Encloses 0 (scratch.join candidate) := fromScratch.join stays
      have target : zone.Encloses 1 (directory.join candidate) := encloses.join stays
      apply Keeps.andThen_at withinAfter
      rintro _ _ ⟨⟩ -
      split
      next isFile =>
        have file := source.deepen withinAfter.disk (Disk.notDirectory_of_isFile isFile)
        refine Keeps.andThen ?_ (fun _ => Keeps.succeed true) after withinAfter
        exact Zone.keeps_move file target
      · exact withinAfter

/-! ## All kinds -/

/-- Every step of an export stays in the zone. -/
theorem upholds (inside : context.Inside zone) (fit : descriptor.NamesFit context.query) :
    Upholds descriptor context zone.Within zone.Within AssetKind.Fits where
  logs := zone.ignoresLog
  logsInside := zone.ignoresLog
  query := fit.listed.keeping Zone.keeps_onSite
  frames := .of_keeps (Zone.keeps_onSite inside.channel.connect)
    (Zone.keeps_onSite inside.channel.close)
  directory kind := Zone.keeps_files (Zone.keeps_makeDirectories (inside.encloses_directory kind))
  file kind queried name fits file staged content := by
    have stays : StaysWithin 2 file := queried ▸ fits file staged
    have encloses : zone.Encloses 1 ((context.shelfOf kind).join file) := by
      cases kind <;> cases queried <;> obtain rfl := List.mem_singleton.1 staged <;>
        exact (inside.encloses_directory _).joinFile stays (by decide) (by decide)
    exact Zone.keeps_files (Zone.keeps_replaceFile encloses content)
  exported kind stage staging name fits description := by
    have directory := inside.encloses_directory kind.assetKind
    refine inside.keeps_exportOne kind description fun scratch fromScratch => ?_
    rcases mem_stagings.1 staging with ⟨rfl, rfl⟩ | ⟨rfl, rfl⟩ | ⟨rfl, rfl⟩
    · exact Zone.keeps_stageView fits fromScratch directory
    · exact Zone.keeps_stageReport fits fromScratch directory
    · exact Zone.keeps_stageSuperMetric fits fromScratch directory
  tried name fits candidate staged :=
    inside.keeps_tryMetricConfig (inside.encloses_directory _) (fits candidate staged)

theorem storesKeeping (inside : context.Inside zone) : context.StoresKeeping zone.Within := by
  intro metadata
  have file : IsEntry PolicyMetadata.fileName := by decide
  have encloses : zone.Encloses 1 (PolicyMetadata.path context.staging) :=
    ((inside.encloses_directory .policy).mono (Nat.zero_le 2)).joinEntry file
  exact Zone.keeps_files (Zone.keeps_replaceFile encloses _)

theorem keeps_seedSharing (inside : context.Inside zone) (patterns : List String) (count : Nat) :
    Keeps zone.Within (seedSharing context patterns count) := by
  intro world within
  obtain ⟨log, ran⟩ := seedSharing_apply context patterns count world
  rw [ran]
  exact ⟨inside.keeps_seedIfAbsent _ _ _ within.disk, within.tags⟩

theorem keeps_exportAll (inside : context.Inside zone) (fit : descriptor.NamesFit context.query) :
    Keeps zone.Within (exportAll context descriptor) := by
  have upholds := inside.upholds fit
  refine upholds.exportKinds fit.metricConfigs (fun _ patterns asked => ?_)
    (fun _ => inside.storesKeeping) {}
  rw [exportDashboards_eq]
  refine .andThen (upholds.fetchDashboards fun name member description => ?_)
    (inside.keeps_seedSharing patterns)
  refine inside.keeps_exportOne _ description fun scratch fromScratch => ?_
  exact Zone.keeps_stageDashboard (fit.dashboards patterns asked name member) fromScratch
    (inside.encloses_directory _)

end Export.Context.Inside

end OpsContent
