import OpsContent.Proofs.NotedServers
import OpsContent.Proofs.SparedPlaces

/-!
# Files beside the staged assets

Some kinds have a file of their own beside their assets in the staging directory.  No asset of another
kind comes to its place, and assets of the same kind do not either, unless their names lead there.
-/

namespace OpsContent

open OpsContent.Path Staging Export Disk Synchronizer

variable {ρ α : Type} {name : String}

theorem AssetKind.isEntry_stagedNames {kind : AssetKind} {file : String} (entry : IsEntry name)
    (staged : file ∈ kind.stagedNames name) : IsEntry file := by
  have extended : ∀ ending : String, 3 ≤ ending.length → '/' ∉ ending.toList →
      IsEntry (name ++ ending) := fun _ => isEntry_append entry.noSlash
  cases kind <;> simp only [stagedNames, List.mem_cons, List.not_mem_nil, or_false] at staged <;>
    rcases staged with rfl | rfl <;> first | exact entry | exact extended _ (by decide) (by decide)

/-- The directory of a kind in the staging directory of a workspace. -/
def Zone.shelf (zone : Zone) (kind : AssetKind) : Path :=
  (zone.root.join "vrops-export").join kind.directory

theorem Zone.encloses_shelf (zone : Zone) (kind : AssetKind) : zone.Encloses 2 (zone.shelf kind) :=
  (zone.encloses_root.joinEntry (by decide)).joinEntry kind.isEntry_directory

theorem Zone.isEntry_shelf (kind : AssetKind) :
    ∀ name ∈ ["vrops-export", kind.directory], IsEntry name := by
  simpa using ⟨(by decide : IsEntry "vrops-export"), kind.isEntry_directory⟩

/-- A file beside the assets of a kind. -/
structure Sidecar where
  owner : AssetKind
  file : String

namespace Sidecar

/-- Where the file is staged in a workspace. -/
def place (sidecar : Sidecar) : Location :=
  ["vrops-export", sidecar.owner.directory, sidecar.file]

/-- The name leads to another file in the directory of the kind. -/
def Differs (sidecar : Sidecar) (kind : AssetKind) (name : String) : Prop :=
  [kind.directory, name] ≠ [sidecar.owner.directory, sidecar.file]

instance (sidecar : Sidecar) (kind : AssetKind) (name : String) :
    Decidable (sidecar.Differs kind name) :=
  inferInstanceAs (Decidable (_ ≠ _))

/-- Only dashboards may come to the place of the sidecar. -/
structure Apart (sidecar : Sidecar) : Prop where
  fetched : ∀ kind : ChannelKind, kind ≠ .dashboard → kind.assetKind ≠ sidecar.owner
  queried : ∀ kind : AssetKind, kind.leeway = 2 → ∀ name, ∀ file ∈ kind.stagedNames name,
    sidecar.Differs kind file ∧ sidecar.Differs kind (file ++ ".tmp")

/-- No file of another kind is the sidecar. -/
theorem differs_of_ne {sidecar : Sidecar} {kind : AssetKind} (other : kind ≠ sidecar.owner)
    (name : String) : sidecar.Differs kind name :=
  fun same => other (AssetKind.directory_injective (List.cons.inj same).1)

end Sidecar

/-- The place of a sidecar in a workspace, with what stands there, if anything does, and the number
of directories that stand on the way to it. -/
structure Slot extends Sidecar where
  zone : Zone
  depth : Nat
  node : Option Node

namespace Slot

/-- A sidecar that is not yet there. -/
def vacant (sidecar : Sidecar) (zone : Zone) : Slot :=
  ⟨sidecar, zone, 1, none⟩

abbrev Spared (slot : Slot) : Disk → Prop :=
  slot.zone.Spares slot.place slot.depth slot.node

abbrev Avoids (slot : Slot) : Path → Prop :=
  slot.zone.Avoids slot.place

/-- The world has of the sidecar what the slot says. -/
structure Stands (slot : Slot) (world : World ρ) : Prop where
  disk : slot.Spared world.disk
  tags : world.site.TagsFit

variable {slot : Slot} {world : World ρ} {kind : AssetKind} {scratch source path : Path}
  {aside : String}

/-- A scratch directory is apart from the sidecar. -/
theorem avoids_aside (slot : Slot) (different : aside ≠ "vrops-export")
    (entry : IsEntry aside) : slot.Avoids (slot.zone.root.join aside) := by
  refine ⟨slot.zone.encloses_root.joinEntry entry, [aside], by simpa using entry, ?_, .inl rfl⟩
  constructor
  · exact fun isPrefix => different (List.cons_prefix_cons.1 isPrefix).1
  · exact fun isPrefix => different (List.cons_prefix_cons.1 isPrefix).1.symm

/-- Files beside the sidecar are apart from it. -/
theorem avoids_shelf (entry : IsEntry name) (differs : slot.Differs kind name) :
    slot.Avoids ((slot.zone.shelf kind).join name) := by
  have staging : IsEntry "vrops-export" := by decide
  have different : ["vrops-export", kind.directory, name] ≠ slot.place :=
    fun same => differs (List.cons.inj same).2
  refine ⟨((slot.zone.encloses_shelf kind).joinEntry entry).mono (by decide),
    ["vrops-export", kind.directory, name],
    by simpa using ⟨staging, kind.isEntry_directory, entry⟩, ?_, .inl rfl⟩
  exact ⟨fun isPrefix => different (isPrefix.eq_of_length rfl),
    fun isPrefix => different (isPrefix.eq_of_length rfl).symm⟩

theorem rules (slot : Slot) : WriteRules slot.Spared slot.Avoids :=
  slot.zone.sparingRules slot.place slot.depth slot.node

theorem Stands.within (stands : slot.Stands world) : slot.zone.Within world :=
  ⟨stands.disk.holds, stands.tags⟩

theorem keeps_onSite {step : StateM (Site ρ) α} (kept : Keeps Site.TagsFit step) :
    Keeps slot.Stands (World.onSite step) :=
  fun world stands => ⟨stands.disk, kept world.site stands.tags⟩

theorem ignoresLog (slot : Slot) : IgnoresLog (slot.Stands : World ρ → Prop) :=
  fun severity message => keeps_onSite (Zone.keeps_note severity message)

theorem keeps_onDisk {step : StateM Disk α} (kept : Keeps slot.Spared step) :
    Keeps slot.Stands (World.onDisk step : StateM (World ρ) α) :=
  fun world stands => ⟨kept world.disk stands.disk, stands.tags⟩

theorem keeps_files {steps : DiskAction α} (kept : Keeps slot.Spared steps) :
    Keeps slot.Stands (World.files steps : Sync ρ α) :=
  (keeps_onDisk kept).files

/-- In a new workspace the staging directory is opened, and the sidecar is not there. -/
theorem stands_vacant {zone : Zone} {opened : World ρ} (sidecar : Sidecar)
    (within : zone.Within world) (empty : world.disk.IsEmptyDirectory zone.root)
    (opening : (World.files (makeDirectories (stagingIn zone.root)) : Sync ρ Unit) world =
      (.ok (), opened)) :
    (vacant sidecar zone).Stands opened ∧ opened.disk.isDirectory (stagingIn zone.root) := by
  obtain ⟨opening, sameSite⟩ := Zone.files_ok opening
  have entry : IsEntry "vrops-export" := by decide
  have encloses : zone.Encloses 1 (stagingIn zone.root) := zone.encloses_root.joinEntry entry
  have holds := Zone.keeps_makeDirectories encloses world.disk within.disk
  have opens := makeDirectories_opensOnly (stagingIn zone.root) world.disk
  rw [opening] at holds opens
  have stood := isDirectory_of_makeDirectories opening encloses.pieces_ne_blank
  have atStaging : opened.disk.place (stagingIn zone.root) = zone.top ++ ["vrops-export"] := by
    rw [stagingIn, place_join _ _ entry, place_congr holds.current]
    rfl
  refine ⟨⟨⟨holds, fun early isEarly => ?_, ?_⟩, by rw [sameSite]; exact within.tags⟩, stood⟩
  · rcases List.prefix_cons_iff.1 isEarly with rfl | ⟨rest, rfl, last⟩
    · exact (congrArg _ (List.append_nil _)).trans (holds.onWay_root (List.prefix_refl _))
    · rw [List.prefix_nil.1 last]
      exact (congrArg _ atStaging).symm.trans (isDirectory_iff.1 stood).2.2
  · rcases opens.nodes (zone.top ++ sidecar.place) with same | ⟨onWay, -⟩
    · refine same.trans ?_
      have free := empty.free sidecar.place (by simp [Sidecar.place])
      rwa [place_congr within.disk.current] at free
    · exact absurd onWay (Zone.not_onWay_extend ["vrops-export"] within.disk.current
        (by simpa using entry) (by simp [Sidecar.place])
        fun isPrefix => by simpa [Sidecar.place] using isPrefix.length_le)

/-! ## Staging -/

theorem keeps_extractArchive (archive : Path) (avoids : slot.Avoids path) :
    Keeps slot.Stands (extractArchive archive path : Sync ρ Unit) :=
  have rules := slot.rules
  Staging.keeps_extractArchive archive (keeps_onDisk (rules.directories avoids))
    fun bytes => keeps_onDisk (rules.keeps_extractAll avoids bytes)

/-- Merging texts leaves the sidecar. -/
theorem keeps_mergeResources {depth : Nat} (reads : slot.zone.Encloses depth source)
    (avoids : slot.Avoids path) :
    Keeps slot.Stands (mergeResources source path : StateM (World ρ) Unit) := by
  have rules := slot.rules
  intro world stands
  apply mergeResources_at (ignoresLog slot) stands
    (keeps_onDisk (rules.directories avoids) world stands)
  intro names listed name member later change after standsLater updated
  have entry := stands.disk.holds.isEntry_of_listed reads listed name member
  exact ⟨rules.files (avoids.join entry.staysWithin) standsLater.disk updated, standsLater.tags⟩

section

variable (entry : IsEntry name) (fromScratch : slot.Avoids scratch)

include entry fromScratch

theorem avoids_zip : slot.Avoids (scratch.join (name ++ ".zip")) :=
  fromScratch.join (isEntry_append entry.noSlash (by decide) (by decide)).staysWithin

theorem keeps_stageUnpacked {ending file : String} {folder : Path} (content : IsEntry file)
    (inFolder : slot.Avoids folder)
    (target : slot.Avoids ((slot.zone.shelf kind).join (name ++ ending)))
    (texts : slot.Avoids ((slot.zone.shelf kind).join "resources")) :
    Keeps slot.Stands
      (stageUnpacked name ending file folder scratch (slot.zone.shelf kind) : Sync ρ Unit) := by
  refine .andThen (keeps_extractArchive _ fromScratch) fun _ => ?_
  refine .andThen (keeps_files (Zone.sparing_moveFile (inFolder.join content.staysWithin) target))
    fun _ => ?_
  refine .andThen (keeps_files (Zone.sparing_removeFile (avoids_zip entry fromScratch))) fun _ => ?_
  exact keeps_mergeResources (inFolder.join Zone.isEntry_resources.staysWithin).encloses texts

/-- Staging another kind leaves the sidecar. -/
theorem keeps_stage {kind : ChannelKind} {stage : Stage ρ} (staging : (kind, stage) ∈ stagings)
    (other : kind.assetKind ≠ slot.owner) :
    Keeps slot.Stands (stage name scratch (slot.zone.shelf kind.assetKind)) := by
  have staged : ∀ {file : String}, IsEntry file →
      slot.Avoids ((slot.zone.shelf kind.assetKind).join file) :=
    fun isEntry => avoids_shelf isEntry (Sidecar.differs_of_ne other _)
  have named : ∀ ending : String, 3 ≤ ending.length → '/' ∉ ending.toList →
      IsEntry (name ++ ending) := fun _ long free => isEntry_append entry.noSlash long free
  rcases mem_stagings.1 staging with ⟨rfl, rfl⟩ | ⟨rfl, rfl⟩ | ⟨rfl, rfl⟩
  · exact keeps_stageUnpacked entry fromScratch (by decide) fromScratch
      (staged (named ".xml" (by decide) (by decide))) (staged Zone.isEntry_resources)
  · have content := fromScratch.join entry.staysWithin
    refine .andThen (keeps_extractArchive _ content) fun _ => ?_
    exact keeps_files (Zone.sparing_copyTree (content.encloses.mono (by decide)) (staged entry))
  · have file := named ".json" (by decide) (by decide)
    refine .andThen (keeps_files (Zone.sparing_moveFile (fromScratch.join file.staysWithin)
      (staged file))) fun _ => ?_
    exact keeps_mergeResources (fromScratch.join Zone.isEntry_resources.staysWithin).encloses
      (staged Zone.isEntry_resources)

/-- Staging a dashboard leaves other files. -/
theorem keeps_stageDashboard (file : slot.Differs .dashboard (name ++ ".json"))
    (texts : slot.Differs .dashboard "resources") :
    Keeps slot.Stands
      (stageDashboard name scratch (slot.zone.shelf .dashboard) : Sync ρ Unit) := by
  have folder : IsEntry "dashboard" := by decide
  have isEntry : IsEntry (name ++ ".json") := isEntry_append entry.noSlash (by decide) (by decide)
  exact keeps_stageUnpacked entry fromScratch (by decide) (fromScratch.join folder.staysWithin)
    (avoids_shelf isEntry file) (avoids_shelf Zone.isEntry_resources texts)

end

/-! ## Scratch directories -/

theorem keeps_removeScratch (avoids : slot.Avoids path) :
    Keeps slot.Stands (removeScratch path : StateM (World ρ) Unit) := by
  intro world stands
  change slot.Stands ((if world.disk.pathExists path then _ else _ :
    StateM (World ρ) Unit) world).2
  split
  · cases removed : world.disk.removeTree path with
    | ok after => exact ⟨stands.disk.removeTree avoids removed, stands.tags⟩
    | error cause => exact keeps_onSite (Zone.keeps_note _ _) world stands
  · exact stands

theorem keeps_inScratch (kind : AssetKind) {work : Path → Sync ρ α}
    (kept : ∀ aside, aside ≠ "vrops-export" → IsEntry aside → ∀ world, slot.Stands world →
      world.disk.isDirectory (slot.zone.root.join aside) →
        slot.Stands (work (slot.zone.root.join aside) world).2) :
    Keeps slot.Stands (withScratch slot.zone.root (Context.stem kind) work) := by
  intro world stands
  have fits := Context.Inside.stem_fits kind
  have entry : IsEntry (world.nextName (Context.stem kind)) :=
    Zone.isEntry_scratchName fits.1 fits.2 (stands.tags world.site.drawn)
  have different := Context.Noting.nextName_ne kind world
  have avoids := slot.avoids_aside different entry
  rw [withScratch_apply]
  have opened := slot.rules.directories avoids world.disk stands.disk
  cases made : makeDirectories (slot.zone.root.join (world.nextName (Context.stem kind)))
      world.disk with
  | mk outcome base =>
    rw [made] at opened
    cases outcome with
    | error cause => exact ⟨opened, stands.tags⟩
    | ok _ =>
      have worked := kept _ different entry (world.drawn base) ⟨opened, stands.tags⟩
        (isDirectory_of_makeDirectories made avoids.encloses.pieces_ne_blank)
      dsimp only
      exact keeps_removeScratch avoids _ worked

theorem exportAsset {channel : Channel ρ} (fills : channel.Fills) (kind : ChannelKind)
    (name : String) (different : aside ≠ "vrops-export") (entry : IsEntry aside)
    (stands : slot.Stands world)
    (scratch : world.disk.isDirectory (slot.zone.root.join aside)) :
    slot.Stands (channel.exportAsset kind name (slot.zone.root.join aside) world).2 := by
  have avoids := slot.avoids_aside different entry
  have within := Zone.keeps_exportAsset fills.toConfined kind name avoids.encloses stands.within
    scratch
  refine ⟨stands.disk.of_same within.disk fun early isEarly => ?_, within.tags⟩
  exact fills.outside kind name _ world scratch _
    (avoids.notAbove stands.disk.holds.current isEarly)

/-! ## Exports -/

variable {synchronizer : Synchronizer ρ} {package : Package} {descriptor : Descriptor}

theorem keeps_exportOne (fills : synchronizer.channel.Fills) {kind : ChannelKind}
    {stage : Stage ρ} {directory : Path}
    (staged : ∀ scratch, slot.Avoids scratch →
      Keeps slot.Stands (stage name scratch directory)) (description : String) :
    Keeps slot.Stands (exportOne (synchronizer.exportContext package slot.zone.root) kind
      description stage directory name) := by
  refine keeps_inScratch kind.assetKind fun aside different entry world stands scratch => ?_
  have exported : Leads (· = world) slot.Stands
      (synchronizer.channel.exportAsset kind name (slot.zone.root.join aside)) := by
    rintro _ rfl
    exact exportAsset fills kind name different entry stands scratch
  apply Keeps.andThen_at
  · exact Leads.run (ignoresLog slot) exported world rfl
  · intro _ after _ standsAfter
    exact Keeps.item (ignoresLog slot) kind.assetKind name
      (staged _ (slot.avoids_aside different entry)) after standsAfter

theorem keeps_tryMetricConfig (fills : synchronizer.channel.Fills)
    (other : AssetKind.metricConfig ≠ slot.owner) {candidate : String}
    (isEntry : IsEntry candidate) :
    Keeps slot.Stands (tryMetricConfig (synchronizer.exportContext package slot.zone.root)
      (slot.zone.shelf .metricConfig) candidate) := by
  refine keeps_inScratch .metricConfig fun aside different entry world stands scratch => ?_
  apply Keeps.andThen_at
  · exact exportAsset fills .metricConfig candidate different entry stands scratch
  · rintro outcome after - standsAfter
    have moved : Keeps slot.Stands (move ((slot.zone.root.join aside).join candidate)
        ((slot.zone.shelf .metricConfig).join candidate) : Sync ρ Unit) :=
      keeps_files (Zone.sparing_moveFile
        ((slot.avoids_aside different entry).join isEntry.staysWithin)
        (avoids_shelf isEntry (Sidecar.differs_of_ne other _)))
    cases outcome with
    | error cause => exact standsAfter
    | ok _ =>
      refine Keeps.andThen (fun _ holds => holds) (fun disk => ?_) after standsAfter
      split
      · exact .andThen moved fun _ => .succeed true
      · exact .succeed false

theorem keeps_replaceFile (entry : IsEntry name) (file : slot.Differs kind name)
    (draft : slot.Differs kind (name ++ ".tmp")) (content : Bytes) :
    Keeps slot.Spared (replaceFile ((slot.zone.shelf kind).join name) content) :=
  Zone.sparing_replaceFile (endsInName_join _ kind.isEntry_directory) entry
    (avoids_shelf entry file)
    (avoids_shelf (isEntry_append entry.noSlash (by decide) (by decide)) draft) content

theorem keeps_makeShelf (slot : Slot) (kind : AssetKind) :
    Keeps slot.Spared (makeDirectories (slot.zone.shelf kind)) := by
  refine Zone.sparing_makeDirectories (slot.zone.encloses_shelf kind) fun disk same => ?_
  exact Zone.not_onWay_extend _ same (Zone.isEntry_shelf kind) (by simp [Sidecar.place])
    fun isPrefix => by simpa [Sidecar.place] using isPrefix.length_le

theorem keeps_seedSharing (file : slot.Differs .dashboard Sharing.fileName)
    (draft : slot.Differs .dashboard (Sharing.fileName ++ ".tmp")) (patterns : List String)
    (count : Nat) :
    Keeps slot.Stands
      (seedSharing (synchronizer.exportContext package slot.zone.root) patterns count) := by
  intro world stands
  obtain ⟨log, ran⟩ := seedSharing_apply (synchronizer.exportContext package slot.zone.root)
    patterns count world
  have seeded : Keeps slot.Spared (Sharing.seedIfAbsent
      (synchronizer.exportContext package slot.zone.root).staging package.path
      (literals patterns)) := by
    refine .andThen Keeps.get fun disk => ?_
    split
    · exact .succeed false
    · exact .andThen (keeps_replaceFile (by decide) file draft _) fun _ => .succeed true
  rw [ran]
  exact ⟨seeded _ stands.disk, stands.tags⟩

theorem upholds (slot : Slot) (apart : slot.toSidecar.Apart) (fills : synchronizer.channel.Fills)
    (names : synchronizer.query.Serves fun _ name => IsPlain name) :
    Upholds descriptor (synchronizer.exportContext package slot.zone.root) slot.Stands
      slot.Stands fun _ name => IsEntry name where
  logs := ignoresLog slot
  logsInside := ignoresLog slot
  query := by
    have serves : synchronizer.query.Serves fun kind name =>
        descriptor.Asks kind name → IsEntry name := names.mono fun _ _ plain _ => plain.isEntry
    exact serves.keeping keeps_onSite
  frames := .of_keeps (keeps_onSite fills.connect) (keeps_onSite fills.close)
  directory kind := keeps_files (slot.keeps_makeShelf kind)
  file kind queried name entry file staged content := by
    obtain ⟨differs, draft⟩ := apart.queried kind queried name file staged
    exact keeps_files (keeps_replaceFile (AssetKind.isEntry_stagedNames entry staged) differs draft
      content)
  exported kind _ staging _ entry description := by
    have other : kind ≠ .dashboard := by
      rintro rfl
      simp [stagings] at staging
    exact keeps_exportOne fills
      (fun _ fromScratch => keeps_stage entry fromScratch staging (apart.fetched kind other))
      description
  tried _ entry _ staged := keeps_tryMetricConfig fills (apart.fetched .metricConfig (by decide))
    (AssetKind.isEntry_stagedNames entry staged)

end Slot

end OpsContent
