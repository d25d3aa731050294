import OpsContent.Proofs.Growth
import OpsContent.Proofs.Workspace
import OpsContent.Remote.Scripted
import OpsContent.Remote.Trace

/-!
# Exports are atomic

An export that fails before it is complete, or that is only a dry run, leaves the disk as it was.
A dry run asks the server exactly what the export would ask, and counts the same.
-/

/-! ## Scripted servers meet what is assumed of servers -/

namespace OpsContent.Scripted

open OpsContent.Path

variable {ρ : Type}

namespace Answers

variable (answers : Answers) {good : AssetKind → String → Prop} {α : Type}

theorem keeps_reply (call : String) (value : α) :
    Keeps Site.TagsFit (answers.reply call value : QueryAction ρ α) :=
  fun _ fit => fit

theorem lists_reply (call : String) {values : List α} {name : α → String} {good : String → Prop}
    (names : ∀ value ∈ values, good (name value)) :
    Lists (answers.reply call values : QueryAction ρ (List α)) name good := by
  refine ⟨answers.keeps_reply call values, ?_⟩
  intro site found after ran
  unfold reply World.settle at ran
  split at ran
  · cases ran
  · cases ran
    exact names

theorem lists_names (call : String) {names : List String} {good : String → Prop}
    (goodNames : ∀ name ∈ names, good name) :
    Lists (answers.reply call (listing names) : QueryAction ρ (List Listing)) (·.name) good := by
  apply answers.lists_reply
  intro found member
  obtain ⟨name, inNames, rfl⟩ := List.mem_map.1 member
  exact goodNames name inNames

theorem serves (views : ∀ name ∈ answers.views, good .view name)
    (reports : ∀ name ∈ answers.reports, good .report name)
    (superMetrics : ∀ name ∈ answers.superMetrics, good .superMetric name)
    (policies : ∀ policy ∈ answers.policies, good .policy policy.name)
    (customGroups : ∀ group ∈ answers.customGroups, good .customGroup group.name)
    (definitions : ∀ kind, ∀ asset ∈ answers.definitions kind, good kind.assetKind asset.name) :
    (answers.query : Query ρ).Serves good where
  views := answers.lists_names _ views
  reports := answers.lists_names _ reports
  superMetrics := answers.lists_names _ superMetrics
  policies := answers.lists_reply _ policies
  policyContent := fun _ => answers.keeps_reply _ _
  customGroups := answers.lists_reply _ customGroups
  definitions := fun kind => answers.lists_reply _ (definitions kind)

end Answers

namespace Behaviour

variable (behaviour : Behaviour)

/-- What a scripted channel exports is the same for every directory and world. -/
theorem exportAsset_world (kind : ChannelKind) (name : String) :
    ∃ outcome, (∀ directory world, behaviour.exportAsset kind name directory world =
        (outcome, world)) ∨
      ∃ key files, behaviour.exports.find? key = some files ∧
        ∀ directory world, behaviour.exportAsset kind name directory world =
          (outcome, { world with disk := (Disk.plant directory files world.disk).2 }) := by
  cases attempted : behaviour.attempt ("export " ++ kindName kind)
      ["export_" ++ kindName kind ++ ":" ++ name] with
  | error cause =>
    refine ⟨.error cause, Or.inl fun directory world => ?_⟩
    rw [exportAsset, attempted]
    rfl
  | ok _ =>
    cases planted : behaviour.exports.find? (kindName kind ++ ":" ++ name) with
    | none =>
      refine ⟨.error ⟨"export " ++ kindName kind, "'" ++ name ++ "' not found"⟩,
        Or.inl fun directory world => ?_⟩
      rw [exportAsset, attempted, planted]
      rfl
    | some files =>
      refine ⟨.ok (), Or.inr ⟨_, files, planted, fun directory world => ?_⟩⟩
      rw [exportAsset, attempted, planted]
      rfl

variable (stays : ∀ key files, behaviour.exports.find? key = some files →
  ∀ file ∈ files, StaysWithin 0 file.1)

include stays

/-- What a scripted channel exports grows below the directory if no file of the script climbs
out. -/
theorem growsBelow_exportAsset (kind : ChannelKind) (name : String) (directory : Path)
    (world : World Memory) :
    (behaviour.exportAsset kind name directory world).2.site = world.site ∧
      Disk.GrowsBelow directory world.disk
        (behaviour.exportAsset kind name directory world).2.disk := by
  obtain ⟨_, same | ⟨key, files, found, same⟩⟩ := behaviour.exportAsset_world kind name
  · rw [same]
    exact ⟨rfl, Disk.GrowsBelow.refl directory world.disk⟩
  · rw [same]
    exact ⟨rfl, Disk.keepsGrowth_plant world.disk (stays key files found) world.disk
      (Disk.GrowsBelow.refl directory world.disk)⟩

theorem confined : behaviour.channel.Confined := by
  have grows := behaviour.growsBelow_exportAsset stays
  refine ⟨fun _ fit => fit, fun _ fit => fit, ?_, ?_, ?_, ?_⟩
  · intro kind name directory world fit
    change (behaviour.exportAsset kind name directory world).2.site.TagsFit
    rwa [(grows kind name directory world).1]
  · intro kind name directory world
    exact (grows kind name directory world).2.current
  · intro kind name directory world stands location outside
    rcases (grows kind name directory world).2.outside location outside with same | ⟨onWay, free, -⟩
    · exact same
    · rw [Disk.directory_of_onWay stands onWay] at free
      cases free
  · intro kind name directory world stands rest exported
    rcases (grows kind name directory world).2.appears _ exported with stood | onWay | below
    · exact .inl stood
    · rw [Disk.directory_of_onWay stands onWay]
      exact .inl rfl
    · obtain ⟨names, entries, equal⟩ := below
      rw [List.append_cancel_left equal]
      exact .inr entries

theorem fills : behaviour.channel.Fills where
  toConfined := behaviour.confined stays
  stands kind name directory world stood := by
    have grows := (behaviour.growsBelow_exportAsset stays kind name directory world).2
    exact Disk.isDirectory_of_directories grows.current
      (fun location _ => grows.directories location) stood

end Behaviour

theorem staysWithin_of_isEntry {exports : Table (List (String × Option Bytes))}
    (entries : ∀ asset ∈ exports, ∀ file ∈ asset.2, IsEntry file.1) (key : String)
    (files : List (String × Option Bytes)) (found : exports.find? key = some files) :
    ∀ file ∈ files, StaysWithin 0 file.1 :=
  fun file inside => (entries _ (Table.mem_of_find? found) file inside).staysWithin

end OpsContent.Scripted

namespace OpsContent

open OpsContent.Path Staging

variable {ρ : Type} {descriptor : Descriptor} {name : String}

theorem Descriptor.forall_asked {good : AssetKind → List String → Prop}
    (checked : ∀ kind ∈ AssetKind.all, ∀ patterns ∈ descriptor.patterns kind, good kind patterns)
    (kind : AssetKind) (patterns : List String) (isAsked : descriptor.patterns kind = some patterns) :
    good kind patterns :=
  checked kind (by cases kind <;> decide) patterns isAsked

/-! ## Plain names fit -/

theorem isEntry_append {ending : String} (noSlash : '/' ∉ name.toList) (long : 3 ≤ ending.length)
    (endingFit : '/' ∉ ending.toList) : IsEntry (name ++ ending) := by
  apply isEntry_of_length
  · rw [String.length_append]
    exact Nat.le_add_left_of_le long
  · simp [noSlash, endingFit]

theorem AssetKind.fits_of_isPlain (kind : AssetKind) (plain : IsPlain name) : kind.Fits name := by
  have itself := plain.isEntry
  intro staged member
  refine (IsEntry.staysWithin ?_).mono (Nat.zero_le _)
  cases kind
  all_goals
    simp only [AssetKind.stagedNames, List.mem_cons, List.not_mem_nil, or_false] at member
    rcases member with rfl | rfl
  all_goals first
    | exact itself
    | exact isEntry_append itself.noSlash (by decide) (by decide)

theorem Descriptor.namesFit_of_isPlain {query : Query ρ}
    (names : query.Serves fun _ name => IsPlain name)
    (patterns : ∀ kind patterns, descriptor.patterns kind = some patterns →
      ∀ pattern ∈ patterns, IsPlain pattern) : descriptor.NamesFit query where
  listed := names.mono fun kind _ plain _ => kind.fits_of_isPlain plain
  dashboards := fun texts asked name member =>
    AssetKind.fits_of_isPlain _ (patterns _ texts asked name (List.mem_of_mem_filter member))
  metricConfigs := fun texts asked name member =>
    AssetKind.fits_of_isPlain _ (patterns _ texts asked name (List.mem_of_mem_filter member))

namespace Synchronizer

variable {world : World ρ}

variable (synchronizer : Synchronizer ρ) (package : Package) (descriptor : Descriptor)

/-- The same with all calls recorded. -/
def traced : Synchronizer (Traced ρ) where
  query := Traced.query synchronizer.query
  channel := Traced.channel synchronizer.channel
  scratch := synchronizer.scratch

/-- An export up to the copy to the project. -/
def staged : Sync ρ ExportStats :=
  withScratch synchronizer.scratch "vrsync-export" (synchronizer.stagePackage package descriptor)

theorem exportPackage_dryRun :
    synchronizer.exportPackage package descriptor true =
      synchronizer.staged package descriptor := by
  simp [exportPackage, staged]

theorem exportPackage_beside_dryRun (world : World ρ) :
    (∃ cause, (synchronizer.staged package descriptor world).1 = .error cause ∧
      synchronizer.exportPackage package descriptor false world =
        synchronizer.staged package descriptor world) ∨
    ∃ stats, (synchronizer.staged package descriptor world).1 = .ok stats ∧
      (synchronizer.exportPackage package descriptor false world).2.site.remote =
        (synchronizer.staged package descriptor world).2.site.remote ∧
      ((synchronizer.exportPackage package descriptor false world).1 =
          .ok { stats with written := true } ∨
        ∃ cause, (synchronizer.exportPackage package descriptor false world).1 =
          .error (.io cause)) := by
  unfold exportPackage staged
  rw [withScratch_apply, withScratch_apply]
  cases Disk.makeDirectories (synchronizer.scratch.join (world.nextName "vrsync-export"))
      world.disk with
  | mk outcome base =>
    cases outcome with
    | error cause => exact .inl ⟨_, rfl, rfl⟩
    | ok _ =>
      dsimp only
      rw [exceptBind_apply]
      cases synchronizer.stagePackage package descriptor
          (synchronizer.scratch.join (world.nextName "vrsync-export")) (world.drawn base) with
      | mk outcome after =>
        cases outcome with
        | error cause => exact .inl ⟨cause, rfl, rfl⟩
        | ok stats =>
          right
          dsimp only
          rw [remote_removeScratch, remote_removeScratch, if_neg Bool.false_ne_true,
            exceptBind_apply]
          unfold World.files World.onDisk
          cases Disk.copyTree (stagingIn (synchronizer.scratch.join
              (world.nextName "vrsync-export"))) package.path after.disk with
          | mk outcome copied =>
            cases outcome with
            | error cause => exact ⟨stats, rfl, rfl, Or.inr ⟨cause, rfl⟩⟩
            | ok _ => exact ⟨stats, rfl, rfl, Or.inl rfl⟩

/-! ## What is staged was not written -/

theorem yields_exportKinds (context : Export.Context ρ) (stats : ExportStats)
    (kinds : List AssetKind) :
    Yields (Export.exportKinds context descriptor stats kinds) (·.written = stats.written) := by
  induction kinds generalizing stats with
  | nil =>
    rintro world found after ⟨⟩
    rfl
  | cons kind rest ih =>
    unfold Export.exportKinds
    cases descriptor.patterns kind with
    | none => exact ih stats
    | some patterns =>
      apply Yields.andThen
      intro count
      cases count with
      | none => exact ih stats
      | some count => exact ih (stats.add kind count)

theorem yields_stagePackage (workspace : Path) :
    Yields (synchronizer.stagePackage package descriptor workspace) (·.written = false) :=
  Yields.andThen fun _ => yields_exportKinds descriptor _ {} AssetKind.all

theorem written_of_staged {stats : ExportStats}
    (done : (synchronizer.staged package descriptor world).1 = .ok stats) :
    stats.written = false := by
  unfold staged at done
  rw [withScratch_apply] at done
  split at done
  · cases done
  next base made =>
    exact synchronizer.yields_stagePackage package descriptor _ _ _ _ (Prod.ext done rfl)

/-! ## The disk after staging -/

variable {synchronizer package descriptor}

theorem keeps_stagePackage (confined : synchronizer.channel.Confined)
    (fit : descriptor.NamesFit synchronizer.query) (zone : Zone) :
    Keeps zone.Within (synchronizer.stagePackage package descriptor zone.root) := by
  have staging : zone.Encloses 1 (stagingIn zone.root) :=
    zone.encloses_root.joinEntry (by decide)
  unfold stagePackage
  refine .andThen (Zone.keeps_files (Zone.keeps_makeDirectories staging)) fun _ => ?_
  exact Export.Context.Inside.keeps_exportAll ⟨rfl, staging, confined⟩ fit

theorem opensOnly_staged (confined : synchronizer.channel.Confined)
    (fit : descriptor.NamesFit synchronizer.query)
    (fresh : world.Fresh synchronizer.scratch "vrsync-export") :
    Disk.OpensOnly (world.disk.OnWay synchronizer.scratch) world.disk
      (synchronizer.staged package descriptor world).2.disk := by
  have entry := fresh.isEntry (by decide) (by decide)
  apply fresh.opensOnly_withScratch entry
  intro zone root
  exact keeps_stagePackage confined fit zone

/-- An export is atomic.  The names and patterns are plain, the channel writes only to the
directory of each call, and the name of the workspace is new.  If the staging fails, at whatever
point, or the run is a dry one, the disk is what it was before but for the directories on the way
to the scratch directories.  A dry run makes the calls that the export makes and counts what the
export counts. -/
theorem exportPackage_atomic (synchronizer : Synchronizer ρ) (package : Package)
    (descriptor : Descriptor) (world : World ρ) (confined : synchronizer.channel.Confined)
    (names : synchronizer.query.Serves fun _ name => IsPlain name)
    (patterns : ∀ kind patterns, descriptor.patterns kind = some patterns →
      ∀ pattern ∈ patterns, IsPlain pattern)
    (fresh : world.Fresh synchronizer.scratch "vrsync-export") :
    (∀ dryRun, (dryRun = true ∨ ∃ cause,
        (synchronizer.staged package descriptor world).1 = .error cause) →
      Disk.OpensOnly (world.disk.OnWay synchronizer.scratch) world.disk
        (synchronizer.exportPackage package descriptor dryRun world).2.disk) ∧
    (∀ watched : World (Traced ρ),
      (synchronizer.traced.exportPackage package descriptor true watched).2.site.remote.calls =
        (synchronizer.traced.exportPackage package descriptor false watched).2.site.remote.calls) ∧
    (∀ stats, (synchronizer.exportPackage package descriptor false world).1 = .ok stats →
      (synchronizer.exportPackage package descriptor true world).1 =
        .ok { stats with written := false }) ∧
    (∀ stats, (synchronizer.exportPackage package descriptor true world).1 = .ok stats →
      stats.written = false ∧
        ((synchronizer.exportPackage package descriptor false world).1 =
            .ok { stats with written := true } ∨
          ∃ cause, (synchronizer.exportPackage package descriptor false world).1 =
            .error (.io cause))) ∧
    ∀ cause, (synchronizer.exportPackage package descriptor true world).1 = .error cause →
      (synchronizer.exportPackage package descriptor false world).1 = .error cause := by
  have restored : Disk.OpensOnly (world.disk.OnWay synchronizer.scratch) world.disk
      (synchronizer.staged package descriptor world).2.disk :=
    opensOnly_staged confined (Descriptor.namesFit_of_isPlain names patterns) fresh
  simp only [exportPackage_dryRun]
  have beside := synchronizer.exportPackage_beside_dryRun package descriptor world
  refine ⟨?_, ?_, ?_, ?_, ?_⟩
  · intro dryRun reason
    cases dryRun with
    | true =>
      rw [exportPackage_dryRun]
      exact restored
    | false =>
      rcases beside with ⟨-, -, same⟩ | ⟨stats, done, -⟩
      · rw [same]
        exact restored
      · rcases reason with absurdity | ⟨cause, failed⟩
        · cases absurdity
        · rw [done] at failed
          cases failed
  · intro watched
    rcases synchronizer.traced.exportPackage_beside_dryRun package descriptor watched with
      ⟨-, -, same⟩ | ⟨-, -, same, -⟩
    · rw [same]
    · rw [same]
  · intro stats exported
    rcases beside with ⟨cause, failed, same⟩ | ⟨counted, done, -, written | ⟨cause, failed⟩⟩
    · rw [same, failed] at exported
      cases exported
    · rw [written] at exported
      cases exported
      rw [done, ← synchronizer.written_of_staged package descriptor done]
    · rw [failed] at exported
      cases exported
  · intro stats done
    refine ⟨synchronizer.written_of_staged package descriptor done, ?_⟩
    rcases beside with ⟨cause, failed, -⟩ | ⟨counted, again, -, outcome⟩
    · rw [done] at failed
      cases failed
    · rw [done] at again
      cases again
      exact outcome
  · intro cause failed
    rcases beside with ⟨-, -, same⟩ | ⟨stats, done, -⟩
    · rw [same]
      exact failed
    · rw [done] at failed
      cases failed

/-- A server with two views, one of which it exports as a damaged archive. -/
def damagedServer : Synchronizer Scripted.Memory where
  query := Scripted.Answers.query { views := ["cpu", "disk"] }
  channel := Scripted.Behaviour.channel { exports := [("view:cpu", [("cpu.zip", some [1, 2, 3])])] }
  scratch := ⟨true, ["tmp"]⟩

def bareWorld : World Scripted.Memory where
  disk := { current := [], nodes := [(["work"], .directory)] }
  site := { tags := fun _ => "0", remote := {} }

/-- A package without content. -/
def bareProject : Package where
  path := ⟨true, ["work"]⟩
  name := "p"
  type := "vrops"
  id := none
  version := "1"

def viewDescriptor : Descriptor := Descriptor.set {} .view ["cpu"]

theorem fresh_bareWorld (parent : Path) (elsewhere : "vrsync-export-0" ∉ parent.pieces) :
    bareWorld.Fresh parent "vrsync-export" :=
  .of_nodes (fun _ => (by decide : '/' ∉ "0".toList)) (by decide) (by decide) elsewhere

theorem confined_damagedServer : damagedServer.channel.Confined :=
  Scripted.Behaviour.confined _ (Scripted.staysWithin_of_isEntry (by decide))

/-- The damaged archive makes the staging fail, and nothing of it is left. -/
theorem exportPackage_atomic_damagedServer :
    (damagedServer.staged bareProject viewDescriptor bareWorld).1 =
        .error (.batch "Export of views in package 'p-1'" [⟨.view, "cpu",
          "Archive error: invalid Zip archive: Invalid zip header"⟩]) ∧
      bareWorld.Fresh damagedServer.scratch "vrsync-export" ∧
      Disk.OpensOnly (bareWorld.disk.OnWay damagedServer.scratch) bareWorld.disk
        (damagedServer.exportPackage bareProject viewDescriptor false bareWorld).2.disk := by
  have failed : (damagedServer.staged bareProject viewDescriptor bareWorld).1 =
      .error (.batch "Export of views in package 'p-1'" [⟨.view, "cpu",
        "Archive error: invalid Zip archive: Invalid zip header"⟩]) := by
    decide +kernel
  have fresh := fresh_bareWorld damagedServer.scratch (by decide)
  have names : damagedServer.query.Serves fun _ name => IsPlain name :=
    Scripted.Answers.serves _ (by decide) (by decide) (by decide) (by simp) (by simp) (by simp)
  have atomic := exportPackage_atomic damagedServer bareProject viewDescriptor bareWorld
    confined_damagedServer names (Descriptor.forall_asked (by decide)) fresh
  exact ⟨failed, fresh, atomic.1 false (Or.inr ⟨_, failed⟩)⟩

/-- A file stands in the place of the project. -/
def occupiedWorld : World Scripted.Memory :=
  { bareWorld with disk := ⟨[], [(["work"], .file [])]⟩ }

def groupServer : Synchronizer Scripted.Memory :=
  { damagedServer with
    query := Scripted.Answers.query { customGroups := [⟨"web", none, .object []⟩] }
    scratch := ⟨true, ["var", "tmp"]⟩ }

def groupDescriptor : Descriptor := Descriptor.set {} .customGroup ["*"]

/-- A dry run does not foresee that what is staged cannot be copied to the project, and leaves behind
the directories that were missing above the scratch directories. -/
theorem exportPackage_fails_after_dryRun :
    (groupServer.exportPackage bareProject groupDescriptor true occupiedWorld).1 =
        .ok { assets := [("customGroup", 1)], written := false } ∧
      (groupServer.exportPackage bareProject groupDescriptor true occupiedWorld).2.disk.get?
        ["var"] = some .directory ∧
      (groupServer.exportPackage bareProject groupDescriptor false occupiedWorld).1 =
        .error (.io (.system .alreadyExists)) := by
  decide +kernel

end Synchronizer

end OpsContent
