import OpsContent.Proofs.Projects
import OpsContent.Proofs.PushedAssets
import OpsContent.Proofs.QueuedShelves

/-!
# What an import counts

An import counts what it queues and what it pushes.  Together this is what the package holds, except
that definitions are counted by their keys: of definitions with the same key only one is pushed.
-/

namespace OpsContent

open OpsContent.Path Disk DefinitionKind

variable {ρ : Type} {kind : AssetKind} {stats : ImportStats}

theorem DefinitionKind.eq_of_ofAssetKind? {definition : DefinitionKind}
    (found : ofAssetKind? kind = some definition) : kind = definition.assetKind := by
  cases kind <;> cases found <;> rfl

namespace Import

variable {source destination : Path}

/-! ## The keys of definitions -/

theorem definitionKey_congr {before after : Disk} {file other : Path}
    (sameContent : after.readFile other = before.readFile file)
    (sameBase : other.baseName = file.baseName) :
    definitionKey after other = definitionKey before file := by
  have sameJson : readJson after other = readJson before file := by
    simp only [readJson, readText, sameContent]
  unfold definitionKey readDefinition
  rw [sameJson, sameBase]
  cases readJson before file with
  | error cause => rfl
  | ok content =>
    dsimp only [bind, Except.bind]
    split <;> rfl

theorem definitionKeys_congr {before after : Disk} {kind : DefinitionKind}
    (named : before.NamedBelow (before.place source))
    (namedAfter : after.NamedBelow (after.place destination)) (same : ∀ name, IsEntry name →
      after.node? ((destination.join kind.assetKind.directory).join name) =
      before.node? ((source.join kind.assetKind.directory).join name)) :
    definitionKeys after destination kind = definitionKeys before source kind := by
  unfold definitionKeys
  rw [assetNames_congr named namedAfter same]
  apply List.map_congr_left
  intro name member
  obtain ⟨entry, node, found, counts⟩ := (mem_assetNames_iff named).1 member
  have isFile : ∃ content, node = .file content := by
    cases node with
    | file content => exact ⟨content, rfl⟩
    | directory => cases kind <;> cases counts
  obtain ⟨content, rfl⟩ := isFile
  refine definitionKey_congr ?_ ?_
  · rw [readFile_eq_ok_iff.2 found, readFile_eq_ok_iff.2 ((same name entry).trans found)]
  · rw [baseName_join _ entry, baseName_join _ entry]

/-! ## From the package to the counts -/

variable {context : Context ρ} {before after : World ρ}

theorem PreparedAll.node?_join {kinds : List ChannelKind}
    (prepared : PreparedAll context kinds before after)
    (stands : before.disk.isDirectory context.staging)
    (notQueued : ∀ channel : ChannelKind, channel.assetKind.directory ≠ kind.directory)
    {name : String} (entry : IsEntry name) :
    after.disk.node? ((context.staging.join kind.directory).join name) =
      before.disk.node? ((context.staging.join kind.directory).join name) := by
  have touches : TouchesBelow context.staging
      (fun rest => ∃ (channel : ChannelKind) (other : String),
        rest = [channel.assetKind.directory, other]) before.disk after.disk := by
    refine ⟨prepared.current, isDirectory_of_directories prepared.current
      fun location _ => (prepared.directories location).2, ?_,
      fun rest => (prepared.directories _).2⟩
    intro rest free
    apply prepared.elsewhere
    intro channel _ other same
    rw [place_directory, List.append_assoc] at same
    exact free ⟨channel, other, List.append_cancel_left same⟩
  refine touches.node?_extend stands (kind.isEntry_below entry) fun beginning _ isPrefix =>
    Or.inl ?_
  rintro ⟨channel, other, rfl⟩
  exact notQueued channel (List.cons_prefix_cons.1 isPrefix).1

/-- How many assets of a kind an import counts: definitions by their keys, others by their
entries. -/
def counted (disk : Disk) (project : Path) (kind : AssetKind) : Nat :=
  match DefinitionKind.ofAssetKind? kind with
  | some definition => (definitionKeys disk project definition).dedup.length
  | none => (disk.assetNames project kind).length

theorem counted_congr {before after : Disk} (named : before.NamedBelow (before.place source))
    (namedAfter : after.NamedBelow (after.place destination)) (same : ∀ name, IsEntry name →
      after.node? ((destination.join kind.directory).join name) =
      before.node? ((source.join kind.directory).join name)) :
    counted after destination kind = counted before source kind := by
  unfold counted
  split
  next definition isDefinition =>
    cases eq_of_ofAssetKind? isDefinition
    rw [definitionKeys_congr named namedAfter same]
  · rw [assetNames_congr named namedAfter same]

theorem importAll_counts (live : context.dryRun = false)
    (stands : before.disk.isDirectory context.staging)
    (named : before.disk.NamedBelow (before.disk.place context.staging))
    (done : importAll context before = (.ok stats, after)) (kind : AssetKind) :
    stats.queued.count kind + stats.pushed.count kind =
      counted before.disk context.staging kind := by
  obtain ⟨enqueued, queueing, enqueue, done⟩ := exceptBind_ok done
  obtain ⟨submitted, submitting, submit, done⟩ := exceptBind_ok done
  rw [if_neg (by simp [live])] at done
  obtain ⟨_, defining, define, done⟩ := exceptBind_ok done
  obtain ⟨_, ruling, rule, done⟩ := exceptBind_ok done
  obtain ⟨_, grouping, group, done⟩ := exceptBind_ok done
  obtain ⟨prepared, nonePushed, counts⟩ := enqueueKinds_prepares (by decide) named enqueue
  have pushes := (submit_ok submit).trans (((pushDefinitions_ok define).trans
    (pushPolicies_ok rule)).trans ((pushGroups_ok group).trans (applySharing_ok done)))
  have sameSubmitted := (submit_ok submit).disk
  have sameDefined := (pushDefinitions_ok define).disk.trans sameSubmitted
  have sameRuled := (pushPolicies_ok rule).disk.trans sameDefined
  rw [sameSubmitted, sameDefined, sameRuled] at pushes
  rw [pushes.queued, pushes.pushed, nonePushed, counts]
  cases kind with
  | view | dashboard | report | superMetric | metricConfig =>
    simp [ChannelKind.all, ChannelKind.assetKind, importOrder,
      assetKind, sourceNames_eq, counted, ofAssetKind?,
      Counts.count_nil]
  | alertDefinition | symptomDefinition | recommendation | policy | customGroup =>
    rw [← counted_congr named prepared.named fun name => prepared.node?_join stands
      fun channel => by cases channel <;> decide]
    simp [ChannelKind.all, ChannelKind.assetKind, importOrder,
      assetKind, counted, ofAssetKind?, Counts.count_nil]

end Import

namespace Synchronizer

open Import

theorem importPackage_ok {synchronizer : Synchronizer ρ} {package : Package} {dryRun : Bool}
    {world after : World ρ}
    (done : synchronizer.importPackage package dryRun world = (.ok stats, after)) :
    ∃ staging unpacked imported,
      synchronizer.unpackPackage package world = (.ok staging, unpacked) ∧
      importAll (synchronizer.importContext package dryRun staging) unpacked =
        (.ok stats, imported) := by
  obtain ⟨_, opened, opening, scratching⟩ := exceptBind_ok done
  obtain ⟨isOpened, sameSite⟩ := Zone.files_ok opening
  obtain ⟨base, last, making, working, -⟩ := withScratch_ok scratching
  obtain ⟨_, unpacked, unpacking, concluding⟩ := exceptBind_ok working
  obtain ⟨imported, importing, -⟩ := concluding_ok concluding
  have sameName : opened.nextName (importStem package) = world.nextName (importStem package) := by
    rw [World.nextName, World.nextName, sameSite]
  have sameDrawn : opened.drawn base = world.drawn base := by
    rw [World.drawn, World.drawn, sameSite]
  rw [sameName] at making unpacking importing
  rw [sameDrawn] at unpacking
  exact ⟨_, unpacked, imported,
    unpackPackage_ok_iff.2 ⟨opened.disk, base, isOpened, rfl, making, unpacking⟩, importing⟩

/-- An import that succeeds counts what the package holds.  Assets that are no definitions are
counted one by one, as far as they are queued or pushed.  Definitions are counted by their keys, so
that they are as many as there are files exactly if no two files have the same key. -/
theorem importPackage_counts_held {synchronizer : Synchronizer ρ} {package : Package}
    {world after : World ρ} {stats : ImportStats}
    (fresh : world.Fresh (synchronizer.scratch.join "vrops-import") (importStem package))
    (noSlash : '/' ∉ (importStem package).toList)
    (stands : world.disk.isDirectory package.path = true)
    (named : world.disk.NamedBelow (world.disk.place package.path))
    (passes : world.disk.PassesBy package.path (synchronizer.scratch.join "vrops-import"))
    (done : synchronizer.importPackage package false world = (.ok stats, after)) :
    (∀ kind, DefinitionKind.ofAssetKind? kind = none →
      stats.queued.count kind + stats.pushed.count kind =
        world.disk.localCount package.path kind) ∧
      ∀ kind : DefinitionKind,
        stats.queued.count kind.assetKind + stats.pushed.count kind.assetKind =
            (definitionKeys world.disk package.path kind).dedup.length ∧
          (stats.queued.count kind.assetKind + stats.pushed.count kind.assetKind =
              world.disk.localCount package.path kind.assetKind ↔
            (definitionKeys world.disk package.path kind).Nodup) := by
  obtain ⟨staging, unpacked, imported, unpacking, importing⟩ := importPackage_ok done
  obtain ⟨standsStaging, mirrors, -⟩ :=
    unpackPackage_mirrors fresh noSlash stands named passes unpacking
  have namedStaging := mirrors.namedBelow named
  have counts : ∀ kind, stats.queued.count kind + stats.pushed.count kind =
      counted world.disk package.path kind := by
    intro kind
    rw [importAll_counts rfl standsStaging namedStaging importing kind]
    exact counted_congr named namedStaging fun name entry =>
      mirrors.node?_extend (List.cons_ne_nil _ _) (kind.isEntry_below entry)
  refine ⟨fun kind notDefinition => ?_, fun kind => ?_⟩
  · rw [counts, counted, notDefinition, localCount_eq]
  · have byKeys : counted world.disk package.path kind.assetKind =
        (definitionKeys world.disk package.path kind).dedup.length := by
      rw [counted, DefinitionKind.ofAssetKind?_assetKind]
    have byFiles : world.disk.localCount package.path kind.assetKind =
        (definitionKeys world.disk package.path kind).length := by
      rw [localCount_eq, definitionKeys, List.length_map]
    rw [counts, byKeys, byFiles, (List.dedup_sublist _).length_eq, List.dedup_eq_self]
    exact ⟨rfl, Iff.rfl⟩

/-! ## Two definitions with the same key -/

def acceptingServer : Synchronizer Scripted.Memory where
  query := ({} : Scripted.Answers).query
  channel := ({} : Scripted.Behaviour).channel
  scratch := ⟨true, ["tmp"]⟩

/-- A project with a super metric and two symptom definitions that have the same identifier. -/
def twinDefinitions : World Scripted.Memory where
  disk := { current := [], nodes :=
    [(["work"], .directory), (["work", "supermetrics"], .directory),
      (["work", "supermetrics", "disk.json"], .file (Bytes.ofText "1")),
      (["work", "symptom_definitions"], .directory),
      (["work", "symptom_definitions", "a.json"], .file (Bytes.ofText "\x7b\"id\":\"1\"\x7d")),
      (["work", "symptom_definitions", "b.json"], .file (Bytes.ofText "\x7b\"id\":\"1\"\x7d"))] }
  site := { tags := fun _ => "0", remote := {} }

def twinImport : Except SyncError ImportStats × World Scripted.Memory :=
  acceptingServer.importPackage bareProject false twinDefinitions

theorem outcome_twinImport :
    twinImport.1 =
        .ok { queued := [("superMetric", 1)], pushed := [("policy", 0), ("symptomDefinition", 1)],
              submitted := true } ∧
      twinDefinitions.disk.localCount bareProject.path .symptomDefinition = 2 ∧
      definitionKeys twinDefinitions.disk bareProject.path .symptom = [some "1", some "1"] := by
  decide +kernel

/-- The import of two symptom definitions that have the same identifier counts one. -/
theorem importPackage_merges_twins :
    twinImport.1 =
        .ok { queued := [("superMetric", 1)], pushed := [("policy", 0), ("symptomDefinition", 1)],
              submitted := true } ∧
      twinDefinitions.disk.localCount bareProject.path .symptomDefinition = 2 :=
  ⟨outcome_twinImport.1, outcome_twinImport.2.1⟩

/-- Two symptom definitions, which have one key. -/
theorem importPackage_counts_held_twins :
    (∃ stats, twinImport.1 = .ok stats ∧
      stats.queued.count .superMetric + stats.pushed.count .superMetric = 1 ∧
      stats.queued.count .symptomDefinition + stats.pushed.count .symptomDefinition = 1) ∧
      definitionKeys twinDefinitions.disk bareProject.path .symptom = [some "1", some "1"] := by
  obtain ⟨succeeds, -, keys⟩ := outcome_twinImport
  have done := eq_mk_of_fst_eq succeeds
  have fresh : twinDefinitions.Fresh (acceptingServer.scratch.join "vrops-import")
      (importStem bareProject) :=
    .of_nodes (fun _ => (by decide : '/' ∉ "0".toList)) (by decide +kernel) (by decide +kernel)
      (by decide +kernel)
  have named : twinDefinitions.disk.WellNamed := wellNamed_of_nodes (by decide +kernel)
  obtain ⟨others, definitions⟩ := importPackage_counts_held fresh (by decide +kernel)
    (by decide +kernel) (named.namedBelow _) (passesBy_iff.2 (by decide +kernel)) done
  refine ⟨⟨_, succeeds, ?_, ?_⟩, keys⟩
  · rw [others .superMetric rfl]
    decide +kernel
  · have counts := (definitions .symptom).1
    rw [keys] at counts
    exact counts

end Synchronizer

end OpsContent
