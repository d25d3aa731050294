import Mathlib.Data.List.Dedup
import OpsContent.Proofs.ExportedAssets
import OpsContent.Proofs.ImportStages
import OpsContent.Proofs.LocalAssets

/-!
# Pushed assets

What the stages of an import behind the queue do if they succeed: each leaves the disk, and counts
what it has pushed.  Policies and custom groups are pushed file by file.
-/

namespace OpsContent

open OpsContent.Path Disk List

variable {ρ : Type}

theorem Table.length_ofList {α : Type} (entries : List (String × α)) :
    (ofList entries).length = (entries.map Prod.fst).dedup.length := by
  have members : ∀ (start : Table α) key,
      key ∈ (entries.foldl (fun table entry => table.insert entry.1 entry.2) start).keys ↔
        key ∈ entries.map Prod.fst ∨ key ∈ start.keys := by
    induction entries with
    | nil => simp
    | cons entry rest ih =>
      intro start key
      rw [foldl_cons, ih, mem_keys_insert, map_cons, mem_cons]
      tauto
  have nodup : (ofList entries).keys.Nodup := by
    refine (pairwise_map.2 (sorted_ofList entries)).imp ?_
    rintro left right less rfl
    exact String.lt_irrefl _ less
  have same : (ofList entries).keys.Perm (entries.map Prod.fst).dedup := by
    rw [perm_ext_iff_of_nodup nodup (nodup_dedup _)]
    intro key
    rw [ofList, members, mem_dedup]
    simp [keys]
  rw [← same.length_eq, keys, length_map]

namespace Import

variable {context : Context ρ} {world after : World ρ} {files : List Path}
  {found : List (String × Json)} {kind : DefinitionKind} {stats result : ImportStats}
  {description : String}

theorem ignoresLog_disk (disk : Disk) : IgnoresLog fun world : World ρ => world.disk = disk :=
  fun _ _ _ same => same

/-! ## Definitions -/

/-- The identifier that a file is pushed under. -/
def definitionKey (disk : Disk) (file : Path) : Option String :=
  (readDefinition disk file).toOption.map Prod.fst

/-- The keys of the definitions of a kind, by file. -/
def definitionKeys (disk : Disk) (project : Path) (kind : DefinitionKind) : List (Option String) :=
  (disk.assetNames project kind.assetKind).map fun name =>
    definitionKey disk ((project.join kind.assetKind.directory).join name)

theorem listFiles_definitions (disk : Disk) (project : Path) (kind : DefinitionKind) :
    disk.listFiles (project.join kind.assetKind.directory) (some "json") =
      (disk.assetNames project kind.assetKind).map (project.join kind.assetKind.directory).join := by
  cases kind <;> exact listWhere_eq _ _ _

theorem definitionKeys_eq {disk : Disk} {project : Path}
    (read : (disk.listFiles (project.join kind.assetKind.directory) (some "json")).map
      (readDefinition disk) = found.map .ok) :
    definitionKeys disk project kind = (found.map Prod.fst).map some := by
  have keys := congrArg (List.map fun outcome => outcome.toOption.map Prod.fst) read
  rw [listFiles_definitions, map_map, map_map, map_map] at keys
  rw [map_map]
  exact keys

theorem pushKind_clean {progress final : Progress}
    (done : pushKind context kind progress world = (final, after)) (clean : final.failures = []) :
    progress.failures = [] ∧ after.disk = world.disk ∧
      final.stats.queued = progress.stats.queued ∧ ∀ other,
        final.stats.pushed.count other = progress.stats.pushed.count other +
          if other = kind.assetKind then
            (definitionKeys world.disk context.staging kind).dedup.length else 0 := by
  rcases pushKind_cases context kind progress world with
    ⟨away, same⟩ | ⟨-, between, answer, pushed, _, quiet, ran, noted, same⟩
  · cases done.symm.trans same
    have none : world.disk.assetNames context.staging kind.assetKind = [] :=
      if_neg (by simpa [Context.directory] using away)
    simp [clean, definitionKeys, none]
  · cases done.symm.trans same
    obtain ⟨clean, accepted⟩ := append_eq_nil_iff.1 clean
    obtain ⟨noFailure, noUnread⟩ := append_eq_nil_iff.1 clean
    have sameDisk := noted _ (ignoresLog_disk _) (congrArg (·.2.disk) ran.symm)
    refine ⟨noFailure, sameDisk.trans (quiet _ (ignoresLog_disk _) rfl), ?_⟩
    cases answer with
    | error cause => cases accepted
    | ok _ =>
      refine ⟨rfl, fun other => ?_⟩
      rw [definitionKeys_eq (map_readDefinition noUnread),
        dedup_map_of_injective (Option.some_injective _), length_map,
        ← Table.length_ofList]
      exact Counts.count_add _ _ _ _

/-- What a stage of an import does that succeeds: it leaves the disk and the count of what is
queued, and counts what it pushes. -/
structure Pushes (number : AssetKind → Nat) (before after : World ρ) (stats result : ImportStats) :
    Prop where
  disk : after.disk = before.disk
  queued : result.queued = stats.queued
  pushed : ∀ kind, result.pushed.count kind = stats.pushed.count kind + number kind

theorem pushKinds_clean {kinds : List DefinitionKind} {progress final : Progress}
    (done : pushKinds context progress kinds world = (final, after)) (clean : final.failures = []) :
    progress.failures = [] ∧ Pushes (fun other =>
      ((kinds.filter fun kind => kind.assetKind = other).map fun kind =>
        (definitionKeys world.disk context.staging kind).dedup.length).sum) world after
      progress.stats final.stats := by
  induction kinds generalizing progress world with
  | nil =>
    cases done
    exact ⟨clean, rfl, rfl, by simp⟩
  | cons kind rest ih =>
    cases first : pushKind context kind progress world with
    | mk next between =>
      rw [pushKinds, bind_of_eq first] at done
      obtain ⟨noLater, later⟩ := ih done
      obtain ⟨noFailure, sameDisk, sameQueued, counts⟩ := pushKind_clean first noLater
      refine ⟨noFailure, later.disk.trans sameDisk, later.queued.trans sameQueued, fun other => ?_⟩
      rw [later.pushed, counts, sameDisk, filter_cons]
      by_cases same : kind.assetKind = other
      · simp [same, Nat.add_assoc]
      · simp [same, Ne.symm same]

/-- Definitions are counted by their keys. -/
theorem pushDefinitions_ok (done : pushDefinitions context stats world = (.ok result, after)) :
    Pushes (fun other => ((DefinitionKind.importOrder.filter fun kind => kind.assetKind = other).map
      fun kind => (definitionKeys world.disk context.staging kind).dedup.length).sum) world after
      stats result := by
  obtain ⟨progress, ran, clean, rfl⟩ := settled_ok done
  exact (pushKinds_clean (always_ok ran) clean).2

/-! ## Policies and custom groups -/

theorem listFiles_policies (context : Context ρ) (disk : Disk) :
    disk.listFiles (context.directory .policy) (some "zip") =
      (disk.assetNames context.staging .policy).map (context.directory .policy).join :=
  listWhere_eq _ _ _

theorem listFiles_groups (context : Context ρ) (disk : Disk) :
    disk.listFiles (context.directory .customGroup) (some "json") =
      (disk.assetNames context.staging .customGroup).map (context.directory .customGroup).join :=
  listWhere_eq _ _ _

theorem pushPolicies_ok (done : pushPolicies context stats world = (.ok result, after)) :
    Pushes (fun other => if other = .policy then
      (world.disk.assetNames context.staging .policy).length else 0) world after stats result := by
  have sameDisk : (pushPolicies context stats world).2.disk = world.disk :=
    keeps_pushPolicies (ignoresLog_disk _) (fun _ _ _ _ same => same) stats world rfl
  rw [done] at sameDisk
  replace done := lookBind_eq done
  obtain ⟨report, ran, clean, rfl⟩ := settled_ok done
  have counted := (Batch.each_ok ran clean).1
  rw [listFiles_policies, length_map] at counted
  refine ⟨sameDisk, rfl, fun other => ?_⟩
  rw [ImportStats.addPushed, Counts.count_add, counted]

theorem pushGroups_ok (done : pushGroups context stats world = (.ok result, after)) :
    Pushes (fun other => if other = .customGroup then
      (world.disk.assetNames context.staging .customGroup).length else 0) world after stats
      result := by
  have sameDisk : (pushGroups context stats world).2.disk = world.disk :=
    keeps_pushGroups (ignoresLog_disk _) (fun _ _ _ _ same => same) stats world rfl
  rw [done] at sameDisk
  replace done := lookBind_eq done
  dsimp only at done
  split at done
  next away =>
    obtain ⟨rfl, rfl⟩ := pure_ok done
    have none : after.disk.assetNames context.staging .customGroup = [] :=
      if_neg (by simpa [Context.directory] using away)
    exact ⟨rfl, rfl, by simp [none]⟩
  · obtain ⟨policies, loaded, loading, done⟩ := exceptBind_ok done
    obtain ⟨report, ran, clean, rfl⟩ := settled_ok done
    have counted := (Batch.each_ok ran clean).1
    rw [listFiles_groups, length_map] at counted
    refine ⟨sameDisk, rfl, fun other => ?_⟩
    rw [ImportStats.addPushed, Counts.count_add, counted]

/-! ## Submitting and sharing -/

theorem Pushes.trans {number more : AssetKind → Nat} {first second third : World ρ}
    {between : ImportStats} (left : Pushes number first second stats between)
    (right : Pushes more second third between result) :
    Pushes (fun kind => number kind + more kind) first third stats result where
  disk := right.disk.trans left.disk
  queued := right.queued.trans left.queued
  pushed kind := by rw [right.pushed, left.pushed, Nat.add_assoc]

/-- Statistics in which only what is submitted and shared may differ. -/
def Uncounted (stats result : ImportStats) : Prop :=
  result.queued = stats.queued ∧ result.pushed = stats.pushed

theorem Uncounted.pushes (uncounted : Uncounted stats result) (same : after.disk = world.disk) :
    Pushes (fun _ => 0) world after stats result :=
  ⟨same, uncounted.1, fun _ => by rw [uncounted.2, Nat.add_zero]⟩

theorem frames_disk (channel : Channel ρ) (disk : Disk) :
    channel.Frames (·.disk = disk) (·.disk = disk) (·.disk = disk) (·.disk = disk) :=
  .of_keeps (fun _ same => same) fun _ same => same

theorem submit_ok (done : submit context stats world = (.ok result, after)) :
    Pushes (fun _ => 0) world after stats result := by
  have sameDisk := leads_submit (ignoresLog_disk world.disk) (ignoresLog_disk _)
    (fun _ same => same) (fun _ => frames_disk context.channel _) (fun _ same => same) stats world rfl
  rw [done] at sameDisk
  have uncounted : Yields (submit context stats) (Uncounted stats) :=
    yields_submit (fun _ same => same) ⟨rfl, rfl⟩
  exact (uncounted _ _ _ done).pushes sameDisk

theorem applySharing_ok (done : applySharing context stats world = (.ok result, after)) :
    Pushes (fun _ => 0) world after stats result := by
  have sameDisk := keeps_applySharing (ignoresLog_disk world.disk) (ignoresLog_disk _)
    (frames_disk context.channel _) (fun _ _ same => same) (fun _ _ _ same => same)
    (fun _ _ _ same => same) stats world rfl
  rw [done] at sameDisk
  have uncounted : Yields (applySharing context stats) (Uncounted stats) :=
    yields_applySharing (fun _ _ same => same) (fun _ _ same => same) ⟨rfl, rfl⟩
  exact (uncounted _ _ _ done).pushes sameDisk

end Import

end OpsContent
