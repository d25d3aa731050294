import OpsContent.Proofs.Identifiers
import OpsContent.Proofs.ImportStages
import OpsContent.Proofs.Projects

/-!
# Statistics of several packages

The statistics of an import of several packages are the sums of those of its packages.  Counts are
tables in which every key occurs once, so that merging them adds the counts key by key.
-/

namespace OpsContent

variable {ρ : Type}
variable {world after : World ρ}

/-! ## Sums of counts -/

namespace Counts

/-- The count under a key. -/
def under (counts : Counts) (key : String) : Nat :=
  (counts.find? key).getD 0

/-- The counts are those of the parts together. -/
def IsSum (counts : Counts) (parts : List Counts) : Prop :=
  ∀ key, counts.holds key = parts.any (·.holds key) ∧
    counts.under key = (parts.map (·.under key)).sum

theorem holds_merge (counts other : Counts) (key : String) :
    (counts.merge other).holds key = (counts.holds key || other.holds key) := by
  unfold merge
  induction other generalizing counts with
  | nil => simp [Table.holds]
  | cons entry rest ih =>
    rw [List.foldl_cons, ih]
    simp only [Table.holds, addKey, Table.find?_insert, Table.find?]
    by_cases same : key = entry.1
    · simp [same]
    · simp [same, Ne.symm same]

theorem under_merge (counts : Counts) {other : Counts} (sorted : other.Sorted) (key : String) :
    (counts.merge other).under key = counts.under key + other.under key := by
  unfold merge
  induction other generalizing counts with
  | nil => simp [Counts.under]
  | cons entry rest ih =>
    obtain ⟨above, sortedRest⟩ := List.pairwise_cons.1 sorted
    rw [List.foldl_cons, ih _ sortedRest]
    simp only [Counts.under, addKey, Table.find?_insert, Table.find?]
    by_cases same : key = entry.1
    · have absent : Table.find? rest key = none := Table.find?_eq_none_of_lt (same ▸ above)
      simp [same ▸ absent, same]
    · simp [same, Ne.symm same]

end Counts

namespace ImportStats

variable {stats : ImportStats} {parts : List ImportStats}

/-- Both tables of counts are in order. -/
structure Tidy (stats : ImportStats) : Prop where
  queued : stats.queued.Sorted
  pushed : stats.pushed.Sorted

/-- The statistics are the sums of others, field by field; something was submitted if one of them
submitted something. -/
structure IsSum (stats : ImportStats) (parts : List ImportStats) : Prop where
  queued : stats.queued.IsSum (parts.map (·.queued))
  pushed : stats.pushed.IsSum (parts.map (·.pushed))
  shared : stats.shared = (parts.map (·.shared)).sum
  unshared : stats.unshared = (parts.map (·.unshared)).sum
  submitted : stats.submitted = parts.any (·.submitted)

theorem Tidy.empty : Tidy {} :=
  ⟨List.Pairwise.nil, List.Pairwise.nil⟩

theorem Tidy.addQueued (tidy : stats.Tidy) (kind : AssetKind) (count : Nat) :
    (stats.addQueued kind count).Tidy :=
  ⟨tidy.queued.insert _ _, tidy.pushed⟩

theorem Tidy.addPushed (tidy : stats.Tidy) (kind : AssetKind) (count : Nat) :
    (stats.addPushed kind count).Tidy :=
  ⟨tidy.queued, tidy.pushed.insert _ _⟩

theorem isSum_foldl_merge (tidy : ∀ part ∈ parts, part.Tidy) (start : ImportStats) :
    (parts.foldl merge start).IsSum (start :: parts) := by
  induction parts using List.reverseRecOn with
  | nil => constructor <;> simp [Counts.IsSum]
  | append_singleton parts last ih =>
    have sum := ih fun part member => tidy part (by simp [member])
    have tidyLast := tidy last (by simp)
    rw [List.foldl_append, List.foldl_cons, List.foldl_nil]
    refine ⟨fun key => ⟨?_, ?_⟩, fun key => ⟨?_, ?_⟩, ?_, ?_, ?_⟩
    · rw [merge, Counts.holds_merge, (sum.queued key).1]
      simp [Bool.or_assoc]
    · rw [merge, Counts.under_merge _ tidyLast.queued, (sum.queued key).2]
      simp [Nat.add_assoc]
    · rw [merge, Counts.holds_merge, (sum.pushed key).1]
      simp [Bool.or_assoc]
    · rw [merge, Counts.under_merge _ tidyLast.pushed, (sum.pushed key).2]
      simp [Nat.add_assoc]
    · simp [merge, sum.shared, Nat.add_assoc]
    · simp [merge, sum.unshared, Nat.add_assoc]
    · simp [merge, sum.submitted, Bool.or_assoc]

theorem IsSum.of_empty (sum : stats.IsSum ({} :: parts)) : stats.IsSum parts := by
  refine ⟨fun key => ?_, fun key => ?_, ?_, ?_, ?_⟩
  · simpa [Table.holds, Counts.under] using sum.queued key
  · simpa [Table.holds, Counts.under] using sum.pushed key
  · simpa using sum.shared
  · simpa using sum.unshared
  · simpa using sum.submitted

end ImportStats

/-! ## Statistics of one package -/

namespace Import

variable {context : Context ρ}

theorem keptByDelivery_tidy : KeptByDelivery ImportStats.Tidy where
  submitted _ tidy := ⟨tidy.queued, tidy.pushed⟩
  pushed _ _ _ tidy := tidy.addPushed _ _
  shared _ _ tidy := ⟨tidy.queued, tidy.pushed⟩
  unshared _ _ tidy := ⟨tidy.queued, tidy.pushed⟩

theorem yields_importAll : Yields (importAll context) ImportStats.Tidy := by
  rw [importAll_eq_deliver]
  have queued : Yields (enqueueKinds context {} ChannelKind.all) ImportStats.Tidy :=
    yields_enqueueKinds (fun _ _ _ tidy => tidy.addQueued _ _) .empty _
  refine .andThenWith queued fun stats tidy => ?_
  split
  · exact .succeed tidy
  · exact keptByDelivery_tidy.deliver tidy

end Import

namespace Synchronizer

variable {synchronizer : Synchronizer ρ} {dryRun : Bool} {packages : List Package}

theorem yields_importPackage (package : Package) :
    Yields (synchronizer.importPackage package dryRun) ImportStats.Tidy := by
  refine .andThen fun _ world stats after done => ?_
  obtain ⟨base, last, -, worked, -⟩ := withScratch_ok done
  obtain ⟨_, unpacked, -, concluded⟩ := exceptBind_ok worked
  exact Yields.concluding Import.yields_importAll _ _ _ concluded

/-! ## Packages one after another -/

/-- Packages are imported one after another, each with the statistics that stand at its place. -/
inductive Imports (synchronizer : Synchronizer ρ) (dryRun : Bool) :
    World ρ → List Package → List ImportStats → World ρ → Prop where
  | nil (world : World ρ) : Imports synchronizer dryRun world [] [] world
  | cons {world between after : World ρ} {package : Package} {stats : ImportStats}
      {rest : List Package} {others : List ImportStats}
      (first : synchronizer.importPackage package dryRun world = (.ok stats, between))
      (later : Imports synchronizer dryRun between rest others after) :
      Imports synchronizer dryRun world (package :: rest) (stats :: others) after

theorem Imports.tidy {results : List ImportStats}
    (imports : synchronizer.Imports dryRun world packages results after) :
    ∀ stats ∈ results, stats.Tidy := by
  induction imports with
  | nil => simp
  | cons first later ih =>
    intro stats member
    rcases List.mem_cons.1 member with rfl | inRest
    · exact yields_importPackage _ _ _ _ first
    · exact ih stats inRest

/-- Statistics are merged package by package. -/
theorem importEach_ok {total stats : ImportStats}
    (done : synchronizer.importEach dryRun total packages world = (.ok stats, after)) :
    ∃ results, synchronizer.Imports dryRun world packages results after ∧
      stats = results.foldl ImportStats.merge total := by
  induction packages generalizing total world with
  | nil =>
    obtain ⟨rfl, rfl⟩ := pure_ok done
    exact ⟨[], .nil _, rfl⟩
  | cons package rest ih =>
    obtain ⟨first, between, imported, others⟩ := exceptBind_ok done
    obtain ⟨results, later, sum⟩ := ih others
    exact ⟨first :: results, .cons imported later, sum⟩

/-- An import of several packages that succeeds has imported each of them, and counts what they
count together. -/
theorem importPackages_ok {stats : ImportStats}
    (done : synchronizer.importPackages packages dryRun world = (.ok stats, after)) :
    ∃ results, synchronizer.Imports dryRun world packages results after ∧ stats.IsSum results := by
  replace done := lookBind_eq done
  cases first : packages.find? fun package => !world.disk.pathExists package.path with
  | some missing =>
    rw [first] at done
    cases done
  | none =>
    rw [first] at done
    obtain ⟨results, imports, rfl⟩ := importEach_ok done
    exact ⟨results, imports, (ImportStats.isSum_foldl_merge imports.tidy {}).of_empty⟩

theorem importPackages_missing {missing : Package} (member : missing ∈ packages)
    (absent : world.disk.pathExists missing.path = false) :
    ∃ package ∈ packages, world.disk.pathExists package.path = false ∧
      synchronizer.importPackages packages dryRun world =
        (.error (.packageNotFound package.path), world) := by
  have found : (packages.find? fun package => !world.disk.pathExists package.path).isSome := by
    rw [List.find?_isSome]
    exact ⟨missing, member, by simp [absent]⟩
  obtain ⟨package, isFirst⟩ := Option.isSome_iff_exists.1 found
  refine ⟨package, List.mem_of_find?_eq_some isFirst, by simpa using List.find?_some isFirst, ?_⟩
  rw [importPackages, exceptBind_of_ok (show World.look world = (.ok world.disk, world) from rfl),
    isFirst]
  rfl

end Synchronizer

end OpsContent
