import Mathlib.Data.List.Dedup
import OpsContent.Proofs.ExportEscapes
import OpsContent.Proofs.NotedServers

/-!
# What becomes of matched assets

Definitions, policies and custom groups are counted by the asset and written by the name.  Assets of
one name share a file, which holds the last of them, so an export loses no asset exactly if assets of
one name are the same, and writes as many files as it counts exactly if names are different.
-/

namespace OpsContent

open OpsContent.Path Disk Export

variable {ρ : Type}

theorem length_dedup_map_iff {α β : Type} [DecidableEq β] {change : α → β}
    (injective : Function.Injective change) (values : List α) :
    (values.map change).dedup.length = values.length ↔ values.Nodup := by
  rw [← List.nodup_map_iff injective, ← List.dedup_eq_self]
  constructor
  · intro same
    exact (List.dedup_sublist _).eq_of_length (same.trans (List.length_map _).symm)
  · intro same
    rw [same, List.length_map]

namespace Synchronizer

/-- What an export makes of definitions, policies and custom groups that match a pattern.  Each is
counted.  The file of a name holds the last asset of the name, so every asset has its content in the
file of its name exactly if assets of one name have the same content.  Beside the sidecar, no other
file of the directory has changed, and as many files were written as assets were counted exactly if
their names are different. -/
theorem exportPackage_keeps_matched {synchronizer : Synchronizer ρ} {package : Package}
    {descriptor : Descriptor} {log : ρ → List Delivery} {offer : Offer} {world after : World ρ}
    {stats : ExportStats} (setting : synchronizer.ExportSetting package descriptor log offer world)
    (regular : ∀ added, log after.site.remote = log world.site.remote ++ added →
      ∀ delivery ∈ added, delivery.Regular)
    (done : synchronizer.exportPackage package descriptor false world = (.ok stats, after))
    {kind : AssetKind} (queried : kind.isQueried = true) {patterns : List String}
    (isAsked : descriptor.patterns kind = some patterns) :
    stats.assets.count kind = (offer.matched kind patterns).length ∧
      (∀ name ∈ offer.selected kind patterns, ∃ content,
        lastUnder (offer.matched kind patterns) name = some content ∧
          after.disk.readFile ((package.path.join kind.directory).join (kind.entry name)) =
            .ok content) ∧
      ((∀ file ∈ offer.matched kind patterns,
          after.disk.readFile ((package.path.join kind.directory).join (kind.entry file.1)) =
            .ok file.2) ↔
        ∀ file ∈ offer.matched kind patterns, ∀ other ∈ offer.matched kind patterns,
          file.1 = other.1 → file.2 = other.2) ∧
      ∃ written : List String, written.Nodup ∧
        (∀ entry, entry ∈ written ↔ ∃ name ∈ offer.selected kind patterns, kind.entry name = entry) ∧
        (∀ entry bytes, entry ∉ written → kind.sidecar ≠ some entry →
          (world.disk.get? (world.disk.place package.path ++ [kind.directory, entry]) =
              some (.file bytes) ∨
            after.disk.get? (world.disk.place package.path ++ [kind.directory, entry]) =
              some (.file bytes)) →
          after.disk.get? (world.disk.place package.path ++ [kind.directory, entry]) =
            world.disk.get? (world.disk.place package.path ++ [kind.directory, entry])) ∧
        (written.length = stats.assets.count kind ↔ (offer.selected kind patterns).Nodup) := by
  obtain ⟨counts, added, fulfils, logged, brings⟩ := exportPackage_delivers setting done
  obtain ⟨workspace, staged, stands, -, stock, overlaid⟩ :=
    brings (Delivery.regular_of_carried (regular _ logged))
  have arrived := stock.arrived stands overlaid
  have isKind : kind ∈ AssetKind.all := by cases kind <;> decide
  have delivers := fulfils.delivers kind isKind patterns isAsked
  obtain ⟨notReport, notConfig, noTexts, whole⟩ := AssetKind.sort_of_isQueried queried
  -- the file of a name holds the last asset of the name
  have held : ∀ name content, lastUnder (offer.matched kind patterns) name = some content →
      after.disk.readFile ((package.path.join kind.directory).join (kind.entry name)) =
        .ok content := by
    intro name content isLast
    rw [← Delivery.assets_of_files (delivers.files queried) whole] at isLast
    have inner : kind.shelving.inner = [] := AssetKind.inner_eq_nil notReport
    have here := arrived.held kind name content isLast
    rwa [Shelving.file, inner, extend_nil] at here
  have number : (offer.selected kind patterns).length = (offer.matched kind patterns).length := by
    rw [← offer.map_matched queried, List.length_map]
  have count : stats.assets.count kind = (offer.matched kind patterns).length := by
    rw [counts, offer.number_of_asked isAsked, number]
  refine ⟨count, ?_, ⟨?_, ?_⟩, ((offer.selected kind patterns).map kind.entry).dedup,
    List.nodup_dedup _, by simp, ?_, ?_⟩
  · intro name isSelected
    rw [← offer.map_matched queried] at isSelected
    obtain ⟨file, member, rfl⟩ := List.mem_map.1 isSelected
    obtain ⟨other, -, -, isLast⟩ := lastUnder_of_mem member
    exact ⟨other.2, isLast, held _ _ isLast⟩
  · intro kept file member other otherMember sameName
    have read := kept file member
    rw [sameName, kept other otherMember] at read
    exact (Except.ok.inj read).symm
  · intro same file member
    obtain ⟨other, otherMember, sameName, isLast⟩ := lastUnder_of_mem member
    rw [same file member other otherMember sameName.symm]
    exact held _ _ isLast
  · intro entry bytes notWritten notSidecar isFile
    rcases arrived.elsewhere (world.disk.place package.path ++ [kind.directory, entry]) with
      same | ⟨none, directory⟩ | ⟨other, place, here, otherAsked, which⟩
    · exact same
    · rw [none, directory] at isFile
      rcases isFile with absurdity | absurdity <;> cases absurdity
    · obtain ⟨sameDirectory, rfl⟩ := List.cons.inj (List.append_cancel_left here)
      obtain rfl := AssetKind.directory_injective sameDirectory
      exfalso
      rcases which with (⟨texts, -⟩ | ⟨file, isSidecar, isFile⟩) | ⟨delivery, member, rfl, hasPart⟩
      · rw [noTexts] at texts
        cases texts
      · rw [(List.cons.inj isFile).1] at notSidecar
        exact notSidecar isSidecar
      · apply notWritten
        have isName : delivery.name ∈ offer.selected delivery.kind patterns := by
          rw [← delivers.names notConfig]
          exact List.mem_map.2 ⟨delivery, by simp [member], rfl⟩
        rw [AssetKind.HasPart, if_neg notReport] at hasPart
        rw [(List.cons.inj hasPart).1, List.mem_dedup]
        exact List.mem_map_of_mem isName
  · rw [count, ← number]
    exact length_dedup_map_iff (fun _ _ => kind.entry_injective) _

/-- Two symptom definitions of one name. -/
def twinSymptoms : Scripted.Answers where
  definitions := fun
    | .symptom => [⟨"cpu", some "1", .object [("id", .string "1"), ("name", .string "cpu")]⟩,
        ⟨"cpu", some "2", .object [("id", .string "2"), ("name", .string "cpu")]⟩]
    | _ => []

/-- What an export of the twins comes to. -/
def exportTwins : Except SyncError ExportStats × World (Recorded Delivery Scripted.Memory) :=
  (Scripted.noted twinSymptoms {}).exportPackage bareProject symptomDescriptor false
    (Scripted.start [(["work"], .directory)])

theorem outcome_exportTwins :
    exportTwins.1 = .ok { assets := [("symptomDefinition", 2)], written := true } ∧
      exportTwins.2.disk.children ["work", "symptom_definitions"] = ["cpu.json"] ∧
      exportTwins.2.site.remote.record = [] := by
  decide +kernel

/-- Two symptom definitions are counted, and one file is there, which holds the second. -/
theorem exportPackage_drops_twin :
    exportTwins.1 = .ok { assets := [("symptomDefinition", 2)], written := true } ∧
      exportTwins.2.disk.children ["work", "symptom_definitions"] = ["cpu.json"] :=
  ⟨outcome_exportTwins.1, outcome_exportTwins.2.1⟩

theorem exportSetting_twins :
    (Scripted.noted twinSymptoms {}).ExportSetting bareProject symptomDescriptor Recorded.record
      twinSymptoms.offer (Scripted.start [(["work"], .directory)]) :=
  Scripted.exportSetting nofun (Descriptor.forall_asked (by decide)) (by decide) (by decide)
    (by decide) (fun kind => by cases kind <;> decide)

/-- The file of the twins holds the second one, so not every twin has its content there. -/
theorem exportPackage_keeps_matched_twins :
    (∃ content, lastUnder (twinSymptoms.offer.matched .symptomDefinition ["*"]) "cpu" =
        some content ∧ exportTwins.2.disk.readFile ((bareProject.path.join
          AssetKind.symptomDefinition.directory).join (AssetKind.symptomDefinition.entry "cpu")) =
            .ok content) ∧
      ¬ ∀ file ∈ twinSymptoms.offer.matched .symptomDefinition ["*"],
        exportTwins.2.disk.readFile ((bareProject.path.join
          AssetKind.symptomDefinition.directory).join (AssetKind.symptomDefinition.entry file.1)) =
            .ok file.2 := by
  obtain ⟨succeeds, -, delivered⟩ := outcome_exportTwins
  have done := eq_mk_of_fst_eq succeeds
  have regular : ∀ delivery ∈ exportTwins.2.site.remote.record, delivery.Regular := by
    simp [delivered]
  have isAsked : symptomDescriptor.patterns .symptomDefinition = some ["*"] := by decide
  obtain ⟨-, held, kept, -⟩ :=
    exportPackage_keeps_matched exportSetting_twins (Scripted.forall_logged regular) done rfl isAsked
  refine ⟨held "cpu" (by decide), ?_⟩
  rw [kept]
  decide

end Synchronizer

end OpsContent
