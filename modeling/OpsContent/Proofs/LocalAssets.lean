import OpsContent.Proofs.AssetLayouts
import OpsContent.Status

/-!
# Assets in a directory

The assets of a kind that a project holds are the entries of the kind's directory that count.  They
are the same wherever the paths in the project lead to the same.
-/

namespace OpsContent

open OpsContent.Path

theorem AssetKind.isEntry_below (kind : AssetKind) {name : String} (entry : IsEntry name) :
    ∀ one ∈ [kind.directory, name], IsEntry one := by
  simpa using ⟨kind.isEntry_directory, entry⟩

namespace Disk

variable {disk before after : Disk} {directory source destination : Path} {name : String}
  {kind : AssetKind}

/-- Is the path an asset of the kind? -/
def isAsset (disk : Disk) (kind : AssetKind) (path : Path) : Bool :=
  match kind with
  | .report => disk.isDirectory path
  | .view => disk.isFile path && path.hasExtension "xml"
  | .policy => disk.isFile path && path.hasExtension "zip"
  | .metricConfig => disk.isFile path
  | .dashboard =>
    disk.isFile path && path.hasExtension "json" && path.fileName? ≠ some Sharing.fileName
  | _ => disk.isFile path && path.hasExtension "json"

theorem isAsset_join (kind : AssetKind) (entry : IsEntry name) :
    disk.isAsset kind (directory.join name) =
      (disk.node? (directory.join name)).any (kind.counts name) := by
  have extension : ∀ extension, (directory.join name).hasExtension extension =
      namedWith name extension := hasExtension_join directory entry
  have fileName := fileName?_join directory entry
  cases found : disk.node? (directory.join name) with
  | none => cases kind <;> simp [isAsset, isFile, isDirectory, found]
  | some node =>
    cases node <;> cases kind <;>
      simp [isAsset, isFile, isDirectory, found, AssetKind.counts, Node.isFile, extension, fileName]

/-- The names of the assets in the directory of a kind. -/
def assetNames (disk : Disk) (project : Path) (kind : AssetKind) : List String :=
  if disk.isDirectory (project.join kind.directory) then
    (disk.children (disk.place (project.join kind.directory))).filter fun name =>
      disk.isAsset kind ((project.join kind.directory).join name)
  else []

theorem localCount_eq (disk : Disk) (project : Path) (kind : AssetKind) :
    disk.localCount project kind = (disk.assetNames project kind).length := by
  have listed : (disk.listWhere (project.join kind.directory) (disk.isAsset kind)).length =
      (disk.assetNames project kind).length := by
    rw [listWhere_eq, List.length_map]
    rfl
  rw [← listed]
  cases kind with
  | dashboard =>
    rw [localCount, listFiles, listWhere_eq, listWhere_eq, List.filter_map, List.length_map,
      List.length_map]
    split
    · rw [List.filter_filter]
      congr 2
      funext name
      simp [isAsset, Bool.and_comm, bne, beq_eq_decide]
    · rfl
  | metricConfig =>
    change (disk.listWhere _ fun path => disk.isFile path && true).length =
      (disk.listWhere _ fun path => disk.isFile path).length
    simp
  | _ => rfl

/-- The assets of a kind are the entries that count. -/
theorem mem_assetNames_iff (named : disk.NamedBelow (disk.place directory)) :
    name ∈ disk.assetNames directory kind ↔ IsEntry name ∧ ∃ node,
      disk.node? ((directory.join kind.directory).join name) = some node ∧
        kind.counts name node := by
  have below := named.append [kind.directory]
  rw [← place_join disk directory kind.isEntry_directory] at below
  have notBlank := pieces_join_ne_blank directory kind.isEntry_directory
  unfold assetNames
  constructor
  · intro member
    split at member
    next stands =>
      obtain ⟨listed, isAsset⟩ := List.mem_filter.1 member
      have entry := isEntry_of_mem_children below listed
      rw [isAsset_join kind entry] at isAsset
      obtain ⟨node, found, counts⟩ := (Option.any_eq_true _ _).1 isAsset
      exact ⟨entry, node, found, counts⟩
    · cases member
  · rintro ⟨entry, node, found, counts⟩
    rw [if_pos (isDirectory_of_node?_join entry notBlank found), List.mem_filter,
      isAsset_join kind entry, found]
    refine ⟨?_, counts⟩
    have there := get?_of_node? found
    rw [place_join disk _ entry] at there
    exact mem_children_iff.2 (Option.isSome_iff_exists.2 ⟨node, there⟩)

theorem sorted_assetNames (disk : Disk) (project : Path) (kind : AssetKind) :
    (disk.assetNames project kind).Pairwise (· < ·) := by
  unfold assetNames
  split
  · exact (sorted_children disk _).filter _
  · exact .nil

theorem assetNames_congr (named : before.NamedBelow (before.place source))
    (namedAfter : after.NamedBelow (after.place destination))
    (same : ∀ name, IsEntry name →
      after.node? ((destination.join kind.directory).join name) =
        before.node? ((source.join kind.directory).join name)) :
    after.assetNames destination kind = before.assetNames source kind := by
  apply eq_of_sorted (sorted_assetNames _ _ _) (sorted_assetNames _ _ _)
  intro name
  rw [mem_assetNames_iff namedAfter, mem_assetNames_iff named]
  refine and_congr_right fun entry => ?_
  rw [same name entry]

theorem mem_assetNames_of_shelf {assets : String → Option Bytes} {entry : String}
    (named : disk.NamedBelow (disk.place directory))
    (shelf : Shelf kind.shelving (directory.join kind.directory) assets disk) :
    entry ∈ disk.assetNames directory kind ↔
      ∃ name, (assets name).isSome ∧ entry = kind.entry name := by
  rw [mem_assetNames_iff named]
  constructor
  · rintro ⟨isEntry, node, found, counts⟩
    refine shelf.only entry node ?_ counts
    rw [← place_join disk _ isEntry]
    exact get?_of_node? found
  · rintro ⟨name, isAsset, rfl⟩
    exact ⟨shelf.entries name isAsset, shelf.counted name isAsset⟩

end Disk

end OpsContent
