import OpsContent.Export.Stage
import OpsContent.Proofs.Listings
import OpsContent.Proofs.Zone
import OpsContent.Staging.Workspace

/-!
# What keeps to a zone

Every change of the disk at an admitted place keeps to the zone, so every operation on enclosed
paths does, and so does everything that is made of such operations: unpacking an archive,
merging texts, copying a tree.
-/

namespace OpsContent

open OpsContent.Path Staging Disk

/-! ## Rules for writing -/

namespace Disk

theorem keeps_attempt {invariant : Disk → Prop} {operation : Disk → Except IoError Disk}
    (kept : ∀ disk after, invariant disk → operation disk = .ok after → invariant after) :
    Keeps invariant (attempt operation) := by
  intro disk holds
  unfold attempt
  split
  next after done => exact kept disk after holds done
  · exact holds

/-- Directories and files may be made at certain paths, and at all paths on from them that do not
climb, with the property kept. -/
structure WriteRules (invariant : Disk → Prop) (may : Path → Prop) : Prop where
  directories : ∀ {path}, may path → Keeps invariant (makeDirectories path)
  parents : ∀ {path}, may path → Keeps invariant (makeParents path)
  files : ∀ {path change disk after}, may path → invariant disk →
    updateFile change path disk = .ok after → invariant after
  inner : ∀ {path name}, may path → StaysWithin 0 name → may (path.join name)

namespace WriteRules

variable {invariant : Disk → Prop} {may : Path → Prop} (rules : WriteRules invariant may)
  {path : Path}

include rules

theorem keeps_writeFile (allowed : may path) (content : Bytes) :
    Keeps invariant (attempt (writeFile path content)) :=
  keeps_attempt fun _ _ holds done => rules.files allowed holds done

theorem keeps_copyFile (allowed : may path) (source : Path) :
    Keeps invariant (attempt (copyFile source path)) := by
  refine keeps_attempt fun _ _ holds done => ?_
  obtain ⟨content, -, written⟩ := copyFile_ok done
  exact rules.files allowed holds written

/-- Trees may be copied if the names that are listed on the way are proper ones. -/
theorem copyRules {reads : Path → Prop} (listed : ∀ source disk names, reads source →
      invariant disk → disk.listNames source = .ok names →
        ∀ name ∈ names, IsEntry name ∧ reads (source.join name)) :
    CopyRules invariant fun source destination => reads source ∧ may destination where
  directories _ _ pair := rules.directories pair.2
  parents _ _ pair := rules.parents pair.2
  files source _ pair := rules.keeps_copyFile pair.2 source
  names source _ disk names pair holds isListed name member := by
    obtain ⟨entry, later⟩ := listed source disk names pair.1 holds isListed name member
    exact ⟨later, rules.inner pair.2 entry.staysWithin⟩

end WriteRules

theorem keeps_archiveStep {α : Type} {invariant : Disk → Prop} {steps : DiskAction α}
    (kept : Keeps invariant steps) : Keeps invariant (Staging.onDisk steps) := by
  apply kept.of_same
  intro disk
  unfold Staging.onDisk
  split <;> simp_all

end Disk

theorem Zone.staysWithin_of_isEnclosed {name : String} (enclosed : isEnclosed name) :
    StaysWithin 0 name := by
  simp only [isEnclosed, Bool.and_eq_true, Bool.not_eq_true'] at enclosed
  exact ⟨enclosed.1.2, enclosed.2⟩

namespace Disk.WriteRules

variable {invariant : Disk → Prop} {may : Path → Prop} (rules : WriteRules invariant may)
  {path : Path}

include rules

theorem keeps_extractEntry (allowed : may path) (bytes : Bytes) (header : Zip.Header) :
    Keeps invariant (extractEntry bytes path header) := by
  unfold extractEntry
  refine .andThen (.settle _) fun data => ?_
  cases enclosed : isEnclosed header.name with
  | false => split <;> exact fun _ holds => holds
  | true =>
    have inside := rules.inner allowed (Zone.staysWithin_of_isEnclosed enclosed)
    split
    · exact keeps_archiveStep (rules.directories inside)
    · refine .andThen Keeps.get fun disk => ?_
      have parents := rules.parents inside
      have written := fun content => keeps_archiveStep (rules.keeps_writeFile inside content)
      unfold makeParents at parents
      dsimp only
      split
      next parent found =>
        rw [found] at parents
        split
        · refine .andThen (keeps_archiveStep parents) fun _ => ?_
          refine .andThen (written _) fun _ => ?_
          split <;> exact fun _ holds => holds
        · refine .andThen (written _) fun _ => ?_
          split <;> exact fun _ holds => holds
      · refine .andThen (written _) fun _ => ?_
        split <;> exact fun _ holds => holds

theorem keeps_extractAll (allowed : may path) (bytes : Bytes) :
    Keeps invariant (extractAll bytes path) := by
  refine .andThen (.settle _) fun headers => ?_
  exact .forM headers fun header _ => rules.keeps_extractEntry allowed bytes header

end Disk.WriteRules

namespace Zone

variable {zone : Zone} {disk after : Disk} {path : Path} {location : Location} {depth : Nat}
  {source : Path}

/-! ## Changes -/

theorem Contains.isBelow_eq_false {other : Location} (contains : zone.Contains location)
    (outside : ¬ zone.Contains other) : isBelow location other = false := by
  rw [← Bool.not_eq_true]
  intro below
  obtain ⟨more, rfl⟩ := isBelow_iff.1 below
  obtain ⟨rest, notEmpty, rfl⟩ := contains
  exact outside ⟨rest ++ more, by simp [notEmpty], by simp⟩

section

variable (holds : zone.Holds disk)

include holds

theorem Holds.put (admits : zone.Admits location) (node : Node) :
    zone.Holds (disk.put location node) := by
  have inside := admits.contains.ne_nil
  refine ⟨holds.current, ?_, ?_⟩
  · intro other outside
    rw [get?_put _ _ _ _ inside, if_neg]
    · exact holds.outside other outside
    · rintro rfl
      exact outside admits.contains
  · intro rest stands
    rw [get?_put _ _ _ _ inside] at stands
    split at stands
    next same =>
      obtain ⟨names, -, entries, rfl⟩ := admits
      rw [List.append_cancel_left same]
      exact entries
    · exact holds.entries rest stands

theorem Holds.of_fewer (current : after.current = disk.current)
    (outside : ∀ other, ¬ zone.Contains other → after.get? other = disk.get? other)
    (fewer : ∀ other, (after.get? other).isSome → (disk.get? other).isSome) :
    zone.Holds after := by
  refine ⟨current.trans holds.current, ?_, ?_⟩
  · intro other away
    rw [outside other away]
    exact holds.outside other away
  · intro rest stands
    exact holds.entries rest (fewer _ stands)

theorem Holds.remove (contains : zone.Contains location) : zone.Holds (disk.remove location) := by
  have inside := contains.ne_nil
  refine Holds.of_fewer holds ?_ ?_ ?_
  · rfl
  · intro other outside
    rw [get?_remove _ _ _ inside, if_neg]
    rintro rfl
    exact outside contains
  · intro other stands
    rw [get?_remove _ _ _ inside] at stands
    split at stands
    · simp at stands
    · exact stands

theorem Holds.removeBelow (contains : zone.Contains location) :
    zone.Holds (disk.removeBelow location) := by
  have inside := contains.ne_nil
  refine Holds.of_fewer holds ?_ ?_ ?_
  · rfl
  · intro other outside
    rw [get?_removeBelow _ _ _ inside, contains.isBelow_eq_false outside]
    rfl
  · intro other stands
    rw [get?_removeBelow _ _ _ inside] at stands
    split at stands
    · simp at stands
    · exact stands

theorem Holds.relocate {source destination : Location} (leaves : zone.Contains source)
    (admits : zone.Admits destination) : zone.Holds (disk.relocate source destination) := by
  have inside := admits.contains.ne_nil
  refine ⟨holds.current, ?_, ?_⟩
  · intro other outside
    rw [get?_relocate _ leaves.ne_nil inside, admits.contains.isBelow_eq_false outside,
      leaves.isBelow_eq_false outside]
    exact holds.outside other outside
  · intro rest stands
    rw [get?_relocate _ leaves.ne_nil inside, get?_removeBelow _ _ _ inside] at stands
    split at stands
    next below =>
      -- Below the new place the names are those of the new place and those of the old entry.
      obtain ⟨more, whole⟩ := isBelow_iff.1 below
      rw [← whole, List.drop_left] at stands
      have stood : (disk.get? (source ++ more)).isSome := by
        split at stands
        · cases stands
        · exact stands
      obtain ⟨old, -, rfl⟩ := leaves
      obtain ⟨new, -, entries, rfl⟩ := admits
      rw [List.append_assoc] at stood whole
      have same := List.append_cancel_left whole
      intro name member
      rw [← same] at member
      rcases List.mem_append.1 member with early | late
      · exact entries name early
      · exact holds.entries _ stood name (by simp [late])
    · split at stands
      · cases stands
      · exact holds.entries rest stands

theorem Holds.of_opensOnly {way : Location → Prop} (opens : Disk.OpensOnly way disk after)
    (along : ∀ other, way other → (disk.get? other).isSome ∨ zone.Admits other) :
    zone.Holds after := by
  have made : ∀ other, after.get? other = disk.get? other ∨ zone.Admits other := by
    intro other
    rcases opens.nodes other with same | ⟨onWay, free, -⟩
    · exact Or.inl same
    · rcases along other onWay with stands | admits
      · simp [free] at stands
      · exact Or.inr admits
  refine ⟨opens.current.trans holds.current, ?_, ?_⟩
  · intro other outside
    rcases made other with same | admits
    · rw [same]
      exact holds.outside other outside
    · exact absurd admits.contains outside
  · intro rest stands
    rcases made (zone.top ++ rest) with same | ⟨names, -, entries, equal⟩
    · rw [same] at stands
      exact holds.entries rest stands
    · rw [List.append_cancel_left equal]
      exact entries

/-! ## Operations -/

end

/-- Directories may be made inside. -/
theorem keeps_makeDirectories (encloses : zone.Encloses depth path) :
    Keeps zone.Holds (makeDirectories path) := by
  intro disk holds
  exact holds.of_opensOnly (makeDirectories_opensOnly path disk)
    fun other onWay => encloses.onWay holds onWay

theorem keeps_makeParents (encloses : zone.Encloses depth path) :
    Keeps zone.Holds (makeParents path) := by
  intro disk holds
  exact holds.of_opensOnly (makeParents_opensOnly path disk)
    fun other above => encloses.onWay holds above.onWay

section

variable (holds : zone.Holds disk)

include holds

theorem Holds.updateFile {change : Bytes → Bytes} (encloses : zone.Encloses 0 path)
    (done : updateFile change path disk = .ok after) : zone.Holds after := by
  obtain ⟨-, notDirectory, content, rfl⟩ := updateFile_ok done
  exact holds.put ((encloses.deepen holds notDirectory).admits holds.current) _

/-- A file inside may be removed. -/
theorem Holds.removeFile (encloses : zone.Encloses 0 path)
    (done : removeFile path disk = .ok after) : zone.Holds after := by
  obtain ⟨-, notDirectory, rfl⟩ := removeFile_ok done
  exact holds.remove ((encloses.deepen holds notDirectory).admits holds.current).contains

theorem Holds.removeTree (encloses : zone.Encloses 1 path)
    (done : removeTree path disk = .ok after) : zone.Holds after := by
  obtain ⟨-, rfl⟩ := removeTree_ok done
  exact holds.removeBelow (encloses.admits holds.current).contains

theorem Holds.rename (leaves : zone.Encloses 1 source) (encloses : zone.Encloses 1 path)
    (done : rename source path disk = .ok after) : zone.Holds after := by
  obtain ⟨-, -, slash, moved⟩ := rename_ok done
  have inside := (leaves.admits holds.current).contains
  have admits := encloses.admits holds.current
  rcases moveEntry_ok moved with rfl | ⟨content, -, rfl⟩ | rfl
  · exact holds
  · exact (holds.remove inside).put admits _
  · exact holds.relocate inside admits

end

theorem writeRules (zone : Zone) : WriteRules zone.Holds (zone.Encloses 0) where
  directories := keeps_makeDirectories
  parents := keeps_makeParents
  files encloses holds done := holds.updateFile encloses done
  inner encloses stays := encloses.join stays

theorem keeps_replaceFile (encloses : zone.Encloses 1 path) (content : Bytes) :
    Keeps zone.Holds (replaceFile path content) := by
  unfold replaceFile
  apply Keeps.andThen (keeps_makeParents encloses)
  intro _
  apply Keeps.andThen (zone.writeRules.keeps_writeFile (encloses.draft.mono (Nat.zero_le 1)) content)
  intro _
  exact keeps_attempt fun _ _ holds done => holds.rename encloses.draft encloses done

theorem keeps_moveFile (leaves : zone.Encloses 1 source) (encloses : zone.Encloses 1 path) :
    Keeps zone.Holds (moveFile source path) := by
  unfold moveFile
  apply Keeps.andThen (keeps_makeParents encloses)
  intro _ disk holds
  dsimp only
  split
  next after done => exact holds.rename leaves encloses done
  · refine Keeps.andThen ?_ ?_ disk holds
    · exact zone.writeRules.keeps_copyFile (encloses.mono (Nat.zero_le 1)) source
    · intro _
      exact keeps_attempt fun _ _ holds done =>
        holds.removeFile (leaves.mono (Nat.zero_le 1)) done

/-! ## Trees and archives -/

theorem Holds.isEntry_of_listed (holds : zone.Holds disk) (encloses : zone.Encloses depth path)
    {names : List String} (listed : disk.listNames path = .ok names) :
    ∀ name ∈ names, IsEntry name := by
  intro name member
  have stands := isSome_of_mem_listNames listed member
  obtain ⟨rest, -, -, placed⟩ := encloses.reached holds.current
  rw [placed, List.append_assoc] at stands
  exact holds.entries _ stands name (by simp)

theorem keeps_copyTree (reads : zone.Encloses 0 source) (encloses : zone.Encloses 0 path) :
    Keeps zone.Holds (copyTree source path) :=
  (zone.writeRules.copyRules fun _ _ _ reads holds listed name member =>
    have entry := holds.isEntry_of_listed reads listed name member
    ⟨entry, reads.join entry.staysWithin⟩).keeps_copyTree ⟨reads, encloses⟩

theorem keeps_extractAll (encloses : zone.Encloses 0 path) (bytes : Bytes) :
    Keeps zone.Holds (extractAll bytes path) :=
  zone.writeRules.keeps_extractAll encloses bytes

end Zone

end OpsContent
