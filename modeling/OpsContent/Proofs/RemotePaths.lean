import OpsContent.Proofs.FileNames
import OpsContent.Proofs.Listings
import OpsContent.Remote.Ssh

/-!
# Where uploaded files land

A copy to a directory of the server puts each file under the last part of its path, and the line
of commands that imports the files names them by directory, kind and file name.  The two agree for
every path at which a file stands, and files of different kinds or names have different places.
-/

namespace OpsContent

/-! ## Paths of files -/

namespace Disk

open OpsContent.Path

variable {disk : Disk} {location next : Location} {piece : String}

/-- The current directory and all above it are directories. -/
def Grounded (disk : Disk) : Prop :=
  ∀ beginning, beginning <+: disk.current → disk.get? beginning = some .directory

/-- Everything above the place is a directory. -/
def IsBelowDirectories (disk : Disk) (location : Location) : Prop :=
  ∀ beginning, beginning <+: location → beginning ≠ location →
    disk.get? beginning = some .directory

/-- A step is made from a directory, so all on the way to it are directories. -/
theorem IsBelowDirectories.of_step (below : disk.IsBelowDirectories location)
    (stepped : disk.step location piece = .ok next) :
    ∀ beginning, beginning <+: location → disk.get? beginning = some .directory := by
  intro beginning isPrefix
  by_cases whole : beginning = location
  · rw [whole]
    exact step_directory stepped
  · exact below beginning isPrefix whole

/-- A step stays below directories. -/
theorem IsBelowDirectories.step (below : disk.IsBelowDirectories location)
    (stepped : disk.step location piece = .ok next) : disk.IsBelowDirectories next := by
  have directories := below.of_step stepped
  intro beginning isPrefix shorter
  rw [step_eq_advance stepped] at isPrefix shorter
  apply directories
  unfold advance at isPrefix shorter
  split at isPrefix
  · exact isPrefix
  · split at isPrefix
    · exact isPrefix.trans <| List.dropLast_prefix location
    · next notIdle notParent =>
        rw [if_neg notIdle, if_neg notParent] at shorter
        exact Or.resolve_left (List.prefix_concat_iff.1 isPrefix) shorter

/-- So does a whole walk. -/
theorem IsBelowDirectories.walk {pieces : List String} (below : disk.IsBelowDirectories location)
    (walked : disk.walk location pieces = .ok next) : disk.IsBelowDirectories next := by
  induction pieces generalizing location with
  | nil =>
    cases walked
    exact below
  | cons piece rest ih =>
    unfold Disk.walk at walked
    split at walked
    · next stepped => exact ih (below.step stepped) walked
    · cases walked

theorem Grounded.start (grounded : disk.Grounded) (path : Path) :
    disk.IsBelowDirectories (disk.start path) := by
  intro beginning isPrefix shorter
  unfold Disk.start at isPrefix shorter
  split at isPrefix
  · next absolute =>
      rw [List.prefix_nil.1 isPrefix]
      exact get?_root disk
  · exact grounded beginning isPrefix

/-- The last step to a file leads to an entry: neither staying nor going up ends at a file. -/
theorem isEntry_of_step {content : Bytes} (below : disk.IsBelowDirectories location)
    (stepped : disk.step location piece = .ok next) (isFile : disk.get? next = some (.file content))
    (noSlash : '/' ∉ piece.toList) : IsEntry piece := by
  have directories := below.of_step stepped
  have leads : ¬ next <+: location := by
    intro isPrefix
    rw [directories next isPrefix] at isFile
    cases isFile
  rw [step_eq_advance stepped] at leads
  unfold advance at leads
  split at leads
  · exact absurd List.prefix_rfl leads
  · next notIdle =>
      split at leads
      · exact leads.elim <| List.dropLast_prefix location
      · next notParent =>
          simp only [isIdle, Bool.or_eq_true, beq_iff_eq, not_or] at notIdle
          exact ⟨notIdle.1, notIdle.2, notParent, noSlash⟩

/-- A path at which a file stands ends in the name of the file. -/
theorem endsInName_of_isFile (grounded : disk.Grounded) {text : String}
    (isFile : disk.isFile (ofText text) = true) : (ofText text).EndsInName := by
  obtain ⟨content, found⟩ := isFile_iff.1 isFile
  unfold node? at found
  split at found
  · next last located =>
      obtain ⟨-, walked⟩ := locate_eq_ok_iff.1 located
      obtain ⟨leading, piece, whole⟩ :=
        (List.eq_nil_or_concat (ofText text).pieces).resolve_left (pieces_ofText_ne_nil text)
      rw [List.concat_eq_append] at whole
      refine ⟨leading, piece, whole, ?_⟩
      have member : piece ∈ (ofText text).pieces := by simp [whole]
      rw [whole, walk_append] at walked
      split at walked
      · next directory reached =>
          unfold Disk.walk at walked
          split at walked
          · next stepped =>
              cases walked
              exact isEntry_of_step ((grounded.start _).walk reached) stepped found
                (noSlash_of_mem_ofText member)
          · cases walked
      · cases walked
  · cases found

end Disk

/-! ## Places on the server -/

namespace Path

/-- The text behind the last slash. -/
def lastPart (text : String) : String :=
  String.ofList (text.toList.rtakeWhile (· ≠ '/'))

theorem lastPart_of_noSlash {name : String} (noSlash : '/' ∉ name.toList) :
    lastPart name = name := by
  have whole : name.toList.rtakeWhile (· ≠ '/') = name.toList := by
    rw [List.rtakeWhile_eq_self_iff]
    intro char member
    simpa using ne_of_mem_of_not_mem member noSlash
  rw [lastPart, whole, String.ofList_toList]

theorem lastPart_append (before : String) {name : String} (noSlash : '/' ∉ name.toList) :
    lastPart (before ++ "/" ++ name) = name := by
  have free : ∀ char ∈ name.toList.reverse, decide (char ≠ '/') = true := by
    intro char member
    simpa using ne_of_mem_of_not_mem (List.mem_reverse.1 member) noSlash
  have ends : (before ++ "/" ++ name).toList.rtakeWhile (· ≠ '/') = name.toList := by
    have slash : "/".toList = ['/'] := rfl
    rw [List.rtakeWhile, String.toList_append, String.toList_append, slash, List.reverse_append,
      List.takeWhile_append_of_pos free]
    simp
  rw [lastPart, ends, String.ofList_toList]

/-- The name in which a path ends is its file name, and the last part of its text. -/
theorem EndsInName.exists_name {path : Path} (ends : path.EndsInName) :
    ∃ name, path.fileName? = some name ∧ lastPart path.text = name ∧ '/' ∉ name.toList := by
  obtain ⟨leading, name, whole, entry⟩ := ends
  refine ⟨name, ?_, ?_, entry.noSlash⟩
  · rw [Path.fileName?, trimIdle_of_notIdle whole entry.notIdle]
    simp [entry.notSelf, entry.notParent]
  · rw [text, whole]
    by_cases alone : leading = []
    · rw [alone, List.nil_append, String.intercalate_singleton]
      split
      · exact lastPart_append "" entry.noSlash
      · rw [String.empty_append, lastPart_of_noSlash entry.noSlash]
    · rw [String.intercalate_append_of_ne_nil alone (by simp), String.intercalate_singleton,
        ← String.append_assoc, ← String.append_assoc]
      exact lastPart_append _ entry.noSlash

end Path

namespace Ssh

variable {directory : String}

/-- The directory of a kind on the server. -/
def folder (directory : String) (kind : ChannelKind) : String :=
  directory ++ "/" ++ kind.assetKind.directory

/-- Where a copy to a directory of the server puts a file. -/
def landing (place : String) (file : Path) : String :=
  place ++ "/" ++ Path.lastPart file.text

/-- The place by which a queued file is imported is the one to which it is uploaded. -/
theorem landing_folder (directory : String) {pending : Pending} (ends : pending.file.EndsInName) :
    landing (folder directory pending.kind) pending.file = remoteFile directory pending := by
  obtain ⟨name, named, last, -⟩ := ends.exists_name
  rw [landing, last, remoteFile, named]
  rfl

theorem folder_inj {first second : ChannelKind} :
    folder directory first = folder directory second ↔ first = second := by
  constructor
  · intro same
    rw [folder, folder, String.append_right_inj] at same
    revert same
    cases first <;> cases second <;> decide
  · rintro rfl
    rfl

/-- Kinds and names tell places apart. -/
theorem remoteFile_inj {first second : Pending} (ends : first.file.EndsInName)
    (endsToo : second.file.EndsInName) :
    remoteFile directory first = remoteFile directory second ↔
      first.kind = second.kind ∧ first.file.fileName? = second.file.fileName? := by
  obtain ⟨name, named, -, noSlash⟩ := ends.exists_name
  obtain ⟨other, namedToo, -, noSlashToo⟩ := endsToo.exists_name
  have place : remoteFile directory first = folder directory first.kind ++ "/" ++ name := by
    rw [remoteFile, named]
    rfl
  have placeToo : remoteFile directory second = folder directory second.kind ++ "/" ++ other := by
    rw [remoteFile, namedToo]
    rfl
  rw [named, namedToo, place, placeToo, Option.some.injEq]
  constructor
  · intro same
    have sameName : name = other := by
      rw [← Path.lastPart_append (folder directory first.kind) noSlash, same,
        Path.lastPart_append _ noSlashToo]
    rw [sameName, String.append_left_inj, String.append_left_inj] at same
    exact ⟨folder_inj.1 same, sameName⟩
  · rintro ⟨sameKind, rfl⟩
    rw [sameKind]

end Ssh

end OpsContent
