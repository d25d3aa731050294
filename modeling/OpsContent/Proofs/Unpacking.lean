import OpsContent.Proofs.ExportSteps
import OpsContent.Proofs.Growth
import OpsContent.Proofs.TreeCopies
import OpsContent.Proofs.Uploads

/-!
# Unpacking, moving and merging

What the steps of staging an asset leave behind when they succeed.  An archive that is unpacked
into a directory leaves the content of the last entry that leads to a place, a file that is moved
has its content at the new place, and texts are merged inside of their own directory.
-/

/-! ## Files that are moved and replaced -/

namespace OpsContent.Disk

open OpsContent.Path List Zip

variable {disk after : Disk} {path directory : Path} {name : String} {content : Bytes}
  {source : Path} {destination : Path}

theorem touches_removeFile (done : removeFile path disk = .ok after) :
    Touches (· = disk.place path) disk after := by
  obtain ⟨inside, notDirectory, rfl⟩ := removeFile_ok done
  refine ⟨rfl, ?_, ?_⟩
  · intro location other
    rw [get?_remove _ _ _ inside, if_neg other]
  · intro location stands
    rw [get?_remove _ _ _ inside, if_neg, stands]
    rintro rfl
    exact notDirectory stands

theorem room_of_rename (stands : disk.isDirectory directory) (entry : IsEntry name)
    (done : rename source (directory.join name) disk = .ok after) : Room directory name := by
  unfold rename at done
  split at done
  · cases done
  · cases done
  next accepted =>
    rw [target_join stands entry accepted] at done
    refine ⟨entry, ?_, accepted⟩
    by_contra long
    rw [Bool.not_eq_false] at long
    repeat' split at done
    all_goals simp_all

theorem touches_rename (isFile : disk.get? (disk.place source) = some (.file content))
    (done : rename source destination disk = .ok after) :
    Touches (fun location => location = disk.place source ∨ location = disk.place destination)
        disk after ∧ after.get? (disk.place destination) = some (.file content) ∧
      (disk.place source ≠ disk.place destination → after.get? (disk.place source) = none) := by
  obtain ⟨leaves, inside, slash, moved⟩ := rename_ok done
  refine ⟨?_, (get?_of_moveEntry moved isFile inside).2, ?_⟩
  all_goals
    unfold moveEntry at moved
    rw [isFile] at moved
    dsimp only at moved
    split at moved
    · cases moved
  · split at moved
    · cases moved
      exact .refl _ _
    · split at moved
      · cases moved
      next notDirectory =>
        cases moved
        refine ⟨rfl, ?_, ?_⟩
        · intro location other
          rw [not_or] at other
          rw [get?_put _ _ _ _ inside, if_neg other.2, get?_remove _ _ _ leaves, if_neg other.1]
        · intro location stands
          rw [get?_put _ _ _ _ inside, if_neg, get?_remove _ _ _ leaves, if_neg, stands]
          · rintro rfl
            rw [isFile] at stands
            cases stands
          · rintro rfl
            exact notDirectory stands
  · intro different
    rw [if_neg different] at moved
    split at moved
    · cases moved
    · cases moved
      rw [get?_put _ _ _ _ inside, if_neg different, get?_remove _ _ _ leaves, if_pos rfl]

theorem moveFile_ok (stands : disk.isDirectory directory) (entry : IsEntry name)
    (isFile : disk.get? (disk.place source) = some (.file content))
    (apart : disk.place source ≠ disk.place directory ++ [name])
    (done : moveFile source (directory.join name) disk = (.ok (), after)) :
    Touches (fun location => location = disk.place source ∨
        location = disk.place directory ++ [name]) disk after ∧
      after.readFile (directory.join name) = .ok content := by
  rw [moveFile, exceptBind_of_ok (makeParents_join entry stands)] at done
  have reached := place_join disk directory entry
  -- the two ways to move a file end with the same
  have law : Room directory name ∧
      Touches (fun location => location = disk.place source ∨
        location = disk.place directory ++ [name]) disk after ∧
      after.get? (disk.place directory ++ [name]) = some (.file content) := by
    split at done
    next ran =>
      cases done
      obtain ⟨touches, here, -⟩ := touches_rename isFile ran
      rw [reached] at touches here
      exact ⟨room_of_rename stands entry ran, touches, here⟩
    · obtain ⟨_, copied, copying, removing⟩ := exceptBind_ok done
      obtain ⟨_, found, wrote⟩ := copyFile_ok (attempt_ok copying)
      cases isFile.symm.trans (get?_of_node? found)
      have first := touches_updateFile wrote
      have second := touches_removeFile (attempt_ok removing)
      have here := get?_of_writeFile wrote
      rw [reached] at first here
      rw [place_congr first.current] at second
      refine ⟨room_of_updateFile entry wrote, (first.mono ?_).trans (second.mono ?_), ?_⟩
      · exact fun location => .inr
      · exact fun location => .inl
      · rw [second.elsewhere _ apart.symm, here]
  obtain ⟨room, touches, here⟩ := law
  refine ⟨touches, ?_⟩
  rw [readFile_eq_ok_iff, node?_join (touches.isDirectory stands) room, place_congr touches.current]
  exact here

/-! ## Replaced files -/

theorem room_of_append {ending : String} (entry : IsEntry name)
    (room : Room directory (name ++ ending)) : Room directory name := by
  have longer : name.utf8ByteSize ≤ (name ++ ending).utf8ByteSize := by
    rw [String.utf8ByteSize_append]
    exact Nat.le_add_right _ _
  refine ⟨entry, ?_, ?_⟩
  · have short := room.short
    simp only [isTooLong, decide_eq_false_iff_not] at short ⊢
    omega
  · obtain ⟨clean, -, short⟩ := refuse_eq_ok_iff.1 room.accepted
    rw [text, absolute_join_entry room.entry, pieces_join_entry room.entry,
      String.utf8ByteSize_append, utf8ByteSize_intercalate] at short
    rw [pieces_join_entry room.entry] at clean
    refine refuse_eq_ok_iff.2 ⟨?_, fun blank => pieces_join_ne_blank directory entry blank.2, ?_⟩
    · rw [pieces_join_entry entry]
      intro piece member
      rcases mem_append.1 member with early | last
      · exact clean piece (by simp [early])
      · rw [mem_singleton.1 last]
        have whole := clean (name ++ ending) (by simp)
        rw [String.toList_append, mem_append, not_or] at whole
        exact whole.1
    · rw [text, absolute_join_entry entry, pieces_join_entry entry, String.utf8ByteSize_append,
        utf8ByteSize_intercalate]
      simp only [map_append, sum_append, map_cons, map_nil, sum_cons,
        sum_nil, length_append, length_singleton] at short ⊢
      omega

theorem rename_join {draft : String} (stands : disk.isDirectory directory)
    (leaving : Room directory draft) (room : Room directory name)
    (isFile : disk.get? (disk.place directory ++ [draft]) = some (.file content))
    (free : disk.get? (disk.place directory ++ [name]) ≠ some .directory) :
    ∃ after, rename (directory.join draft) (directory.join name) disk = .ok after := by
  unfold rename
  rw [leaving.accepted, room.accepted]
  dsimp only
  rw [target_join stands leaving.entry leaving.accepted, target_join stands room.entry room.accepted]
  dsimp only
  rw [leaving.short, room.short, isFile, moveEntry, isFile]
  by_cases same : disk.place directory ++ [draft] = disk.place directory ++ [name]
  · simp [same]
  · simp [same, free]

/-- A file was replaced, and its draft is gone. -/
structure Replaced (directory : Path) (name : String) (content : Bytes) (before after : Disk) :
    Prop where
  touches : Touches (fun location => location = before.place directory ++ [name] ∨
    location = before.place directory ++ [name ++ ".tmp"]) before after
  found : after.node? (directory.join name) = some (.file content)
  draft : after.get? (before.place directory ++ [name ++ ".tmp"]) = none

section

variable (ends : directory.EndsInName) (stands : disk.isDirectory directory)
  (entry : IsEntry name) (draftEntry : IsEntry (name ++ ".tmp"))

include ends stands entry

theorem replaceFile_join (content : Bytes) :
    replaceFile (directory.join name) content disk =
      match writeFile (directory.join (name ++ ".tmp")) content disk with
      | .error cause => (.error cause, disk)
      | .ok written =>
        match rename (directory.join (name ++ ".tmp")) (directory.join name) written with
        | .error cause => (.error cause, written)
        | .ok after => (.ok (), after) := by
  unfold replaceFile
  rw [fileName?_join _ entry, Option.getD_some, withFileName_join ends entry,
    exceptBind_of_ok (makeParents_join entry stands), exceptBind_apply, attempt]
  cases writeFile (directory.join (name ++ ".tmp")) content disk with
  | error cause => rfl
  | ok written =>
    dsimp only
    rw [attempt]
    cases rename (directory.join (name ++ ".tmp")) (directory.join name) written <;> rfl

include draftEntry

theorem replaced_of_replaceFile (done : replaceFile (directory.join name) content disk =
    (.ok (), after)) : Replaced directory name content disk after := by
  rw [replaceFile_join ends stands entry] at done
  cases wrote : writeFile (directory.join (name ++ ".tmp")) content disk with
  | error cause =>
    rw [wrote] at done
    cases done
  | ok written =>
    rw [wrote] at done
    dsimp only at done
    cases renamed : rename (directory.join (name ++ ".tmp")) (directory.join name) written with
    | error cause =>
      rw [renamed] at done
      cases done
    | ok moved =>
      rw [renamed] at done
      cases done
      have first := touches_updateFile wrote
      have samePlace := place_congr first.current
      have isFile := get?_of_writeFile wrote
      rw [← samePlace] at isFile
      obtain ⟨second, stored, leaves⟩ := touches_rename isFile renamed
      have room := room_of_rename (first.isDirectory stands) entry renamed
      rw [place_join _ _ draftEntry] at first
      simp only [samePlace, place_join _ _ draftEntry, place_join _ _ entry] at second stored leaves
      have touches := (first.mono fun _ => Or.inr).trans (second.mono fun _ => Or.symm)
      refine ⟨touches, ?_, leaves (by simp)⟩
      rw [node?_join (touches.isDirectory stands) room, place_congr touches.current]
      exact stored

/-- A replacement fails only if no draft can be written or a directory stands in the way, and in
the first case nothing is done. -/
theorem replaceFile_cases (content : Bytes)
    (free : disk.node? (directory.join name) ≠ some .directory) :
    (∃ cause, replaceFile (directory.join name) content disk = (.error cause, disk) ∧
        ¬ (Room directory (name ++ ".tmp") ∧
          disk.get? (disk.place directory ++ [name ++ ".tmp"]) ≠ some .directory)) ∨
      ∃ after, replaceFile (directory.join name) content disk = (.ok (), after) := by
  rw [replaceFile_join ends stands entry]
  have law := writeFile_join draftEntry stands content
  cases wrote : writeFile (directory.join (name ++ ".tmp")) content disk with
  | error cause =>
    refine .inl ⟨cause, rfl, fun both => ?_⟩
    obtain ⟨_, written⟩ := law.2 both
    rw [wrote] at written
    cases written
  | ok written =>
    right
    obtain ⟨room, -⟩ := law.1 ⟨written, wrote⟩
    have touches := touches_updateFile wrote
    have isFile := get?_of_writeFile wrote
    rw [place_join _ _ draftEntry] at touches isFile
    have samePlace := place_congr touches.current directory
    have target := room_of_append entry room
    obtain ⟨after, renamed⟩ : ∃ after,
        rename (directory.join (name ++ ".tmp")) (directory.join name) written = .ok after := by
      refine rename_join (touches.isDirectory stands) room target (by rwa [samePlace]) ?_
      rw [samePlace]
      intro stood
      apply free
      rw [node?_join stands target]
      have apart : disk.place directory ++ [name ++ ".tmp"] ≠ disk.place directory ++ [name] := by
        simp
      rwa [touches.elsewhere _ apart.symm] at stood
    refine ⟨after, ?_⟩
    dsimp only
    rw [renamed]

end

end OpsContent.Disk

namespace OpsContent

open OpsContent.Path Disk Staging

variable {ρ : Type} {name : String} {bytes content : Bytes}

/-! ## Single operations -/

namespace Disk

variable {disk after : Disk} {path directory : Path} {name : String} {content : Bytes}
  {way : Location → Prop}

/-- Of the directories on a way inside a directory that stands, only those inside can be made. -/
theorem OpensOnly.touches_inside (opens : OpensOnly (disk.OnWay path) disk after)
    (stands : disk.isDirectory directory) (leads : LeadsBelow directory path) :
    Touches (fun location => isBelow (disk.place directory) location ∧
      disk.get? location = none) disk after := by
  apply opens.touches.mono
  rintro location ⟨onWay, free⟩
  rcases leads.onWay onWay with early | below
  · rw [directory_of_onWay stands early] at free
    cases free
  · exact ⟨below.isBelow, free⟩

end Disk

/-! ## Archives -/

namespace Zip

/-- Where an entry goes below the directory. -/
def leadsTo (name : String) : Location :=
  follow [] (ofText name).pieces

/-- The file that an archive has at a place: the last entry that leads there, if it is one of a
file. -/
def file? (bytes : Bytes) (name : String) : Option Bytes := do
  let all ← (headers bytes).toOption
  let header ← all.reverse.find? fun header => leadsTo header.name = leadsTo name
  if Text.endsWith header.name "/" then none else (readEntry bytes header).toOption.map Prod.snd

theorem place_join_of_isEnclosed (disk : Disk) (directory : Path)
    (enclosed : isEnclosed name) :
    disk.place (directory.join name) = disk.place directory ++ leadsTo name := by
  obtain ⟨relative, below⟩ := Zone.staysWithin_of_isEnclosed enclosed
  have stays := follow_of_staysBelow below (disk.place directory) (Nat.zero_le ([] : Location).length)
  rw [List.append_nil] at stays
  rw [place, start, absolute_join relative, pieces_join relative, follow_append, follow_stem]
  exact stays

theorem readEntry_eq_ok {header : Header} {data : Bytes}
    (stored : storedData bytes header = .ok data)
    (whole : Zip.content header data = (content, none)) :
    readEntry bytes header = .ok (header.name, content) := by
  rw [readEntry, stored]
  dsimp only [bind, Except.bind]
  rw [whole]
  rfl

theorem file?_eq_some (found : file? bytes name = some content) :
    ∃ all header, headers bytes = .ok all ∧
      all.reverse.find? (fun header => leadsTo header.name = leadsTo name) = some header ∧
      Text.endsWith header.name "/" = false ∧
      (readEntry bytes header).toOption.map Prod.snd = some content := by
  unfold file? at found
  cases listed : headers bytes with
  | error cause =>
    rw [listed] at found
    cases found
  | ok all =>
    rw [listed] at found
    obtain ⟨_, same, found⟩ := Option.bind_eq_some_iff.1 found
    cases same
    obtain ⟨header, last, found⟩ := Option.bind_eq_some_iff.1 found
    split at found
    · cases found
    next isFile => exact ⟨all, header, rfl, last, by simpa using isFile, found⟩

end Zip

namespace Staging

variable {bytes : Bytes} {directory : Path} {header : Zip.Header} {disk after : Disk}
  {name : String} {content : Bytes} {all : List Zip.Header} {α : Type} {world : World ρ}

theorem onDisk_ok {steps : DiskAction α} {value : α} (done : onDisk steps disk = (.ok value, after)) :
    steps disk = (.ok value, after) := by
  unfold onDisk at done
  split at done
  next ran =>
    cases done
    exact ran
  · cases done

/-- What writing an entry comes to: a directory is made, or a file is written below directories
that are made if they are missing. -/
theorem extractEntry_ok (done : extractEntry bytes directory header disk = (.ok (), after)) :
    isEnclosed header.name ∧
      (Text.endsWith header.name "/" ∧
          makeDirectories (directory.join header.name) disk = (.ok (), after) ∨
        ∃ content opened, Zip.readEntry bytes header = .ok (header.name, content) ∧
          (opened = disk ∨ opened = (makeParents (directory.join header.name) disk).2) ∧
          writeFile (directory.join header.name) content opened = .ok after) := by
  unfold extractEntry at done
  obtain ⟨data, start, settled, finished⟩ := exceptBind_ok done
  clear done
  obtain ⟨stored, rfl⟩ := settle_ok settled
  dsimp only at finished
  split at finished
  · cases finished
  next enclosed =>
    refine ⟨by simpa using enclosed, ?_⟩
    split at finished
    next isDirectory => exact .inl ⟨isDirectory, onDisk_ok finished⟩
    · right
      obtain ⟨_, _, looked, finished⟩ := exceptBind_ok finished
      cases looked
      -- the file is written last, after its parents were made or found
      have last : ∀ (rest : ArchiveAction Unit) opened,
          (∀ cause, (Zip.content header data).2 = some cause → rest = throw (.io cause)) →
          ((Zip.content header data).2 = none → rest = pure ()) → (do
            onDisk (attempt (writeFile (directory.join header.name) (Zip.content header data).1))
            rest) opened = (.ok (), after) →
          ∃ content, Zip.readEntry bytes header = .ok (header.name, content) ∧
            writeFile (directory.join header.name) content opened = .ok after := by
        intro rest opened fails ends ran
        obtain ⟨_, later, written, ran⟩ := exceptBind_ok ran
        cases damage : (Zip.content header data).2 with
        | some cause =>
          rw [fails cause damage] at ran
          cases ran
        | none =>
          rw [ends damage] at ran
          cases ran
          exact ⟨_, Zip.readEntry_eq_ok stored (Prod.ext rfl damage),
            attempt_ok (onDisk_ok written)⟩
      cases isParent : (directory.join header.name).parent? with
      | none =>
        rw [isParent] at finished
        obtain ⟨content, read, written⟩ := last _ _ (fun _ damage => by rw [damage])
          (fun damage => by rw [damage]) finished
        exact ⟨content, _, read, Or.inl rfl, written⟩
      | some parent =>
        rw [isParent] at finished
        dsimp only at finished
        split at finished
        · obtain ⟨_, opened, made, finished⟩ := exceptBind_ok finished
          obtain ⟨content, read, written⟩ := last _ opened (fun _ damage => by rw [damage])
            (fun damage => by rw [damage]) finished
          refine ⟨content, opened, read, Or.inr ?_, written⟩
          unfold makeParents
          rw [isParent]
          dsimp only
          rw [onDisk_ok made]
        · obtain ⟨content, read, written⟩ := last _ _ (fun _ damage => by rw [damage])
            (fun damage => by rw [damage]) finished
          exact ⟨content, _, read, Or.inl rfl, written⟩

theorem touches_extractEntry (stands : disk.isDirectory directory)
    (done : extractEntry bytes directory header disk = (.ok (), after)) :
    Touches (fun location => isBelow (disk.place directory) location ∧
      (disk.get? location = none ∨ location = disk.place directory ++ Zip.leadsTo header.name))
      disk after := by
  obtain ⟨enclosed, outcome⟩ := extractEntry_ok done
  have leads : LeadsBelow directory (directory.join header.name) :=
    LeadsBelow.join (.inl rfl) (Zone.staysWithin_of_isEnclosed enclosed)
  have reached := Zip.place_join_of_isEnclosed disk directory enclosed
  rcases outcome with ⟨-, made⟩ | ⟨content, opened, -, isOpened, written⟩
  · exact ((opensOnly_made made).touches_inside stands leads).mono
      fun location touched => ⟨touched.1, Or.inl touched.2⟩
  · have first : Touches (fun location => isBelow (disk.place directory) location ∧
        disk.get? location = none) disk opened := by
      rcases isOpened with rfl | rfl
      · exact .refl _ _
      · exact ((makeParents_opensOnly _ disk).mono fun _ => OnWayAbove.onWay).touches_inside
          stands leads
    have second := touches_updateFile written
    rw [place_congr first.current, reached] at second
    apply (first.mono _).trans (second.mono _)
    · exact fun location touched => ⟨touched.1, Or.inl touched.2⟩
    · rintro location rfl
      exact ⟨isBelow_append _ _, Or.inr rfl⟩

theorem touches_extractHeaders (stands : disk.isDirectory directory)
    (done : (all.forM (extractEntry bytes directory) : ArchiveAction Unit) disk = (.ok (), after)) :
    Touches (fun location => isBelow (disk.place directory) location ∧
      (disk.get? location = none ∨
        ∃ header ∈ all, location = disk.place directory ++ Zip.leadsTo header.name))
      disk after := by
  induction all generalizing disk with
  | nil =>
    cases done
    exact .refl _ _
  | cons header rest ih =>
    obtain ⟨_, between, ran, finished⟩ := exceptBind_ok done
    have first := touches_extractEntry stands ran
    have second := ih (first.isDirectory stands) finished
    rw [place_congr first.current] at second
    apply (first.mono _).trans (second.mono _)
    · rintro location ⟨below, free | here⟩
      · exact ⟨below, Or.inl free⟩
      · exact ⟨below, Or.inr ⟨header, by simp, here⟩⟩
    · rintro location ⟨below, free | ⟨other, member, here⟩⟩
      · refine ⟨below, ?_⟩
        by_cases here : location = disk.place directory ++ Zip.leadsTo header.name
        · exact .inr ⟨header, by simp, here⟩
        · left
          by_contra stood
          rw [first.elsewhere _ (by simp [stood, here])] at free
          exact stood free
      · exact ⟨below, Or.inr ⟨other, by simp [member], here⟩⟩

/-- The last entry that leads to a place leaves its content there. -/
theorem extractHeaders_ok (stands : disk.isDirectory directory)
    (done : (all.forM (extractEntry bytes directory) : ArchiveAction Unit) disk = (.ok (), after))
    {location : Location}
    (last : all.reverse.find? (fun header => Zip.leadsTo header.name = location) = some header)
    (isFile : Text.endsWith header.name "/" = false) :
    ∃ content opened later, Zip.readEntry bytes header = .ok (header.name, content) ∧
      isEnclosed header.name ∧
      writeFile (directory.join header.name) content opened = .ok later ∧
      after.get? (disk.place directory ++ location) = some (.file content) := by
  induction all generalizing disk with
  | nil => cases last
  | cons first rest ih =>
    obtain ⟨_, between, ran, finished⟩ := exceptBind_ok done
    have touches := touches_extractEntry stands ran
    have standsLater := touches.isDirectory stands
    rw [List.reverse_cons, List.find?_append] at last
    cases later : rest.reverse.find? (fun header => Zip.leadsTo header.name = location) with
    | some found =>
      rw [later] at last
      cases last
      have law := ih standsLater finished later
      rwa [place_congr touches.current] at law
    | none =>
      rw [later, Option.none_or] at last
      -- the first entry is the last one to lead there
      obtain ⟨rfl, leads⟩ : first = header ∧ Zip.leadsTo first.name = location := by
        rw [List.find?_singleton] at last
        split at last
        next leads =>
          cases last
          exact ⟨rfl, by simpa using leads⟩
        · cases last
      obtain ⟨enclosed, ⟨isDirectory, -⟩ | ⟨content, opened, read, isOpened, written⟩⟩ :=
        extractEntry_ok ran
      · rw [isFile] at isDirectory
        cases isDirectory
      · refine ⟨content, opened, between, read, enclosed, written, ?_⟩
        have sameCurrent : opened.current = disk.current := by
          rcases isOpened with rfl | rfl
          · rfl
          · exact (makeParents_opensOnly _ disk).current
        have here := get?_of_writeFile written
        rw [place_congr sameCurrent, Zip.place_join_of_isEnclosed disk directory enclosed,
          leads] at here
        rw [(touches_extractHeaders standsLater finished).elsewhere, here]
        rintro ⟨-, free | ⟨other, member, same⟩⟩
        · rw [here] at free
          cases free
        · rw [place_congr touches.current, List.append_cancel_left_eq] at same
          have none := List.find?_eq_none.1 later other (by simpa using member)
          simp [same] at none

theorem room_of_leadsTo {change : Bytes → Bytes} {entry : String} (enclosed : isEnclosed name)
    (leads : Zip.leadsTo name = [entry])
    (done : updateFile change (directory.join name) disk = .ok after) : Room directory entry := by
  obtain ⟨relative, -⟩ := Zone.staysWithin_of_isEnclosed enclosed
  have member : entry ∈ Zip.leadsTo name := by simp [leads]
  have isEntry := isEntry_of_mem_follow member fun piece => noSlash_of_mem_ofText
  have isPiece : entry ∈ (ofText name).pieces := by
    rcases mem_follow member with nowhere | ⟨inPieces, -⟩
    · cases nowhere
    · exact inPieces
  obtain ⟨parent, last, ends, short, -⟩ := ends_of_updateFile done
  have same := ends.place_eq
  rw [Zip.place_join_of_isEnclosed disk directory enclosed, leads] at same
  obtain rfl : entry = last := by simpa using (List.append_inj' same rfl).2
  refine ⟨isEntry, short, ?_⟩
  have isPath : directory.join name =
      ⟨directory.absolute, directory.stem ++ (ofText name).pieces⟩ := by
    rw [← absolute_join relative, ← pieces_join relative]
  have isEntryPath : directory.join entry = ⟨directory.absolute, directory.stem ++ [entry]⟩ := by
    rw [← absolute_join_entry isEntry, ← pieces_join_entry isEntry]
  have accepted := ends.accepted
  rw [isPath] at accepted
  rw [isEntryPath]
  refine refuse_of_sublist ((List.singleton_sublist.2 isPiece).append_left _) ?_ accepted
  rw [← pieces_join_entry isEntry]
  exact pieces_join_ne_blank directory isEntry

/-- An archive was unpacked: every file that it has was left at its place. -/
structure Unpacked (bytes : Bytes) (directory : Path) (before after : Disk) : Prop where
  touches : Touches (fun location => isBelow (before.place directory) location = true) before after
  files : ∀ name content, Zip.file? bytes name = some content →
    after.get? (before.place directory ++ Zip.leadsTo name) = some (.file content)
  rooms : ∀ name content, Zip.file? bytes name = some content →
    ∀ entry, Zip.leadsTo name = [entry] → Room directory entry

theorem unpacked_of_extractAll (stands : disk.isDirectory directory)
    (ran : extractAll bytes directory disk = (.ok (), after)) :
    Unpacked bytes directory disk after := by
  obtain ⟨all, start, settled, extracted⟩ := exceptBind_ok ran
  obtain ⟨listed, rfl⟩ := settle_ok settled
  have law : ∀ name content, Zip.file? bytes name = some content →
      ∃ header opened later, isEnclosed header ∧ Zip.leadsTo header = Zip.leadsTo name ∧
        writeFile (directory.join header) content opened = .ok later ∧
        after.get? (start.place directory ++ Zip.leadsTo name) = some (.file content) := by
    intro name content found
    obtain ⟨_, header, listedAgain, last, isFile, whole⟩ := Zip.file?_eq_some found
    rw [listed] at listedAgain
    cases listedAgain
    obtain ⟨written, opened, later, readEntry, enclosed, wrote, here⟩ :=
      extractHeaders_ok stands extracted last isFile
    rw [readEntry] at whole
    cases whole
    exact ⟨header.name, opened, later, enclosed, by simpa using List.find?_some last, wrote, here⟩
  refine ⟨(touches_extractHeaders stands extracted).mono fun location => And.left, ?_, ?_⟩
  · intro name content found
    obtain ⟨_, _, _, -, -, -, here⟩ := law name content found
    exact here
  · intro name content found entry leads
    obtain ⟨_, _, _, enclosed, same, wrote, -⟩ := law name content found
    exact room_of_leadsTo enclosed (same.trans leads) wrote

theorem extractArchive_ok {archive : Path} {after : World ρ}
    (done : extractArchive archive directory world = (.ok (), after)) :
    after.site = world.site ∧ ∃ opened bytes,
      makeDirectories directory world.disk = (.ok (), opened) ∧
      opened.readFile archive = .ok bytes ∧
      (opened.isDirectory directory → Unpacked bytes directory opened after.disk) := by
  unfold extractArchive at done
  obtain ⟨_, start, making, finished⟩ := exceptBind_ok done
  clear done
  obtain ⟨made, sameSite⟩ := Zone.files_ok making
  obtain ⟨_, _, looked, finished⟩ := exceptBind_ok finished
  cases looked
  cases read : start.disk.readFile archive with
  | error cause =>
    rw [read] at finished
    cases cause with
    | system errno => cases errno <;> cases finished
    | _ => cases finished
  | ok bytes =>
    rw [read] at finished
    dsimp only at finished
    cases ran : extractAll bytes directory start.disk with
    | mk outcome unpacked =>
      rw [World.onDisk, ran] at finished
      cases outcome with
      | error cause => cases finished
      | ok _ =>
        cases finished
        exact ⟨sameSite, start.disk, bytes, made, read, fun stands =>
          unpacked_of_extractAll stands ran⟩

/-! ## Texts -/

theorem touches_mergeResources {source parent : Path}
    (stands : world.disk.isDirectory parent) (entry : IsEntry name)
    (entries : ∀ names, world.disk.listNames source = .ok names → ∀ name ∈ names, IsEntry name) :
    Touches (fun location => isBelow (world.disk.place parent ++ [name]) location) world.disk
      (mergeResources source (parent.join name) world).2.disk := by
  have ignores : IgnoresLog fun later : World ρ => Touches
      (fun location => isBelow (world.disk.place parent ++ [name]) location) world.disk
      later.disk := fun _ _ _ touches => touches
  refine mergeResources_at ignores (.refl _ _) ?_ ?_
  · refine (touches_makeDirectories_join entry stands).mono ?_
    rintro location rfl
    exact isBelow_iff.2 (List.prefix_refl _)
  · intro names listed other member later change after touches updated
    have written := touches_updateFile updated
    rw [place_join _ _ (entries names listed other member), place_join _ _ entry,
      place_congr touches.current] at written
    refine touches.trans (written.mono ?_)
    rintro location rfl
    exact isBelow_append _ _

/-! ## The server is left alone -/

section

variable {server : ρ}

theorem keepsRemote_onDisk (step : StateM Disk α) :
    Keeps (World.Has (· = server)) (World.onDisk step) :=
  fun _ same => same

theorem keepsRemote_files (steps : DiskAction α) :
    Keeps (World.Has (· = server)) (World.files steps) :=
  (keepsRemote_onDisk steps).files

theorem keepsRemote_extractArchive (archive directory : Path) :
    Keeps (World.Has (· = server)) (extractArchive archive directory : Sync ρ Unit) :=
  keeps_extractArchive archive (keepsRemote_onDisk _) fun _ => keepsRemote_onDisk _

theorem keepsRemote_mergeResources (source directory : Path) :
    Keeps (World.Has (· = server)) (mergeResources source directory : StateM (World ρ) Unit) :=
  fun _ same => mergeResources_at (fun _ _ _ same => same) same same
    fun _ _ _ _ _ _ _ same _ => same

end

end Staging

end OpsContent
