import OpsContent.Proofs.MergedResources

/-!
# Lines of merged resources

Every file is closed by a line feed when it is appended, so a merged file is made of whole lines:
those that it had, followed by those of the files of its name in the sources.  In which order the
sources are merged makes no difference to which lines there are and how often.
-/

namespace OpsContent

/-! ## Lines -/

namespace Bytes

variable {bytes first : Bytes}

/-- The lines of a byte string, without the line feeds that end them.  The last one may lack its
end. -/
def rows : Bytes → List Bytes
  | [] => []
  | byte :: rest =>
    if byte = 0x0A then [] :: rows rest
    else
      match rows rest with
      | [] => [[byte]]
      | row :: later => (byte :: row) :: later

theorem endsLine_cons (byte : UInt8) (notEmpty : bytes ≠ []) :
    endsLine (byte :: bytes) = endsLine bytes := by
  obtain ⟨next, rest, rfl⟩ := List.exists_cons_of_ne_nil notEmpty
  simp only [endsLine, List.getLast?_cons_cons]

theorem rows_append (closed : first.endsLine) (rest : Bytes) :
    rows (first ++ rest) = rows first ++ rows rest := by
  induction first with
  | nil => rfl
  | cons byte tail ih =>
    by_cases last : tail = []
    · subst last
      obtain rfl : byte = 0x0A := by simpa [endsLine] using closed
      simp [rows]
    · have later := ih (by rwa [endsLine_cons byte last] at closed)
      have some : rows tail ≠ [] := by
        obtain ⟨next, rest, rfl⟩ := List.exists_cons_of_ne_nil last
        rw [rows]
        split
        · simp
        · split <;> simp
      obtain ⟨row, others, isRows⟩ := List.exists_cons_of_ne_nil some
      simp only [List.cons_append, rows, later, isRows]
      split <;> rfl

theorem rows_closeLine (bytes : Bytes) : rows bytes.closeLine = rows bytes := by
  unfold closeLine
  split
  · rfl
  next opened =>
    induction bytes with
    | nil => exact absurd rfl opened
    | cons byte tail ih =>
      by_cases last : tail = []
      · subst last
        have notFeed : byte ≠ 0x0A := by simpa [endsLine] using opened
        simp [rows, notFeed]
      · rw [endsLine_cons byte last] at opened
        simp only [List.cons_append, rows, ih opened]

theorem endsLine_append (closed : first.endsLine) (closedRest : bytes.endsLine) :
    (first ++ bytes).endsLine := by
  unfold endsLine at *
  rw [List.getLast?_append]
  cases last : bytes.getLast? with
  | none => simpa using closed
  | some byte => simpa [last] using closedRest

/-- Contents that are closed and put behind each other have the lines of all of them. -/
theorem rows_flatMap_closeLine (closed : first.endsLine) (parts : List Bytes) :
    (first ++ parts.flatMap closeLine).endsLine ∧
      rows (first ++ parts.flatMap closeLine) = rows first ++ parts.flatMap rows := by
  induction parts generalizing first with
  | nil => simpa using closed
  | cons part rest ih =>
    obtain ⟨ends, same⟩ := ih (endsLine_append closed (endsLine_closeLine part))
    rw [List.append_assoc] at ends same
    refine ⟨by rwa [List.flatMap_cons], ?_⟩
    rw [List.flatMap_cons, same, rows_append closed, rows_closeLine, List.flatMap_cons,
      List.append_assoc]

end Bytes

namespace Staging

open OpsContent.Path Disk

/-- Merging puts whole lines behind each other.  Directories are merged one after another into
one that holds only files, each empty or closed by a line feed.  If none of them is the destination
itself, a file with a path that can be used comes to hold its old content and the files of its name
in the sources, in their order, each closed by a line feed.  So it is closed again, its lines are
those of the old file and of the sources, and another order of the sources gives the same lines as
often.  All else stays as it was, and a source that is not there changes nothing. -/
theorem mergeResources_concatenates {ρ : Type} {sources : List Path} {destination : Path}
    {world : World ρ} (named : world.disk.WellNamed)
    (stands : world.disk.isDirectory destination = true)
    (files : ∀ name node, world.disk.get? (world.disk.place destination ++ [name]) = some node →
      ∃ content : Bytes, node = .file content ∧ content.endsLine = true)
    (aside : ∀ source ∈ sources, world.disk.isDirectory source = true →
      world.disk.place source ≠ world.disk.place destination) :
    let merging (sources : List Path) : Disk := ((sources.forM fun source =>
      mergeResources source destination : StateM (World ρ) Unit) world).2.disk
    let place (name : String) : Location := world.disk.place destination ++ [name]
    let parts (name : String) : List Bytes := sources.filterMap (part? world.disk · name)
    (∀ name, IsEntry name → parts name = [] ∨ Room destination name →
        (merging sources).get? (place name) = grown world.disk (place name) (parts name) ∧
        ((merging sources).contentAt (place name)).endsLine = true ∧
        (∀ row ∈ ((merging sources).contentAt (place name)).rows,
          row ∈ (world.disk.contentAt (place name)).rows ∨ ∃ part ∈ parts name, row ∈ part.rows) ∧
        ∀ others, others.Perm sources → ((merging others).contentAt (place name)).rows.Perm
          ((merging sources).contentAt (place name)).rows) ∧
      (∀ location, (∀ name, location ≠ place name) →
        (merging sources).get? location = world.disk.get? location) ∧
      ∀ source, world.disk.pathExists source = false →
        mergeResources source destination world = ((), world) := by
  intro merging place parts
  have merges : ∀ others, others.Perm sources → FilesDiffer (world.disk.place destination) world.disk
      (merging others) ∧ ∀ name, IsEntry name → parts name = [] ∨ Room destination name →
        world.disk.get? (place name) ≠ some .directory → (merging others).get? (place name) =
          grown world.disk (place name) (others.filterMap (part? world.disk · name)) := by
    intro others perm
    obtain ⟨differ, grows⟩ := get?_foldl_merged named stands
      (fun source member => aside source (perm.subset member)) (FilesDiffer.refl _ world.disk)
    rw [← disk_forM_mergeResources] at differ
    refine ⟨differ, fun name entry fine notDirectory => ?_⟩
    have same : others.filterMap (part? world.disk · name) = [] ↔ parts name = [] := by
      rw [← List.length_eq_zero_iff, (perm.filterMap _).length_eq, List.length_eq_zero_iff]
    rw [← grows name entry (by rwa [same]) notDirectory, ← disk_forM_mergeResources]
  refine ⟨fun name entry fine => ?_, (merges sources (.refl _)).1.elsewhere, ?_⟩
  · have notDirectory : world.disk.get? (place name) ≠ some .directory := by
      intro isDirectory
      obtain ⟨_, isFile, -⟩ := files name _ isDirectory
      cases isFile
    have closed : (world.disk.contentAt (place name)).endsLine = true := by
      unfold contentAt
      split
      next found =>
        obtain ⟨_, same, ends⟩ := files name _ found
        cases same
        exact ends
      · rfl
    have grows := fun others perm => (merges others perm).2 name entry fine notDirectory
    have content := fun others perm => contentAt_of_grown (grows others perm)
    have lines := Bytes.rows_flatMap_closeLine closed
    refine ⟨grows sources (.refl _), ?_, fun row member => ?_, fun others perm => ?_⟩
    · rw [content sources (.refl _)]
      exact (lines (parts name)).1
    · rw [content sources (.refl _), (lines _).2, List.mem_append, List.mem_flatMap] at member
      exact member
    · rw [content others perm, content sources (.refl _), (lines _).2, (lines _).2]
      exact (((perm.filterMap _).flatMap_right _).append_left _)
  · intro source missing
    rw [mergeResources, bind_of_eq (World.readDisk_eq world)]
    simp only [missing, Bool.false_eq_true, if_false]
    rfl

/-- The second of two resource directories after some were merged into it. -/
def mergedIntoTwo (sources : List String) : Bytes :=
  (((sources.map ofText).forM fun source => mergeResources source (ofText "two") :
    StateM (World Unit) Unit) (twoResources (Bytes.ofText "y") (Bytes.ofText "x\n"))).2.disk.contentAt
      ["two", "texts"]

theorem mergeResources_concatenates_twoResources :
    (twoResources (Bytes.ofText "y") (Bytes.ofText "x\n")).disk.isDirectory (ofText "two") = true ∧
      mergedIntoTwo ["one", "none"] = Bytes.ofText "x\ny\n" := by
  have stands : (twoResources (Bytes.ofText "y") (Bytes.ofText "x\n")).disk.isDirectory
    (ofText "two") = true := by decide
  have files : ∀ name node, (twoResources (Bytes.ofText "y") (Bytes.ofText "x\n")).disk.get?
      ["two", name] = some node → ∃ content : Bytes, node = .file content ∧
        content.endsLine = true := by
    intro name node found
    by_cases texts : "texts" = name
    · subst texts
      exact ⟨Bytes.ofText "x\n", (Option.some.inj found).symm, by decide⟩
    · simp [twoResources, get?, lookup, texts] at found
  have law := mergeResources_concatenates (wellNamed_twoResources _ _) stands files
    (by decide : ∀ source ∈ ["one", "none"].map ofText, _)
  exact ⟨stands, contentAt_of_grown (law.1 "texts" (by decide) (.inr (by decide))).1⟩

/-- The second of two resource directories by a long way, each piece of which stays where it is. -/
def longWay (count : Nat) : Path :=
  ⟨false, List.replicate count "." ++ ["two"]⟩

theorem utf8ByteSize_longWay (count : Nat) :
    (longWay count).text.utf8ByteSize = 2 * count + 3 := by
  have dot : ".".utf8ByteSize = 1 := by decide
  have two : "two".utf8ByteSize = 3 := by decide
  simp [longWay, text, utf8ByteSize_intercalate, dot, two]
  omega

theorem isDirectory_longWay {count : Nat} (short : 2 * count + 3 < pathLimit) (first second : Bytes) :
    (twoResources first second).disk.isDirectory (longWay count) := by
  have idle : ∀ piece ∈ List.replicate count ".", isIdle piece := by
    intro piece member
    rw [List.eq_of_mem_replicate member]
    rfl
  have walked : (twoResources first second).disk.walk [] (longWay count).pieces = .ok ["two"] := by
    rw [longWay, walk_append, walk_idle rfl idle]
    rfl
  have isPlace : (twoResources first second).disk.place (longWay count) = ["two"] :=
    (walk_eq_follow walked).symm
  refine isDirectory_iff.2 ⟨refuse_eq_ok_iff.2 ⟨?_, ?_, ?_⟩, by rw [isPlace]; exact walked,
    by rw [isPlace]; rfl⟩
  · intro piece member
    rcases List.mem_append.1 member with isDot | isTwo
    · rw [List.eq_of_mem_replicate isDot]
      decide
    · rw [List.mem_singleton.1 isTwo]
      decide
  · rintro ⟨-, blank⟩
    have last := congrArg List.getLast? blank
    simp [longWay] at last
  · rwa [utf8ByteSize_longWay]

/-- The path to the file would have as many bytes as the limit. -/
theorem not_room_longWay : ¬ Room (longWay 2044) "texts" := by
  intro room
  have texts : "texts".utf8ByteSize = 5 := by decide
  have size := (utf8ByteSize_join (longWay 2044) room.entry).1
  have short := (refuse_eq_ok_iff.1 room.accepted).2.2
  rw [utf8ByteSize_longWay, texts] at size
  unfold pathLimit at short
  omega

/-- A directory that is merged into itself adds what others have added to it.  And a file whose path
in the destination would be too long is not merged. -/
theorem mergedIntoTwo_differs :
    mergedIntoTwo ["one", "two"] = Bytes.ofText "x\ny\nx\ny\n" ∧
      mergedIntoTwo ["two", "one"] = Bytes.ofText "x\nx\ny\n" ∧
      ¬ (mergedIntoTwo ["one", "two"]).rows.Perm (mergedIntoTwo ["two", "one"]).rows ∧
      ∀ first second : Bytes,
        (twoResources first second).disk.isDirectory (longWay 2044) = true ∧
          (mergeResources (ofText "one") (longWay 2044) (twoResources first second)).2.disk =
            (twoResources first second).disk := by
  refine ⟨by decide +kernel, by decide +kernel, by decide +kernel, fun first second => ?_⟩
  have stands := isDirectory_longWay (by decide : 2 * 2044 + 3 < pathLimit) first second
  have listed : (twoResources first second).disk.listNames (ofText "one") = .ok ["texts"] := rfl
  obtain ⟨isSource, names⟩ := listNames_eq_ok_iff.1 listed
  refine ⟨stands, ?_⟩
  rw [disk_mergeResources, merged_of_isDirectory isSource (makeDirectories_of_isDirectory stands),
    ← names, List.foldl_cons, List.foldl_nil, appended_of_noRoom (by decide) not_room_longWay]

end Staging

end OpsContent
