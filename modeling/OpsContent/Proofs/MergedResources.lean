import OpsContent.Proofs.Listings
import OpsContent.Proofs.PropertyEntries
import OpsContent.Staging.Resources

/-!
# Merged resources

Merging resource directories appends the file of each name, closed by a line feed, to the file of
that name in the destination, and touches nothing else.  So a merged property file holds the
entries of the files it was made of, as long as they can be read in one encoding and no file but
the last one breaks off within an entry.
-/

namespace OpsContent

open OpsContent.Path Disk List

namespace Staging

variable {ρ : Type} {location top : Location}

/-! ## Merging as a change of the disk -/

/-- The disk after the file of a name was appended, or the same disk if it was not. -/
def appended (source destination : Path) (disk : Disk) (name : String) : Disk :=
  if disk.isFile (source.join name) then
    match appendResource (source.join name) (destination.join name) disk with
    | .ok after => after
    | .error _ => disk
  else disk

theorem disk_mergeFiles (source destination : Path) (names : List String) (world : World ρ) :
    (mergeFiles source destination names world).2.disk =
      names.foldl (appended source destination) world.disk := by
  induction names generalizing world with
  | nil => rfl
  | cons name rest ih =>
    change ((if world.disk.isFile (source.join name) then _ else _ :
      StateM (World ρ) Unit) world).2.disk = _
    rw [foldl_cons, appended]
    split
    · cases appendResource (source.join name) (destination.join name) world.disk with
      | error cause => exact ih _
      | ok after => exact ih _
    · exact ih _

/-- The disk after a resource directory was merged into another one. -/
def merged (destination : Path) (disk : Disk) (source : Path) : Disk :=
  if disk.pathExists source then
    match disk.listNames source with
    | .error _ => disk
    | .ok names =>
      match makeDirectories destination disk with
      | (.error _, opened) => opened
      | (.ok (), opened) => names.foldl (appended source destination) opened
  else disk

theorem disk_mergeResources (source destination : Path) (world : World ρ) :
    (mergeResources source destination world).2.disk = merged destination world.disk source := by
  rw [mergeResources, bind_of_eq (World.readDisk_eq world), merged]
  dsimp only
  split
  · cases world.disk.listNames source with
    | error cause => rfl
    | ok names =>
      cases making : makeDirectories destination world.disk with
      | mk outcome opened =>
        have made : World.onDisk (makeDirectories destination) world =
            (outcome, { world with disk := opened }) := by
          rw [World.onDisk, making]
        dsimp only
        rw [bind_of_eq made]
        cases outcome with
        | error cause => rfl
        | ok _ => exact disk_mergeFiles source destination names _
  · rfl

theorem disk_forM_mergeResources (sources : List Path) (destination : Path) (world : World ρ) :
    ((sources.forM fun source => mergeResources source destination : StateM (World ρ) Unit)
      world).2.disk = sources.foldl (merged destination) world.disk := by
  induction sources generalizing world with
  | nil => rfl
  | cons source rest ih =>
    rw [foldl_cons, ← disk_mergeResources]
    exact ih _

/-! ## One file -/

section

variable {source destination : Path} {disk : Disk} {name other : String} {now : Disk}

theorem appended_cases (source : Path) (entry : IsEntry other) :
    appended source destination disk other = disk ∨
      ∃ content, disk.get? (disk.place destination ++ [other]) ≠ some .directory ∧
        appended source destination disk other =
          disk.put (disk.place destination ++ [other]) (.file content) := by
  unfold appended
  split
  · cases done : appendResource (source.join other) (destination.join other) disk with
    | error cause => exact .inl rfl
    | ok after =>
      right
      unfold appendResource at done
      split at done
      · cases done
      · obtain ⟨-, notDirectory, content, rfl⟩ := updateFile_ok done
        rw [place_join disk destination entry] at notDirectory ⊢
        exact ⟨_, notDirectory, rfl⟩
  · exact .inl rfl

theorem appended_of_noRoom (entry : IsEntry other) (noRoom : ¬ Room destination other) :
    appended source destination disk other = disk := by
  unfold appended
  split
  · cases done : appendResource (source.join other) (destination.join other) disk with
    | error cause => rfl
    | ok after =>
      unfold appendResource at done
      split at done
      · cases done
      · exact absurd (room_of_updateFile entry done) noRoom
  · rfl

theorem filesDiffer_appended (source : Path) (entry : IsEntry other) :
    FilesDiffer (disk.place destination) disk (appended source destination disk other) := by
  rcases appended_cases source entry with same | ⟨content, notDirectory, put⟩
  · rw [same]
    exact FilesDiffer.refl _ disk
  · rw [put]
    exact FilesDiffer.put disk _ entry content notDirectory

theorem get?_appended_of_ne (source : Path) (entry : IsEntry other) (different : name ≠ other) :
    (appended source destination disk other).get? (disk.place destination ++ [name]) =
      disk.get? (disk.place destination ++ [name]) := by
  rcases appended_cases source entry with same | ⟨content, -, put⟩
  · rw [same]
  · rw [put, get?_put _ _ _ _ (by simp), if_neg (by simpa using different)]

/-- What stands at a place after contents were appended to the file there, each closed by a line
feed. -/
def grown (disk : Disk) (location : Location) (parts : List Bytes) : Option Node :=
  if parts.isEmpty then disk.get? location
  else some (.file (disk.contentAt location ++ parts.flatMap Bytes.closeLine))

theorem contentAt_of_grown {parts : List Bytes}
    (grows : now.get? location = grown disk location parts) :
    now.contentAt location = disk.contentAt location ++ parts.flatMap Bytes.closeLine := by
  rw [contentAt, grows]
  cases parts with
  | nil => simp [grown, contentAt]
  | cons part rest => simp [grown]

theorem grown_append {first second : List Bytes}
    (grows : now.get? location = grown disk location first) :
    grown now location second = grown disk location (first ++ second) := by
  rw [grown, contentAt_of_grown grows, grows]
  cases second with
  | nil => simp
  | cons part rest => simp [grown]

/-- The content of a file that a directory holds. -/
def part? (disk : Disk) (directory : Path) (name : String) : Option Bytes :=
  if disk.isDirectory directory then (disk.readFile (directory.join name)).toOption else none

theorem get?_appended (stands : disk.isDirectory destination)
    (isSource : disk.isDirectory source)
    (fine : part? disk source name = none ∨ Room destination name)
    (notDirectory : disk.get? (disk.place destination ++ [name]) ≠ some .directory) :
    (appended source destination disk name).get? (disk.place destination ++ [name]) =
      grown disk (disk.place destination ++ [name]) (part? disk source name).toList := by
  rw [part?, if_pos isSource] at *
  unfold appended
  split
  next isFile =>
    obtain ⟨content, found⟩ := isFile_iff.1 isFile
    have read := readFile_eq_ok_iff.2 found
    rw [read] at fine ⊢
    have room := fine.resolve_left (by simp [Except.toOption])
    simp [appendResource, read, appendFile, updateFile_join stands room _ notDirectory, get?_put,
      grown, Except.toOption]
  next noFile =>
    cases read : disk.readFile (source.join name) with
    | error cause => rfl
    | ok content => exact absurd (isFile_iff.2 ⟨content, readFile_eq_ok_iff.1 read⟩) noFile

end

/-! ## One directory -/

section

variable {source destination : Path} {disk now : Disk} {name : String} {names : List String}

theorem filesDiffer_foldl_appended (source : Path) {names : List String}
    (entries : ∀ other ∈ names, IsEntry other) :
    FilesDiffer (disk.place destination) disk (names.foldl (appended source destination) disk) := by
  induction names generalizing disk with
  | nil => exact FilesDiffer.refl _ disk
  | cons other rest ih =>
    have here := @filesDiffer_appended destination disk other source (entries other (by simp))
    have later := @ih (appended source destination disk other)
      (forall_mem_cons.1 entries).2
    rw [place_congr here.current] at later
    exact here.trans later

/-- Files in one directory do not tell what another one holds. -/
theorem part?_eq (source : Path) (differ : FilesDiffer top disk now) (entry : IsEntry name)
    (aside : disk.isDirectory source → disk.place source ≠ top) :
    part? now source name = part? disk source name := by
  have same : now.isDirectory source = disk.isDirectory source := by
    rw [Bool.eq_iff_iff, differ.isDirectory_iff]
  rw [part?, part?, same]
  split
  next isSource =>
    congr 1
    refine (readFile_congr differ.current.symm fun location onWay => ?_).symm
    refine differ.onWay_join isSource entry (differ.elsewhere _ fun other here => ?_) onWay
    exact aside isSource (append_inj_left' here rfl)
  · rfl

/-- The file of a name grows by the file of that name in the source, if the name is among those
that are merged. -/
theorem get?_foldl_appended (entries : ∀ other ∈ names, IsEntry other) (nodup : names.Nodup)
    (entry : IsEntry name) (stands : disk.isDirectory destination)
    (isSource : disk.isDirectory source)
    (aside : disk.place source ≠ disk.place destination)
    (fine : part? disk source name = none ∨ Room destination name)
    (notDirectory : disk.get? (disk.place destination ++ [name]) ≠ some .directory) :
    (names.foldl (appended source destination) disk).get? (disk.place destination ++ [name]) =
      grown disk (disk.place destination ++ [name])
        (if name ∈ names then (part? disk source name).toList else []) := by
  induction names generalizing disk with
  | nil => rfl
  | cons other rest ih =>
    obtain ⟨absent, nodupRest⟩ := nodup_cons.1 nodup
    have otherEntry := entries other (by simp)
    have here := @filesDiffer_appended destination disk other source otherEntry
    have samePlace := place_congr here.current destination
    have samePart := part?_eq source here entry fun _ => aside
    have later := @ih (appended source destination disk other)
      (forall_mem_cons.1 entries).2 nodupRest
      (here.isDirectory stands) (here.isDirectory isSource)
      (by rwa [samePlace, place_congr here.current]) (by rwa [samePart])
      (by rwa [samePlace, ne_eq, here.directories])
    have step : (appended source destination disk other).get? (disk.place destination ++ [name]) =
        grown disk (disk.place destination ++ [name])
          (if name = other then (part? disk source name).toList else []) := by
      split
      next same =>
        subst same
        exact get?_appended stands isSource fine notDirectory
      next different => exact get?_appended_of_ne source otherEntry different
    rw [samePlace, samePart, grown_append step] at later
    rw [foldl_cons, later]
    by_cases same : name = other
    · simp [same, absent]
    · simp [same]

end

/-! ## Several directories -/

section

variable {source destination : Path} {first now : Disk} {name : String} {sources : List Path}

theorem merged_of_notDirectory (notDirectory : ¬ now.isDirectory source) :
    merged destination now source = now := by
  unfold merged
  split
  · cases listed : now.listNames source with
    | error cause => rfl
    | ok names => exact absurd (listNames_eq_ok_iff.1 listed).1 notDirectory
  · rfl

theorem merged_of_isDirectory {opened : Disk} (isSource : now.isDirectory source)
    (made : makeDirectories destination now = (.ok (), opened)) :
    merged destination now source =
      (now.children (now.place source)).foldl (appended source destination) opened := by
  have listed := listNames_eq_ok_iff.2 ⟨isSource, rfl⟩
  have present : now.pathExists source := by
    rw [pathExists, isDirectory_iff_node?.1 isSource]
    rfl
  rw [merged, if_pos present, listed, made]

/-- The files of a directory are among its entries. -/
theorem mem_children_of_part? (entry : IsEntry name) (found : part? now source name ≠ none) :
    name ∈ now.children (now.place source) := by
  rw [part?] at found
  split at found
  · cases read : now.readFile (source.join name) with
    | error cause => exact absurd (by rw [read]; rfl) found
    | ok content =>
      have stood := get?_of_node? (readFile_eq_ok_iff.1 read)
      rw [place_join now source entry] at stood
      exact mem_children_iff.2 (by rw [stood]; rfl)
  · exact absurd rfl found

/-- Merging a directory into one that stands touches only files in the latter one, and the file of a
name grows by the file of that name. -/
theorem get?_merged (named : now.WellNamed) (stands : now.isDirectory destination)
    (aside : now.isDirectory source → now.place source ≠ now.place destination) :
    FilesDiffer (now.place destination) now (merged destination now source) ∧
      ∀ name, IsEntry name → (part? now source name = none ∨ Room destination name) →
        now.get? (now.place destination ++ [name]) ≠ some .directory →
        (merged destination now source).get? (now.place destination ++ [name]) =
          grown now (now.place destination ++ [name]) (part? now source name).toList := by
  by_cases isSource : now.isDirectory source
  · have entries : ∀ other ∈ now.children (now.place source), IsEntry other :=
      fun other => isEntry_of_mem_children (named.namedBelow _)
    rw [merged_of_isDirectory isSource (makeDirectories_of_isDirectory stands)]
    refine ⟨filesDiffer_foldl_appended source entries, fun name entry fine notDirectory => ?_⟩
    rw [get?_foldl_appended entries (nodup_children _ _) entry stands isSource (aside isSource) fine
      notDirectory]
    split
    · rfl
    next absent =>
      rw [not_ne_iff.1 (mt (mem_children_of_part? entry) absent)]
      rfl
  · rw [merged_of_notDirectory isSource]
    refine ⟨FilesDiffer.refl _ _, fun name _ _ _ => ?_⟩
    rw [part?, if_neg isSource]
    rfl

/-- The file of a name grows by the files of that name in all sources, in the order in which they
are merged. -/
theorem get?_foldl_merged (named : first.WellNamed) (stands : first.isDirectory destination)
    (aside : ∀ source ∈ sources, first.isDirectory source →
      first.place source ≠ first.place destination)
    (differ : FilesDiffer (first.place destination) first now) :
    FilesDiffer (first.place destination) first (sources.foldl (merged destination) now) ∧
      ∀ name, IsEntry name →
        (sources.filterMap (part? first · name) = [] ∨ Room destination name) →
        first.get? (first.place destination ++ [name]) ≠ some .directory →
        (sources.foldl (merged destination) now).get? (first.place destination ++ [name]) =
          grown now (first.place destination ++ [name])
            (sources.filterMap (part? first · name)) := by
  induction sources generalizing now with
  | nil => exact ⟨differ, fun _ _ _ _ => rfl⟩
  | cons source rest ih =>
    have samePlace := place_congr differ.current destination
    have inside : ∀ name ∈ first.place destination, IsEntry name :=
      named _ (by rw [(isDirectory_iff.1 stands).2.2]; rfl)
    obtain ⟨step, grows⟩ := @get?_merged source destination now
      (differ.wellNamed named inside) (differ.isDirectory stands) fun isSource => by
        rw [samePlace, place_congr differ.current]
        exact aside source (by simp) ((differ.isDirectory_iff source).1 isSource)
    rw [samePlace] at step grows
    obtain ⟨last, content⟩ := ih (forall_mem_cons.1 aside).2
      (differ.trans step)
    refine ⟨last, fun name entry fine notDirectory => ?_⟩
    have samePart := part?_eq source differ entry (aside source (by simp))
    have whole : (source :: rest).filterMap (part? first · name) =
        (part? first source name).toList ++ rest.filterMap (part? first · name) := by
      cases found : part? first source name <;> simp [found]
    rw [whole, append_eq_nil_iff, Option.toList_eq_nil_iff] at fine
    have here := grows name entry (by rw [samePart]; exact fine.imp And.left id)
      (by rwa [ne_eq, differ.directories])
    rw [samePart] at here
    rw [foldl_cons, content name entry (fine.imp And.right id) notDirectory, grown_append here,
      whole]

end

/-! ## A directory that is made -/

/-- What a source has to merge under a name. -/
def resource (disk : Disk) (directory : Path) (name : String) : Bytes :=
  if disk.isDirectory directory then disk.contentOf (directory.join name) else []

theorem resource_eq (disk : Disk) (directory : Path) (name : String) :
    resource disk directory name = (part? disk directory name).getD [] := by
  unfold resource part? contentOf
  split
  · cases read : disk.readFile (directory.join name) with
    | ok content => simp [readFile_eq_ok_iff.1 read, Except.toOption]
    | error cause =>
      split
      next content found => simp [readFile_eq_ok_iff.2 found] at read
      · rfl
  · rfl

theorem flatMap_filterMap_part? (disk : Disk) (sources : List Path) (name : String) :
    (sources.filterMap (part? disk · name)).flatMap Bytes.closeLine =
      sources.flatMap fun source => (resource disk source name).closeLine := by
  induction sources with
  | nil => rfl
  | cons source rest ih =>
    rw [flatMap_cons, ← ih, resource_eq]
    cases found : part? disk source name <;> simp [found]

/-- A directory that files can be gathered in: it stands, or it can be made without anything else
being made. -/
structure Gathers (disk : Disk) (destination : Path) : Prop where
  makes : (makeDirectories destination disk).1 = .ok ()
  stands : (makeDirectories destination disk).2.isDirectory destination = true
  above : ∀ location, disk.OnWay destination location → location ≠ disk.place destination →
    (disk.get? location).isSome = true
  named : ∀ name ∈ disk.place destination, IsEntry name

section

variable {source destination : Path} {first now : Disk} {name : String} {sources : List Path}

/-- The destination is there before anything is merged. -/
theorem Gathers.opened (gathers : Gathers first destination) :
    ∃ opened, makeDirectories destination first = (.ok (), opened) ∧
      opened.isDirectory destination ∧
      OpensOnly (· = first.place destination) first opened := by
  have opens := makeDirectories_opensOnly destination first
  cases made : makeDirectories destination first with
  | mk outcome opened =>
    have makes := gathers.makes
    have stands := gathers.stands
    rw [made] at makes opens stands
    cases makes
    refine ⟨opened, rfl, stands, opens.current, ?_⟩
    intro location
    rcases opens.nodes location with same | ⟨onWay, free, stands⟩
    · exact .inl same
    · right
      refine ⟨?_, free, stands⟩
      by_contra other
      have stood := gathers.above location onWay other
      rw [free] at stood
      cases stood

theorem outside_of_opensOnly {opened : Disk} (opens : OpensOnly (· = top) now opened)
    (other : location ≠ top) : opened.get? location = now.get? location :=
  (opens.nodes location).resolve_right fun here => other here.1

theorem resource_of_isDirectory (stands : now.isDirectory destination)
    (room : Room destination name) :
    resource now destination name = now.contentAt (now.place destination ++ [name]) := by
  rw [resource, if_pos stands, contentOf, node?_join stands room, contentAt]

/-- The file of a name that is not there yet comes to hold the files of that name in all sources, in
the order in which they are merged. -/
theorem resource_foldl_merged (named : first.WellNamed) (gathers : Gathers first destination)
    (room : Room destination name)
    (fresh : first.get? (first.place destination ++ [name]) = none)
    (apart : ∀ source ∈ sources, ∀ location, first.OnWay (source.join name) location →
      isBelow (first.place destination) location = false) :
    resource (sources.foldl (merged destination) first) destination name =
      sources.flatMap fun source => (resource first source name).closeLine := by
  obtain ⟨opened, made, stands, opens⟩ := gathers.opened
  have samePlace := place_congr opens.current
  have away : ∀ source ∈ sources, first.place source ≠ first.place destination ∧
      part? opened source name = part? first source name := by
    intro source member
    have aside : ∀ location, first.OnWay (source.join name) location →
        location ≠ first.place destination := by
      rintro location onWay rfl
      have notBelow := apart source member _ onWay
      rw [isBelow_iff.2 (prefix_refl _)] at notBelow
      cases notBelow
    have same : ∀ location, opened.OnWay (source.join name) location →
        opened.get? location = first.get? location := fun location onWay =>
      outside_of_opensOnly opens (aside location (onWay_congr opens.current onWay))
    refine ⟨aside _ ((onWay_place first source).join room.entry), ?_⟩
    rw [part?, part?, readFile_congr opens.current same, isDirectory, isDirectory,
      node?_congr opens.current fun location onWay => same location (onWay.join room.entry)]
  induction sources with
  | nil =>
    rw [foldl_nil]
    by_cases isThere : first.isDirectory destination
    · rw [resource_of_isDirectory isThere room, contentAt, fresh]
      rfl
    · rw [resource, if_neg isThere]
      rfl
  | cons source rest ih =>
    by_cases isSource : first.isDirectory source
    · have openedNamed : opened.WellNamed := by
        intro location stood
        by_cases here : location = first.place destination
        · exact here ▸ gathers.named
        · rw [outside_of_opensOnly opens here] at stood
          exact named location stood
      have entries : ∀ other ∈ first.children (first.place source), IsEntry other :=
        fun other => isEntry_of_mem_children (named.namedBelow _)
      have free : opened.get? (opened.place destination ++ [name]) = none := by
        rw [samePlace, outside_of_opensOnly opens (by simp), fresh]
      obtain ⟨differ, content⟩ := get?_foldl_merged openedNamed stands
        (fun other member _ => by
          rw [samePlace, samePlace]
          exact (away other (mem_cons_of_mem source member)).1)
        (filesDiffer_foldl_appended source entries)
      have grows := content name room.entry (.inr room) (by simp [free])
      rw [grown_append (get?_foldl_appended entries (nodup_children _ _) room.entry stands
        (isDirectory_of_directories opens.current (fun _ _ => opens.stands) isSource) (by
          rw [samePlace, samePlace]
          exact (away source (by simp)).1) (.inr room) (by simp [free]))] at grows
      rw [foldl_cons, merged_of_isDirectory isSource made,
        resource_of_isDirectory (differ.isDirectory stands) room, place_congr differ.current,
        contentAt_of_grown grows, contentAt, free, nil_append, ← flatMap_filterMap_part?]
      have here : (if name ∈ first.children (first.place source) then
          (part? opened source name).toList else []) = (part? first source name).toList := by
        rw [(away source (by simp)).2]
        split
        · rfl
        next absent => rw [not_ne_iff.1 (mt (mem_children_of_part? room.entry) absent)]; rfl
      have later : rest.filterMap (part? opened · name) = rest.filterMap (part? first · name) :=
        filterMap_congr fun other member => (away other (by simp [member])).2
      rw [here, later]
      cases found : part? first source name <;> simp [found]
    · rw [foldl_cons, merged_of_notDirectory isSource,
        ih (forall_mem_cons.1 apart).2
          (forall_mem_cons.1 away).2, flatMap_cons, resource,
        if_neg isSource]
      rfl

end

/-- Merging keeps localizations apart.  The entries of a merged property file are those of
the files it was made of, in the order in which these were merged, if the files can be read in one
encoding, none ends in a carriage return, and behind a file that breaks off within an entry all
others are empty. -/
theorem filterBytes_mergeResources {ρ : Type} (sources : List Path) (destination : Path)
    (name start : String) (world : World ρ) (named : world.disk.WellNamed)
    (gathers : Gathers world.disk destination) (room : Room destination name)
    (fresh : world.disk.get? (world.disk.place destination ++ [name]) = none)
    (apart : ∀ source ∈ sources, ∀ location, world.disk.OnWay (source.join name) location →
      isBelow (world.disk.place destination) location = false)
    (encoding : Properties.SameEncoding
      (sources.map fun source => resource world.disk source name))
    (noReturn : ∀ source ∈ sources, (resource world.disk source name).getLast? ≠ some 0x0D)
    (closed : sources.Pairwise fun earlier later =>
      Properties.endsOpen (resource world.disk earlier name) = false ∨
        resource world.disk later name = []) :
    Properties.filterBytes (resource ((sources.forM fun source =>
        mergeResources source destination : StateM (World ρ) Unit) world).2.disk destination name)
        start =
      sources.flatMap fun source =>
        Properties.filterBytes (resource world.disk source name) start := by
  have parts := @Properties.filterBytes_flatMap_closeLine
    (sources.map fun source => resource world.disk source name) encoding
    (by simpa using noReturn) (List.pairwise_map.2 closed) start
  rw [disk_forM_mergeResources, resource_foldl_merged named gathers room fresh apart]
  rwa [List.flatMap_map, List.flatMap_map] at parts

/-- A disk with two resource directories, each with a file of localized texts. -/
def twoResources (first second : Bytes) : World Unit where
  disk := ⟨[], [(["one"], .directory), (["one", "texts"], .file first),
    (["two"], .directory), (["two", "texts"], .file second)]⟩
  site := ⟨[], fun _ => "", 0, ()⟩

def resourcePaths : List Path :=
  ["one", "none", "two"].map Path.ofText

/-- The file that is made of two resource directories. -/
def mergedTexts (first second : Bytes) : Bytes :=
  resource ((resourcePaths.forM fun source => mergeResources source (Path.ofText "all") :
    StateM (World Unit) Unit) (twoResources first second)).2.disk (Path.ofText "all") "texts"

theorem wellNamed_twoResources (first second : Bytes) :
    (twoResources first second).disk.WellNamed := by
  apply wellNamed_of_nodes
  simp only [twoResources, forall_mem_cons, not_mem_nil, false_implies, implies_true,
    and_true]
  decide

/-- An entry over two lines, a carriage return before a line feed and a missing last line end are
no obstacle. -/
theorem filterBytes_mergedTexts_continued :
    Properties.filterBytes (mergedTexts (Bytes.ofText "# ä\nview.ä=1\\\r\n 2\nother=3")
        (Bytes.ofText "view.ö=4\n")) "view." = Bytes.ofText "view.ä=1\\\n 2\nview.ö=4\n" := by
  have law := filterBytes_mergeResources resourcePaths (Path.ofText "all") "texts" "view."
    (twoResources (Bytes.ofText "# ä\nview.ä=1\\\r\n 2\nother=3") (Bytes.ofText "view.ö=4\n"))
    (wellNamed_twoResources _ _)
    ⟨by decide, by decide, forall_onWay_iff.2 (by decide), by decide⟩
    ⟨by decide, by decide, by decide⟩ (by decide)
    (fun source member => forall_onWay_iff.2 (by revert source; decide))
    (Or.inl (by decide)) (by decide) (by decide)
  rw [mergedTexts, law]
  decide +kernel

/-- A file that breaks off within an entry swallows the first entry of the next one, a carriage
return at the end of a file is lost, and a file that is no UTF-8 changes how all others are
read. -/
theorem mergedTexts_differ :
    let breaksOff := Bytes.ofText "view.a=1\\"
    let next := Bytes.ofText "view.b=2\n"
    let returning := Bytes.ofText "view.a=1\r"
    let umlaut := Bytes.ofText "view.ä=1\n"
    let latin : Bytes := [0x23, 0xE4, 0x0A]
    Properties.filterBytes (mergedTexts breaksOff next) "view.b" = [] ∧
      Properties.filterBytes breaksOff "view.b" ++ Properties.filterBytes next "view.b" = next ∧
      Properties.filterBytes (mergedTexts returning []) "view." = Bytes.ofText "view.a=1\n" ∧
      Properties.filterBytes returning "view." ++ Properties.filterBytes [] "view." =
        Bytes.ofText "view.a=1\r\n" ∧
      Properties.filterBytes (mergedTexts umlaut latin) "view.ä" = [] ∧
      Properties.filterBytes umlaut "view.ä" ++ Properties.filterBytes latin "view.ä" = umlaut := by
  decide +kernel

end Staging

end OpsContent
