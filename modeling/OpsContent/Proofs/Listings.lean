import Mathlib.Algebra.Order.Ring.Nat
import Mathlib.Data.List.Infix
import OpsContent.Proofs.Entries

/-!
# Directories and what they hold

A listing holds each name once and exactly the names that stand in the directory.  A path into a
directory that stands leads to the entry of its name, so that reading and writing through it come
down to that one place, and what a path reads depends only on what stands on its way.
-/

namespace OpsContent.Disk

open OpsContent.Path List

variable {names : List String} {location : Location} {right : Disk}
variable {left : Disk} {disk : Disk} {path : Path} {name : String} {node : Node}

/-! ## Listings -/

theorem mem_insertName {other : String} :
    other ∈ insertName name names ↔ other = name ∨ other ∈ names := by
  induction names with
  | nil => simp [insertName]
  | cons first rest ih =>
    rw [insertName]
    split
    · simp
    · split
      next same => simp [same]
      · rw [mem_cons, ih, mem_cons, or_left_comm]

theorem sorted_insertName (name : String) (sorted : names.Pairwise (· < ·)) :
    (insertName name names).Pairwise (· < ·) := by
  induction names with
  | nil => simp [insertName]
  | cons first rest ih =>
    obtain ⟨above, tail⟩ := pairwise_cons.1 sorted
    rw [insertName]
    split
    next less =>
      refine pairwise_cons.2 ⟨?_, sorted⟩
      intro other member
      rcases mem_cons.1 member with rfl | later
      · exact less
      · exact String.lt_trans less (above other later)
    · split
      · exact sorted
      next notLess different =>
        refine pairwise_cons.2 ⟨?_, ih tail⟩
        intro other member
        rcases mem_insertName.1 member with rfl | later
        · by_contra notAbove
          exact different (String.le_antisymm (String.not_lt.1 notAbove) (String.not_lt.1 notLess))
        · exact above other later

/-- The names of a directory with that of a node, if the node stands in it. -/
def addChild (location : Location) (names : List String) (entry : Location × Node) : List String :=
  match entry.1.getLast? with
  | some name => if entry.1.dropLast = location then insertName name names else names
  | none => names

theorem children_eq_foldl (disk : Disk) (location : Location) :
    disk.children location = disk.nodes.foldl (addChild location) [] := rfl

theorem sorted_addChild (location : Location) (entry : Location × Node)
    (sorted : names.Pairwise (· < ·)) : (addChild location names entry).Pairwise (· < ·) := by
  unfold addChild
  split
  · split
    · exact sorted_insertName _ sorted
    · exact sorted
  · exact sorted

theorem mem_addChild {entry : Location × Node} :
    name ∈ addChild location names entry ↔ name ∈ names ∨ location ++ [name] = entry.1 := by
  obtain ⟨place, node⟩ := entry
  cases place using List.reverseRecOn with
  | nil => simp [addChild]
  | append_singleton parent last =>
    simp only [addChild, getLast?_append, getLast?_singleton, Option.some_or,
      dropLast_concat]
    split
    next here => rw [mem_insertName, here]; simp [or_comm]
    next elsewhere =>
      have other : location ++ [name] ≠ parent ++ [last] := by
        intro same
        exact elsewhere (append_inj_left' same rfl).symm
      simp [other]

theorem sorted_children (disk : Disk) (location : Location) :
    (disk.children location).Pairwise (· < ·) :=
  List.foldlRecOn disk.nodes (addChild location) .nil
    fun _ sorted entry _ => sorted_addChild location entry sorted

theorem nodup_children (disk : Disk) (location : Location) : (disk.children location).Nodup := by
  apply (sorted_children disk location).imp
  rintro first second less rfl
  exact String.lt_irrefl _ less

/-- The children are the names that hold something. -/
theorem mem_children_iff :
    name ∈ disk.children location ↔ (disk.get? (location ++ [name])).isSome := by
  have inside : location ++ [name] ≠ [] := by simp
  rw [get?, if_neg inside, isSome_lookup_iff, children_eq_foldl]
  suffices general : ∀ names, name ∈ disk.nodes.foldl (addChild location) names ↔
      name ∈ names ∨ location ++ [name] ∈ disk.nodes.map Prod.fst by simpa using general []
  induction disk.nodes with
  | nil => simp
  | cons entry rest ih =>
    intro names
    rw [foldl_cons, ih, mem_addChild, or_assoc, map_cons, mem_cons]

def contentAt (disk : Disk) (location : Location) : Bytes :=
  match disk.get? location with
  | some (.file content) => content
  | _ => []

/-- All locations below the top are made of names. -/
def NamedBelow (disk : Disk) (top : Location) : Prop :=
  ∀ rest, (disk.get? (top ++ rest)).isSome = true → ∀ name ∈ rest, IsEntry name

/-- All locations are made of names. -/
def WellNamed (disk : Disk) : Prop :=
  ∀ location, (disk.get? location).isSome = true → ∀ name ∈ location, IsEntry name

theorem WellNamed.namedBelow (named : disk.WellNamed) (top : Location) : disk.NamedBelow top :=
  fun rest stands name member => named (top ++ rest) stands name (by simp [member])

theorem NamedBelow.append {top : Location} (named : disk.NamedBelow top) (more : Location) :
    disk.NamedBelow (top ++ more) := by
  intro rest stands name member
  rw [append_assoc] at stands
  exact named _ stands name (by simp [member])

theorem isEntry_of_mem_children (named : disk.NamedBelow location)
    (member : name ∈ disk.children location) : IsEntry name :=
  named _ (mem_children_iff.1 member) name (by simp)

/-- Names of a disk can be checked one by one. -/
theorem wellNamed_of_nodes (named : ∀ entry ∈ disk.nodes, ∀ name ∈ entry.1, IsEntry name) :
    disk.WellNamed := by
  intro location stands name member
  by_cases root : location = []
  · simp [root] at member
  · rw [get?, if_neg root, isSome_lookup_iff] at stands
    obtain ⟨entry, inNodes, rfl⟩ := mem_map.1 stands
    exact named entry inNodes name member

theorem eq_of_sorted {left right : List String} (sortedLeft : left.Pairwise (· < ·))
    (sortedRight : right.Pairwise (· < ·)) (same : ∀ name, name ∈ left ↔ name ∈ right) :
    left = right := by
  have nodup : ∀ {names : List String}, names.Pairwise (· < ·) → names.Nodup := fun sorted =>
    sorted.imp fun less => by
      rintro rfl
      exact String.lt_irrefl _ less
  have ordered : ∀ first second : String, first ∈ left → second ∈ right → first < second →
      second < first → first = second :=
    fun _ _ _ _ less more => absurd (String.lt_trans less more) (String.lt_irrefl _)
  exact List.Perm.eq_of_pairwise ordered sortedLeft sortedRight
    ((perm_ext_iff_of_nodup (nodup sortedLeft) (nodup sortedRight)).2 same)

theorem children_congr (same : ∀ name, (left.get? (location ++ [name])).isSome =
      (right.get? (location ++ [name])).isSome) :
    left.children location = right.children location := by
  apply eq_of_sorted (sorted_children left location) (sorted_children right location)
  intro name
  rw [mem_children_iff, mem_children_iff, same]

/-! ## What a path reads -/

theorem forall_onWay_iff {condition : Location → Prop} :
    (∀ location, disk.OnWay path location → condition location) ↔
      ∀ beginning ∈ path.pieces.inits, condition (follow (disk.start path) beginning) := by
  constructor
  · intro holds beginning member
    exact holds _ ⟨beginning, (mem_inits _ _).1 member, rfl⟩
  · rintro holds location ⟨beginning, isPrefix, rfl⟩
    exact holds beginning ((mem_inits _ _).2 isPrefix)

/-- A file is read if the path leads to it. -/
theorem readFile_eq_ok_iff {content : Bytes} :
    disk.readFile path = .ok content ↔ disk.node? path = some (.file content) := by
  unfold readFile node?
  cases disk.locate path with
  | error cause => simp
  | ok location =>
    dsimp only
    cases disk.get? location with
    | none => simp
    | some node => cases node <;> simp

/-- What a file holds, or nothing. -/
def contentOf (disk : Disk) (path : Path) : Bytes :=
  match disk.node? path with
  | some (.file content) => content
  | _ => []

section

variable (current : left.current = right.current)
  (agree : ∀ location, left.OnWay path location → left.get? location = right.get? location)

include current agree

theorem walk_start_congr : left.walk (left.start path) path.pieces =
    right.walk (right.start path) path.pieces := by
  rw [← start_congr current]
  apply walk_congr
  intro beginning isPrefix
  exact agree _ ⟨beginning, isPrefix, rfl⟩

theorem locate_congr : left.locate path = right.locate path := by
  rw [locate, locate, walk_start_congr current agree]

theorem listed?_congr : left.listed? path = right.listed? path := by
  ext node
  rw [listed?_eq_some_iff, listed?_eq_some_iff, walk_start_congr current agree,
    agree _ (onWay_place left path), place_congr current]

/-- A path reads only what is on its way. -/
theorem node?_congr : left.node? path = right.node? path := by
  ext node
  rw [node?_eq_some_iff, node?_eq_some_iff, listed?_congr current agree]

theorem readFile_congr : left.readFile path = right.readFile path := by
  rw [readFile, readFile, locate_congr current agree]
  cases located : right.locate path with
  | error cause => rfl
  | ok location =>
    have here := agree (left.place path) (onWay_place left path)
    rw [place_congr current, ← locate_eq_place located] at here
    dsimp only
    rw [here]

end

theorem listNames_eq_ok_iff :
    disk.listNames path = .ok names ↔
      disk.isDirectory path ∧ names = disk.children (disk.place path) := by
  rw [isDirectory_iff_node?]
  unfold listNames node?
  cases located : disk.locate path with
  | error cause => simp
  | ok location =>
    have atPlace := locate_eq_place located
    subst atPlace
    dsimp only
    cases disk.get? (disk.place path) with
    | none => simp
    | some node => cases node <;> simp [eq_comm]

theorem isSome_of_mem_listNames (listed : disk.listNames path = .ok names)
    (member : name ∈ names) : (disk.get? (disk.place path ++ [name])).isSome := by
  obtain ⟨-, rfl⟩ := listNames_eq_ok_iff.1 listed
  exact mem_children_iff.1 member

theorem listWhere_eq (disk : Disk) (directory : Path) (test : Path → Bool) :
    disk.listWhere directory test =
      (if disk.isDirectory directory then
        (disk.children (disk.place directory)).filter fun name => test (directory.join name)
      else []).map directory.join := by
  unfold listWhere
  split
  next stands =>
    rw [listNames_eq_ok_iff.2 ⟨stands, rfl⟩]
    exact filter_map
  · rfl

/-- The files are those with the extension directly in the directory, in the order of their names. -/
def ListsInOrder (disk : Disk) (directory : Path) (extension : String) (files : List Path) : Prop :=
  ∃ names : List String, names.Pairwise (· < ·) ∧ files = names.map directory.join ∧
    ∀ name, name ∈ names ↔ disk.isDirectory directory = true ∧
      name ∈ disk.children (disk.place directory) ∧ disk.isFile (directory.join name) = true ∧
      (directory.join name).hasExtension extension = true

theorem listsInOrder_listFiles (disk : Disk) (directory : Path) (extension : String) :
    disk.ListsInOrder directory extension (disk.listFiles directory (some extension)) := by
  refine ⟨_, ?_, listWhere_eq _ _ _, fun name => ?_⟩
  · split
    · exact (sorted_children disk _).filter _
    · exact .nil
  · by_cases stands : disk.isDirectory directory <;> simp [stands, mem_filter]

/-! ## Directories that stand already -/

theorem walk_beginning {last : Location} {pieces beginning : List String}
    (found : disk.walk location pieces = .ok last) (isPrefix : beginning <+: pieces) :
    disk.walk location beginning = .ok (follow location beginning) := by
  obtain ⟨rest, rfl⟩ := isPrefix
  rw [walk_append] at found
  split at found
  next walked => rw [walked, walk_eq_follow walked]
  · cases found

theorem target_of_isDirectory (stands : disk.isDirectory path) :
    ∃ target, disk.target path = .ok target := by
  obtain ⟨accepted, walked, -⟩ := isDirectory_iff.1 stands
  have trimmed : path.pieces.rdropWhile (· == "") <+: path.pieces := rdropWhile_prefix _ _
  rw [List.rdropWhile] at trimmed
  simp only [target, accepted]
  cases isLast : (path.pieces.reverse.dropWhile (· == "")).reverse.getLast? with
  | none => exact ⟨_, rfl⟩
  | some name =>
    have shorter := (List.dropLast_prefix _).trans trimmed
    have proper : (path.pieces.reverse.dropWhile (· == "")).reverse.dropLast ≠ path.pieces := by
      intro whole
      have bound := trimmed.length_le
      have same := congrArg List.length whole
      rw [length_dropLast] at same
      have empty : (path.pieces.reverse.dropWhile (· == "")).reverse.length = 0 := by omega
      rw [length_eq_zero_iff] at empty
      simp [empty] at isLast
    dsimp only
    rw [walk_beginning walked shorter]
    dsimp only
    rw [directory_of_walk walked shorter proper]
    dsimp only
    split <;> exact ⟨_, rfl⟩

theorem makeDirectoriesUpTo_of_isDirectory (fuel : Nat) (stands : disk.isDirectory path) :
    makeDirectoriesUpTo (fuel + 1) path disk = (.ok (), disk) := by
  obtain ⟨target, found⟩ := target_of_isDirectory stands
  have directory := (isDirectory_iff.1 stands).2.2
  have failed : ∃ cause, disk.makeDirectory path = .error cause ∧ cause ≠ .system .notFound := by
    cases target with
    | place => exact ⟨.system .alreadyExists, by simp [makeDirectory, found], by simp⟩
    | entry parent name slash =>
      rw [(target_entry found).place_eq] at directory
      by_cases long : isTooLong name
      · exact ⟨.system .nameTooLong, by simp [makeDirectory, found, long], by simp⟩
      · exact ⟨.system .alreadyExists, by simp [makeDirectory, found, long, directory], by simp⟩
  obtain ⟨cause, failed, known⟩ := failed
  unfold makeDirectoriesUpTo
  split
  · rfl
  · rw [failed]
    split
    next contrary => cases contrary
    next contrary =>
      cases contrary
      exact absurd rfl known
    · rfl

/-- A directory that stands is not made again. -/
theorem makeDirectories_of_isDirectory (stands : disk.isDirectory path) :
    makeDirectories path disk = (.ok (), disk) :=
  makeDirectoriesUpTo_of_isDirectory _ stands

/-! ## Entries of a directory -/

theorem walk_stem (stands : disk.isDirectory path) :
    disk.walk (disk.start path) path.stem = .ok (disk.place path) := by
  obtain ⟨-, walked, directory⟩ := isDirectory_iff.1 stands
  obtain ⟨rest, whole⟩ := stem_beginning path
  rw [← whole, walk_append] at walked
  split at walked
  next found =>
    rw [found, walk_eq_follow found, follow_stem]
    rfl
  · cases walked

theorem utf8ByteSize_intercalate (pieces : List String) :
    ("/".intercalate pieces).utf8ByteSize =
      (pieces.map String.utf8ByteSize).sum + (pieces.length - 1) := by
  induction pieces with
  | nil => simp
  | cons piece rest ih =>
    by_cases last : rest = []
    · simp [last]
    · have slash : "/".utf8ByteSize = 1 := by decide
      have joined := @String.intercalate_append_of_ne_nil [piece] rest "/" (by simp) last
      rw [singleton_append] at joined
      have longer := length_pos_iff.2 last
      simp only [joined, String.utf8ByteSize_append, ih, slash, String.intercalate_singleton,
        map_cons, sum_cons, length_cons]
      omega

theorem utf8ByteSize_join (path : Path) (entry : IsEntry name) :
    path.text.utf8ByteSize + name.utf8ByteSize ≤ (path.join name).text.utf8ByteSize ∧
      (path.join name).text.utf8ByteSize ≤ path.text.utf8ByteSize + 1 + name.utf8ByteSize := by
  simp only [text, absolute_join_entry entry, pieces_join_entry entry, String.utf8ByteSize_append,
    utf8ByteSize_intercalate, stem]
  by_cases trailing : path.pieces.getLast? = some ""
  · have whole := dropLast_append_getLast? "" trailing
    rw [if_pos trailing]
    generalize path.pieces.dropLast = early at whole ⊢
    simp [← whole]
    omega
  · simp [trailing]
    omega

theorem refuse_eq_ok_iff : refuse path = .ok () ↔
    (∀ piece ∈ path.pieces, Char.ofNat 0 ∉ piece.toList) ∧
      ¬ (path.absolute = false ∧ path.pieces = [""]) ∧ path.text.utf8ByteSize < pathLimit := by
  have clean : (path.pieces.any fun piece => piece.toList.contains (Char.ofNat 0)) = false ↔
      ∀ piece ∈ path.pieces, Char.ofNat 0 ∉ piece.toList := by
    rw [any_eq_false]
    simp only [contains_iff_mem]
  rw [← clean, refuse]
  cases path.pieces.any fun piece => piece.toList.contains (Char.ofNat 0) with
  | true => simp
  | false =>
    by_cases blank : path.absolute = false ∧ path.pieces = [""]
    · simp [blank]
    · by_cases long : pathLimit ≤ path.text.utf8ByteSize
      · simp [blank, long]
      · simp [blank, long, Nat.lt_of_not_le long]

theorem refuse_of_join (entry : IsEntry name) (notBlank : path.pieces ≠ [""])
    (accepted : refuse (path.join name) = .ok ()) : refuse path = .ok () := by
  obtain ⟨clean, -, short⟩ := refuse_eq_ok_iff.1 accepted
  have longer := (utf8ByteSize_join path entry).1
  refine refuse_eq_ok_iff.2 ⟨fun piece member => ?_, fun blank => notBlank blank.2, by omega⟩
  rw [pieces_join_entry entry, stem] at clean
  split at clean
  next trailing =>
    rw [← dropLast_append_getLast? "" trailing] at member
    rcases mem_append.1 member with early | last
    · exact clean piece (by simp [early])
    · simp [mem_singleton.1 last]
  · exact clean piece (by simp [member])

/-- A directory can have an entry of this name. -/
structure Room (directory : Path) (name : String) : Prop where
  entry : IsEntry name
  short : isTooLong name = false
  accepted : refuse (directory.join name) = .ok ()

instance (directory : Path) (name : String) : Decidable (Room directory name) :=
  decidable_of_iff (IsEntry name ∧ isTooLong name = false ∧ refuse (directory.join name) = .ok ())
    ⟨fun ⟨entry, short, accepted⟩ => ⟨entry, short, accepted⟩,
      fun room => ⟨room.entry, room.short, room.accepted⟩⟩

section

variable {disk : Disk} {directory : Path} {name : String}
  (stands : disk.isDirectory directory)

include stands

theorem walk_join (entry : IsEntry name) :
    disk.walk (disk.start (directory.join name)) (directory.join name).pieces =
      disk.walk (disk.place directory) [name] := by
  rw [start_join disk directory entry, pieces_join_entry entry, walk_append, walk_stem stands]

theorem step_entry (entry : IsEntry name) (short : isTooLong name = false) :
    disk.step (disk.place directory) name =
      if (disk.get? (disk.place directory ++ [name])).isSome then
        .ok (disk.place directory ++ [name])
      else .error .notFound := by
  simp [step, (isDirectory_iff.1 stands).2.2, entry.notIdle, entry.notParent, short]

theorem node?_join (room : Room directory name) :
    disk.node? (directory.join name) = disk.get? (disk.place directory ++ [name]) := by
  rw [node?, locate, room.accepted, walk_join stands room.entry, walk,
    step_entry stands room.entry room.short]
  cases found : disk.get? (disk.place directory ++ [name]) with
  | none => simp
  | some node => simp [walk, found]

theorem target_join (entry : IsEntry name) (accepted : refuse (directory.join name) = .ok ()) :
    disk.target (directory.join name) = .ok (.entry (disk.place directory) name false) := by
  have whole : (((directory.stem ++ [name]).reverse).dropWhile (· == "")).reverse =
      directory.stem ++ [name] := by
    simp [entry.notEmpty]
  simp only [target, accepted, pieces_join_entry entry, whole]
  simp [start_join disk directory entry, walk_stem stands, (isDirectory_iff.1 stands).2.2,
    entry.notSelf, entry.notParent]

/-- An entry that is found has room. -/
theorem room_of_node? (entry : IsEntry name) (found : disk.node? (directory.join name) = some node) :
    Room directory name := by
  unfold node? at found
  split at found
  next location located =>
    obtain ⟨accepted, walked⟩ := locate_eq_ok_iff.1 located
    refine ⟨entry, ?_, accepted⟩
    rw [walk_join stands entry, walk, step, (isDirectory_iff.1 stands).2.2] at walked
    by_contra long
    rw [Bool.not_eq_false] at long
    simp [entry.notIdle, entry.notParent, long] at walked
  · cases found

theorem updateFile_join (room : Room directory name) (change : Bytes → Bytes)
    (notDirectory : disk.get? (disk.place directory ++ [name]) ≠ some .directory) :
    disk.updateFile change (directory.join name) =
      .ok (disk.put (disk.place directory ++ [name])
        (.file (change (disk.contentAt (disk.place directory ++ [name]))))) := by
  rw [updateFile, contentAt, target_join stands room.entry room.accepted]
  simp only [room.short, Bool.false_eq_true, if_false]
  cases found : disk.get? (disk.place directory ++ [name]) with
  | none => rfl
  | some node =>
    cases node with
    | directory => exact absurd found notDirectory
    | file content => rfl

end

/-- Only a name with room is written. -/
theorem room_of_updateFile {after : Disk} {directory : Path} {change : Bytes → Bytes}
    (entry : IsEntry name) (done : updateFile change (directory.join name) disk = .ok after) :
    Room directory name := by
  obtain ⟨parent, last, ends, short, -⟩ := ends_of_updateFile done
  have same := ends.place_eq
  rw [place_join disk directory entry] at same
  obtain rfl : name = last := by simpa using (append_inj' same rfl).2
  exact ⟨entry, short, ends.accepted⟩

/-! ## Changes to the files of a directory -/

/-- The disks differ only in files directly in a directory, and the names of new files are those
of entries. -/
structure FilesDiffer (top : Location) (before after : Disk) : Prop where
  current : after.current = before.current
  elsewhere : ∀ location, (∀ name, location ≠ top ++ [name]) →
    after.get? location = before.get? location
  directories : ∀ location, after.get? location = some .directory ↔
    before.get? location = some .directory
  entries : ∀ name, (after.get? (top ++ [name])).isSome = true →
    (before.get? (top ++ [name])).isSome = true ∨ IsEntry name

namespace FilesDiffer

variable {top : Location} {first second third : Disk} {path : Path} {location : Location}

protected theorem refl (top : Location) (disk : Disk) : FilesDiffer top disk disk :=
  ⟨rfl, fun _ _ => rfl, fun _ => Iff.rfl, fun _ => .inl⟩

protected theorem trans (left : FilesDiffer top first second) (right : FilesDiffer top second third) :
    FilesDiffer top first third where
  current := right.current.trans left.current
  elsewhere location other := (right.elsewhere location other).trans (left.elsewhere location other)
  directories location := (right.directories location).trans (left.directories location)
  entries name stands := (right.entries name stands).elim (left.entries name) Or.inr

/-- One file of the directory was written or removed. -/
theorem of_changed {after : Disk} {value : Option Node} (current : after.current = disk.current)
    (changed : ∀ location, after.get? location =
      if location = top ++ [name] then value else disk.get? location)
    (notDirectory : disk.get? (top ++ [name]) ≠ some .directory) (isFile : value ≠ some .directory)
    (entry : value.isSome → IsEntry name) : FilesDiffer top disk after := by
  refine ⟨current, ?_, ?_, ?_⟩
  · intro location other
    rw [changed, if_neg (other name)]
  · intro location
    rw [changed]
    split
    next here => simp [here, notDirectory, isFile]
    · exact Iff.rfl
  · intro other stands
    rw [changed] at stands
    split at stands
    next same =>
      obtain rfl : other = name := by simpa using same
      exact .inr (entry stands)
    · exact .inl stands

theorem put (disk : Disk) (top : Location) (entry : IsEntry name) (content : Bytes)
    (notDirectory : disk.get? (top ++ [name]) ≠ some .directory) :
    FilesDiffer top disk (disk.put (top ++ [name]) (.file content)) :=
  of_changed rfl (fun location => get?_put disk _ location _ (by simp)) notDirectory (by simp)
    fun _ => entry

theorem remove (disk : Disk) (top : Location) (name : String)
    (notDirectory : disk.get? (top ++ [name]) ≠ some .directory) :
    FilesDiffer top disk (disk.remove (top ++ [name])) :=
  of_changed rfl (fun location => get?_remove disk _ location (by simp)) notDirectory (by simp)
    (by simp)

theorem isDirectory (fills : FilesDiffer top first second)
    (stands : first.isDirectory path) : second.isDirectory path :=
  isDirectory_of_directories fills.current (fun location _ => (fills.directories location).2) stands

theorem isDirectory_iff (fills : FilesDiffer top first second) (path : Path) :
    second.isDirectory path ↔ first.isDirectory path :=
  ⟨isDirectory_of_directories fills.current.symm fun location _ => (fills.directories location).1,
    fills.isDirectory⟩

theorem onWay_join (fills : FilesDiffer top first second) (stands : first.isDirectory path)
    (entry : IsEntry name)
    (same : second.get? (first.place path ++ [name]) = first.get? (first.place path ++ [name]))
    (onWay : first.OnWay (path.join name) location) :
    first.get? location = second.get? location := by
  rcases Disk.onWay_join entry onWay with here | above
  · rw [here, place_join first path entry]
    exact same.symm
  · have directory := directory_of_onWay stands above
    rw [directory, (fills.directories location).2 directory]

theorem namedBelow (fills : FilesDiffer top first second) {above more : Location}
    (whole : top = above ++ more) (named : first.NamedBelow above)
    (inside : ∀ name ∈ more, IsEntry name) : second.NamedBelow above := by
  intro rest stood
  by_cases child : ∃ name, above ++ rest = top ++ [name]
  · obtain ⟨name, here⟩ := child
    rw [here] at stood
    rcases fills.entries name stood with before | entry
    · rw [← here] at before
      exact named _ before
    · rw [whole, append_assoc, append_cancel_left_eq] at here
      rw [here]
      intro other member
      rcases mem_append.1 member with early | last
      · exact inside other early
      · rw [mem_singleton.1 last]
        exact entry
  · rw [fills.elsewhere _ fun name same => child ⟨name, same⟩] at stood
    exact named rest stood

theorem wellNamed (fills : FilesDiffer top first second) (named : first.WellNamed)
    (inside : ∀ name ∈ top, IsEntry name) : second.WellNamed :=
  fills.namedBelow (nil_append top).symm (named.namedBelow []) inside

end FilesDiffer

end OpsContent.Disk
