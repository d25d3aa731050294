import Mathlib.Algebra.Order.BigOperators.Group.List
import OpsContent.Proofs.FileNames
import OpsContent.Proofs.Trees

/-!
# Copies of trees

A copy goes through the nodes of a tree in the order of a walk, every directory before what it
holds.  Each node goes to its place in the destination, and the copy ends at the first one that has
no place there: a directory where a file stands, a file where a directory stands, or a path that
cannot be used.
-/

namespace OpsContent

namespace Path

theorem extend_append (path : Path) (first rest : List String) :
    path.extend (first ++ rest) = (path.extend first).extend rest :=
  List.foldl_append

theorem extend_concat (path : Path) (names : List String) (name : String) :
    path.extend (names ++ [name]) = (path.extend names).join name := by
  rw [extend_append, extend_cons, extend_nil]

end Path

namespace Disk

open OpsContent.Path List

variable {disk base after : Disk} {path source destination : Path} {name : String}
  {way : List String} {fuel : Nat} {item : List String} {node : Node} {opened : Disk}

/-! ## Paths that can be used -/

theorem refuse_of_sublist {absolute : Bool} {pieces fewer : List String}
    (sublist : fewer.Sublist pieces) (notBlank : fewer ≠ [""])
    (accepted : refuse ⟨absolute, pieces⟩ = .ok ()) : refuse ⟨absolute, fewer⟩ = .ok () := by
  obtain ⟨clean, -, short⟩ := refuse_eq_ok_iff.1 accepted
  refine refuse_eq_ok_iff.2 ⟨fun piece member => clean piece (sublist.subset member),
    fun blank => notBlank blank.2, ?_⟩
  have sizes := (sublist.map String.utf8ByteSize).sum_le_sum (by simp)
  have count := sublist.length_le
  simp only [text, String.utf8ByteSize_append, utf8ByteSize_intercalate] at short ⊢
  omega

theorem utf8ByteSize_of_refuse (accepted : refuse path = .ok ()) :
    path.text.utf8ByteSize < pathLimit :=
  (refuse_eq_ok_iff.1 accepted).2.2

theorem trimIdle_ne_blank (path : Path) : path.trimIdle ≠ [""] := by
  have last : ∀ kept : path.pieces.rdropWhile isIdle ≠ [],
      ¬ isIdle ((path.pieces.rdropWhile isIdle).getLast kept) :=
    rdropWhile_last_not isIdle path.pieces
  unfold trimIdle
  dsimp only
  split
  · simp
  · intro blank
    have blank : path.pieces.rdropWhile isIdle = [""] := blank
    have notIdle := last (by simp [blank])
    simp [blank, isIdle] at notIdle

theorem makeParents_join (entry : IsEntry name) (stands : disk.isDirectory path) :
    makeParents (path.join name) disk = (.ok (), disk) := by
  obtain ⟨accepted, walked, directory⟩ := isDirectory_iff.1 stands
  have shorter : trimIdle ⟨path.absolute, path.stem⟩ <+: path.pieces :=
    (trimIdle_beginning _).trans (stem_beginning path)
  have notBlank := trimIdle_ne_blank ⟨path.absolute, path.stem⟩
  have isParent : (path.join name).parent? = some ⟨path.absolute,
      if (trimIdle ⟨path.absolute, path.stem⟩).isEmpty then [""]
      else trimIdle ⟨path.absolute, path.stem⟩⟩ := by
    unfold parent?
    rw [trimIdle_join path entry]
    split
    next empty => simp at empty
    · simp only [dropLast_concat, absolute_join_entry entry]
  unfold makeParents
  rw [isParent]
  generalize trimIdle ⟨path.absolute, path.stem⟩ = beginning at *
  by_cases empty : beginning = []
  · -- the parent is the root, or the empty path
    rw [if_pos (by simp [empty])]
    cases isAbsolute : path.absolute with
    | false => simp [makeDirectories, makeDirectoriesUpTo]
    | true =>
      apply makeDirectories_of_isDirectory
      have usable : refuse ⟨true, [""]⟩ = .ok () := by decide
      refine isDirectory_iff.2 ⟨usable, ?_, ?_⟩ <;>
        simp [place, start, walk, step, isIdle, advance]
  · rw [if_neg (by simpa using empty)]
    apply makeDirectories_of_isDirectory
    refine isDirectory_iff.2 ⟨refuse_of_sublist shorter.sublist notBlank accepted, ?_, ?_⟩
    · exact walk_beginning walked shorter
    · exact directory_of_onWay stands ⟨beginning, shorter, rfl⟩

/-! ## Making one entry -/

theorem makeDirectories_join_free (stands : disk.isDirectory path) (room : Room path name)
    (free : disk.get? (disk.place path ++ [name]) = none) :
    makeDirectories (path.join name) disk =
      (.ok (), disk.put (disk.place path ++ [name]) .directory) := by
  have made : disk.makeDirectory (path.join name) =
      .ok (disk.put (disk.place path ++ [name]) .directory) := by
    simp [makeDirectory, target_join stands room.entry room.accepted, room.short, free]
  unfold makeDirectories makeDirectoriesUpTo
  simp only [pieces_join_ne_blank path room.entry, and_false, if_false, made]

theorem makeDirectories_join (entry : IsEntry name) (stands : disk.isDirectory path) :
    (∃ opened, makeDirectories (path.join name) disk = (.ok (), opened)) ↔
      Room path name ∧ ∀ content, disk.get? (disk.place path ++ [name]) ≠ some (.file content) := by
  constructor
  · rintro ⟨opened, made⟩
    obtain ⟨touches, standsThere, before⟩ := makeDirectories_join_ok entry stands made
    refine ⟨room_of_node? (touches.isDirectory stands) entry (isDirectory_iff_node?.1 standsThere),
      fun content isFile => ?_⟩
    rcases before with free | directory
    · rw [isFile] at free
      cases free
    · rw [isFile] at directory
      cases directory
  · rintro ⟨room, notFile⟩
    cases found : disk.get? (disk.place path ++ [name]) with
    | none => exact ⟨_, makeDirectories_join_free stands room found⟩
    | some node =>
      cases node with
      | file content => exact absurd found (notFile content)
      | directory =>
        refine ⟨disk, makeDirectories_of_isDirectory ?_⟩
        rw [isDirectory_iff_node?, node?_join stands room, found]

theorem makeDirectories_join_error {cause : IoError} (entry : IsEntry name)
    (stands : disk.isDirectory path)
    (failed : makeDirectories (path.join name) disk = (.error cause, opened)) :
    Touches (fun _ => False) disk opened := by
  have opens := makeDirectories_error failed
  refine ⟨opens.current, ?_, fun location => opens.stands⟩
  intro location _
  rcases opens.nodes location with same | ⟨above, free, -⟩
  · exact same
  · rw [directory_of_onWay stands (onWay_of_above entry above)] at free
    cases free

theorem writeFile_join (entry : IsEntry name) (stands : disk.isDirectory path)
    (content : Bytes) :
    (∃ written, writeFile (path.join name) content disk = .ok written) ↔
      Room path name ∧ disk.get? (disk.place path ++ [name]) ≠ some .directory := by
  constructor
  · rintro ⟨written, wrote⟩
    obtain ⟨-, notDirectory, -⟩ := updateFile_ok wrote
    rw [place_join disk path entry] at notDirectory
    exact ⟨room_of_updateFile entry wrote, notDirectory⟩
  · rintro ⟨room, notDirectory⟩
    exact ⟨_, updateFile_join stands room _ notDirectory⟩

/-! ## The order of a walk -/

/-- The way to a node and the ways to all that stands below it, in the order of a walk that comes to
the entries of a directory in the given order.  Behind a directory that is listed and yet cannot be
entered, since its path is too long, stands a way that leads nowhere. -/
def walkNodeIn (order : Path → List String → List String) (disk : Disk) (root : Path) :
    Nat → List String → List (List String)
  | 0, _ => []
  | fuel + 1, way =>
    match disk.listed? (root.extend way) with
    | none => []
    | some (.file _) => [way]
    | some .directory =>
      way :: if disk.isDirectory (root.extend way) then
          (order (root.extend way) (disk.children (disk.place (root.extend way)))).flatMap
            fun name => disk.walkNodeIn order root fuel (way ++ [name])
        else [way ++ [""]]

/-- The ways to all nodes below a directory. -/
def walkTreeIn (order : Path → List String → List String) (disk : Disk) (root : Path) :
    List (List String) :=
  (order root (disk.children (disk.place root))).flatMap fun name =>
    disk.walkNodeIn order root deepest [name]

/-- The walk that comes to the entries of every directory by their names. -/
def walkTree (disk : Disk) (root : Path) : List (List String) :=
  disk.walkTreeIn (fun _ names => names) root

/-- Copy a node as a walk in some order does. -/
def copyNodeIn (order : Path → List String → List String) : Nat → Path → Path → DiskAction Unit
  | 0, _, _ => throw (.system .nameTooLong)
  | fuel + 1, source, destination => do
      let disk ← get
      match disk.listed? source with
      | some .directory =>
        makeDirectories destination
        let names ← fun (disk : Disk) =>
          match disk.listNames source with
          | .ok names => (.ok names, disk)
          | .error error => (.error (.walk source error), disk)
        copyNames (copyNodeIn order fuel) source destination (order source names)
      | some (.file _) =>
        makeParents destination
        attempt (copyFile source destination)
      | none => pure ()

/-- Copy a tree as a walk in some order does. -/
def copyTreeIn (order : Path → List String → List String) (source destination : Path) :
    DiskAction Unit := do
  makeDirectories destination
  let disk ← get
  match disk.locate source with
  | .error error => throw (.walk source error)
  | .ok location =>
    if disk.isDirectoryAt location then
      match disk.listNames source with
      | .ok names => copyNames (copyNodeIn order deepest) source destination (order source names)
      | .error error => throw (.walk source error)

theorem copyNodeIn_sorted (fuel : Nat) :
    copyNodeIn (fun _ names => names) fuel = copyNode fuel := by
  induction fuel with
  | zero => rfl
  | succ fuel ih =>
    funext source destination
    rw [copyNodeIn, copyNode]
    exact ih ▸ rfl

theorem copyTreeIn_sorted : copyTreeIn (fun _ names => names) = copyTree := by
  funext source destination
  rw [copyTreeIn, copyTree]
  exact copyNodeIn_sorted deepest ▸ rfl

section

variable {order : Path → List String → List String}

/-- Every way of a walk goes on where the walk began. -/
theorem isPrefix_of_mem_walkNodeIn (member : item ∈ disk.walkNodeIn order path fuel way) :
    way <+: item := by
  induction fuel generalizing way with
  | zero => cases member
  | succ fuel ih =>
    rw [walkNodeIn] at member
    split at member
    · cases member
    · rw [mem_singleton.1 member]
    · rcases mem_cons.1 member with rfl | below
      · exact prefix_refl _
      · split at below
        · obtain ⟨name, -, inside⟩ := mem_flatMap.1 below
          exact (prefix_append way [name]).trans (ih inside)
        · rw [mem_singleton.1 below]
          exact prefix_append way [""]

/-- A walk whose ways all lead somewhere gets into every directory. -/
theorem isDirectory_of_mem_walkNodeIn (member : item ∈ disk.walkNodeIn order path fuel way)
    (whole : ∀ other ∈ disk.walkNodeIn order path fuel way, ∀ name ∈ other, IsEntry name)
    (listed : disk.listed? (path.extend item) = some .directory) :
    disk.isDirectory (path.extend item) := by
  induction fuel generalizing way with
  | zero => cases member
  | succ fuel ih =>
    rw [walkNodeIn] at member whole
    split at member
    · cases member
    next isFile =>
      rw [mem_singleton.1 member, isFile] at listed
      cases listed
    next isDirectory =>
      rw [isDirectory] at whole
      by_cases entered : disk.isDirectory (path.extend way)
      · rw [if_pos entered] at member
        rcases mem_cons.1 member with rfl | below
        · exact entered
        · obtain ⟨name, isName, inside⟩ := mem_flatMap.1 below
          refine ih inside fun other further => whole other ?_
          rw [if_pos entered]
          exact mem_cons_of_mem _ (mem_flatMap.2 ⟨name, isName, further⟩)
      · have blank : IsEntry "" := whole (way ++ [""]) (by simp [entered]) "" (by simp)
        exact absurd rfl blank.notEmpty

theorem perm_walkNodeIn (ordered : ∀ path names, (order path names).Perm names) :
    (disk.walkNodeIn order path fuel way).Perm
      (disk.walkNodeIn (fun _ names => names) path fuel way) := by
  induction fuel generalizing way with
  | zero => exact .nil
  | succ fuel ih =>
    rw [walkNodeIn, walkNodeIn]
    split
    · exact .nil
    · exact .refl _
    · refine .cons _ ?_
      split
      · exact .trans (.flatMap_left _ fun _ _ => ih) (.flatMap_right _ (ordered _ _))
      · exact .refl _

theorem perm_walkTreeIn (ordered : ∀ path names, (order path names).Perm names) :
    (disk.walkTreeIn order path).Perm (disk.walkTree path) :=
  .trans (.flatMap_left _ fun _ _ => perm_walkNodeIn ordered) (.flatMap_right _ (ordered _ _))

end

theorem NamedBelow.of_listed (named : disk.NamedBelow (disk.place path))
    (entries : ∀ other ∈ way, IsEntry other)
    (listed : name ∈ disk.children (disk.place (path.extend way))) :
    ∀ other ∈ way ++ [name], IsEntry other := by
  rw [place_extend disk path entries, mem_children_iff, append_assoc] at listed
  exact named _ listed

/-- What stands on a walk: a way to a node, or one behind a directory that cannot be entered. -/
inductive Met (disk : Disk) (root : Path) : List String → Prop
  | node {way : List String} (entries : ∀ name ∈ way, IsEntry name)
      (listed : (disk.listed? (root.extend way)).isSome = true) : Met disk root way
  | blank {way : List String} (entries : ∀ name ∈ way, IsEntry name)
      (listed : disk.listed? (root.extend way) = some .directory)
      (closed : disk.isDirectory (root.extend way) = false) : Met disk root (way ++ [""])

theorem met_of_mem_walkNodeIn {order : Path → List String → List String}
    (ordered : ∀ path names, (order path names).Perm names)
    (named : disk.NamedBelow (disk.place path)) (entries : ∀ name ∈ way, IsEntry name)
    (member : item ∈ disk.walkNodeIn order path fuel way) : disk.Met path item := by
  induction fuel generalizing way with
  | zero => cases member
  | succ fuel ih =>
    rw [walkNodeIn] at member
    split at member
    · cases member
    next isFile =>
      rw [mem_singleton.1 member]
      exact .node entries (by simp [isFile])
    next isDirectory =>
      rcases mem_cons.1 member with rfl | below
      · exact .node entries (by simp [isDirectory])
      · split at below
        · obtain ⟨name, isName, inside⟩ := mem_flatMap.1 below
          refine ih ?_ inside
          exact named.of_listed entries ((ordered _ _).mem_iff.1 isName)
        next closed =>
          rw [mem_singleton.1 below]
          exact .blank entries isDirectory (by simpa using closed)

theorem met_of_mem_walkTree (named : disk.NamedBelow (disk.place path))
    (member : item ∈ disk.walkTree path) : disk.Met path item := by
  obtain ⟨name, listed, inside⟩ := mem_flatMap.1 member
  refine met_of_mem_walkNodeIn (fun _ names => .refl names) named ?_ inside
  exact named [name] (mem_children_iff.1 listed)

theorem ne_nil_of_mem_walkTree (member : item ∈ disk.walkTree path) : item ≠ [] := by
  obtain ⟨name, -, inside⟩ := mem_flatMap.1 member
  obtain ⟨rest, rfl⟩ := isPrefix_of_mem_walkNodeIn inside
  simp

theorem listed?_above (entries : ∀ other ∈ way ++ [name], IsEntry other)
    (found : disk.listed? (path.extend (way ++ [name])) = some node) :
    disk.listed? (path.extend way) = some .directory := by
  rw [extend_concat] at found
  exact listed?_of_join (entries name (by simp)) found

theorem isSome_listed?_beginning {more : List String}
    (entries : ∀ other ∈ way ++ more, IsEntry other)
    (found : (disk.listed? (path.extend (way ++ more))).isSome) :
    (disk.listed? (path.extend way)).isSome := by
  induction more using reverseRecOn with
  | nil => simpa using found
  | append_singleton more last ih =>
    rw [← append_assoc] at entries found
    obtain ⟨node, isNode⟩ := Option.isSome_iff_exists.1 found
    refine ih (fun other member => entries other (mem_append_left _ member)) ?_
    rw [listed?_above entries isNode]
    rfl

/-- What is listed at a path is in its place. -/
theorem get?_of_listed? (entries : ∀ other ∈ way, IsEntry other)
    (found : disk.listed? (path.extend way) = some node) :
    disk.get? (disk.place path ++ way) = some node := by
  rw [← place_extend disk path entries]
  exact (listed?_eq_some_iff.1 found).2

/-- A walk whose ways all lead somewhere comes to everything that is listed, since no path that can
be used is longer than the walk is deep. -/
theorem mem_walkNode_of_listed? {more : List String} (stands : disk.isDirectory (path.extend way))
    (enough : pathLimit ≤ fuel + (path.extend way).text.utf8ByteSize)
    (entries : ∀ other ∈ way ++ name :: more, IsEntry other)
    (whole : ∀ item ∈ disk.walkNodeIn (fun _ names => names) path fuel (way ++ [name]),
      ∀ other ∈ item, IsEntry other)
    (found : (disk.listed? (path.extend (way ++ name :: more))).isSome) :
    way ++ name :: more ∈ disk.walkNodeIn (fun _ names => names) path fuel (way ++ [name]) := by
  induction more generalizing fuel way name with
  | nil =>
    have usable := utf8ByteSize_of_refuse (isDirectory_iff.1 stands).1
    obtain ⟨node, isNode⟩ := Option.isSome_iff_exists.1 found
    cases fuel with
    | zero => omega
    | succ fuel =>
      rw [walkNodeIn, isNode]
      cases node <;> simp
  | cons next rest ih =>
    have entry := entries name (by simp)
    have usable := utf8ByteSize_of_refuse (isDirectory_iff.1 stands).1
    have longer := (utf8ByteSize_join (path.extend way) entry).1
    have notEmpty : 0 < name.utf8ByteSize := by
      rw [Nat.pos_iff_ne_zero]
      simpa using entry.notEmpty
    have regroup : way ++ name :: next :: rest = way ++ [name] ++ next :: rest := by simp
    rw [regroup] at entries found ⊢
    have early : ∀ other ∈ way ++ [name] ++ [next], IsEntry other :=
      fun other member => entries other (by simp at member ⊢; tauto)
    have isNext : (disk.listed? (path.extend (way ++ [name] ++ [next]))).isSome :=
      isSome_listed?_beginning (by simpa using entries) (by simpa using found)
    obtain ⟨node, isNode⟩ := Option.isSome_iff_exists.1 isNext
    have isDirectory := listed?_above early isNode
    cases fuel with
    | zero => omega
    | succ fuel =>
      have here : way ++ [name] ∈
          disk.walkNodeIn (fun _ names => names) path (fuel + 1) (way ++ [name]) := by
        simp [walkNodeIn, isDirectory]
      have entered := isDirectory_of_mem_walkNodeIn here whole isDirectory
      rw [walkNodeIn, isDirectory] at whole ⊢
      simp only [entered, if_true] at whole ⊢
      have child : next ∈ disk.children (disk.place (path.extend (way ++ [name]))) := by
        rw [place_extend disk path fun other member => early other (mem_append_left _ member),
          mem_children_iff, append_assoc, get?_of_listed? early isNode]
        rfl
      refine mem_cons_of_mem _ (mem_flatMap.2 ⟨next, child, ih entered ?_ entries ?_ found⟩)
      · rw [extend_concat]
        omega
      · exact fun item inside => whole item (mem_cons_of_mem _ (mem_flatMap.2 ⟨next, child, inside⟩))

section

variable (whole : ∀ item ∈ disk.walkTree path, ∀ name ∈ item, IsEntry name)

include whole

theorem mem_walkTree_of_listed? (stands : disk.isDirectory path) (notEmpty : way ≠ [])
    (entries : ∀ name ∈ way, IsEntry name) (found : (disk.listed? (path.extend way)).isSome) :
    way ∈ disk.walkTree path := by
  cases way with
  | nil => exact absurd rfl notEmpty
  | cons name rest =>
    have isFirst : (disk.listed? (path.extend [name])).isSome :=
      @isSome_listed?_beginning disk path [name] rest entries found
    obtain ⟨node, isNode⟩ := Option.isSome_iff_exists.1 isFirst
    have child : name ∈ disk.children (disk.place path) := by
      rw [mem_children_iff, get?_of_listed? (by simpa using entries name (by simp)) isNode]
      rfl
    refine mem_flatMap.2 ⟨name, child, ?_⟩
    refine @mem_walkNode_of_listed? disk path name [] deepest rest stands (Nat.le_add_right _ _)
      entries ?_ found
    exact fun item inside => whole item (mem_flatMap.2 ⟨name, child, inside⟩)

theorem isDirectory_of_mem_walkTree (member : way ∈ disk.walkTree path)
    (listed : disk.listed? (path.extend way) = some .directory) :
    disk.isDirectory (path.extend way) := by
  obtain ⟨name, child, inside⟩ := mem_flatMap.1 member
  refine isDirectory_of_mem_walkNodeIn inside (fun other further => whole other ?_) listed
  exact mem_flatMap.2 ⟨name, child, further⟩

end

/-! ## Places of a copy -/

/-- Can a node of the source be put to its place in the destination?  It is a directory, or a file
that can be read, the path to the place can be used, and nothing of the other sort stands there. -/
def fits (disk : Disk) (source destination : Path) (way : List String) : Bool :=
  (refuse (destination.extend way)).isOk &&
    (way.getLast?.all fun name => name != "" && !isTooLong name) &&
    (disk.listed? (source.extend way) == some .directory || disk.isFile (source.extend way)) &&
    match disk.get? (disk.place destination ++ way) with
    | none => true
    | some node => (node == .directory) == (disk.listed? (source.extend way) == some .directory)

theorem fits_concat_iff (entry : IsEntry name) :
    disk.fits source destination (way ++ [name]) ↔
      Room (destination.extend way) name ∧
        (disk.listed? (source.extend (way ++ [name])) = some .directory ∨
          disk.isFile (source.extend (way ++ [name]))) ∧
        ∀ node, disk.get? (disk.place destination ++ (way ++ [name])) = some node →
          (node = .directory ↔ disk.listed? (source.extend (way ++ [name])) = some .directory) := by
  have accepted : (refuse (destination.extend (way ++ [name]))).isOk ↔
      refuse ((destination.extend way).join name) = .ok () := by
    rw [extend_concat]
    cases refuse ((destination.extend way).join name) <;> simp [Except.isOk, Except.toBool]
  have room : Room (destination.extend way) name ↔
      (refuse (destination.extend (way ++ [name]))).isOk ∧ isTooLong name = false := by
    rw [accepted]
    exact ⟨fun room => ⟨room.accepted, room.short⟩, fun both => ⟨entry, both.2, both.1⟩⟩
  have sameSort (node : Node) :
      ((node == .directory) == (disk.listed? (source.extend (way ++ [name])) == some .directory)) ↔
        (node = .directory ↔ disk.listed? (source.extend (way ++ [name])) = some .directory) := by
    rw [beq_iff_eq, Bool.eq_iff_iff, beq_iff_eq, beq_iff_eq]
  rw [room, fits]
  cases disk.get? (disk.place destination ++ (way ++ [name])) with
  | none => simp [entry.notEmpty, and_assoc]
  | some node => simp [entry.notEmpty, and_assoc, sameSort]

/-- What leads nowhere has no place. -/
theorem not_fits_blank : ¬ disk.fits source destination (way ++ [""]) := by
  simp [fits]

theorem sort_of_fits (entries : ∀ name ∈ way, IsEntry name)
    (placed : disk.fits source destination way)
    (stood : disk.get? (disk.place destination ++ way) = some node) :
    node = .directory ↔ disk.get? (disk.place source ++ way) = some .directory := by
  rw [fits, stood, Bool.and_eq_true, Bool.and_eq_true, Bool.or_eq_true, beq_iff_eq] at placed
  have same := placed.2
  rw [beq_iff_eq, Bool.eq_iff_iff, beq_iff_eq, beq_iff_eq] at same
  refine same.trans ⟨get?_of_listed? entries, fun isDirectory => ?_⟩
  rcases placed.1.2 with listed | isFile
  · exact listed
  · have notDirectory := notDirectory_of_isFile isFile
    rw [place_extend disk source entries] at notDirectory
    exact absurd isDirectory notDirectory

/-- A tree can be copied from one directory to another one: nothing comes to a place in the
source. -/
structure CopyReady (source destination : Path) (base : Disk) : Prop where
  standsSource : base.isDirectory source = true
  standsDestination : base.isDirectory destination = true
  named : base.NamedBelow (base.place source)
  aside : ∀ way, (base.get? (base.place source ++ way)).isSome = true →
    isBelow (base.place source) (base.place destination ++ way) = false

theorem notBlank_of_isDirectory (stands : disk.isDirectory path)
    (inside : disk.place path ≠ []) : path.pieces ≠ [""] := by
  intro blank
  by_cases absolute : path.absolute
  · apply inside
    simp [place, start, blank, absolute, advance, isIdle]
  · rw [Bool.not_eq_true] at absolute
    have accepted := (isDirectory_iff.1 stands).1
    simp [refuse, blank, absolute] at accepted

/-- A node of a source has come to its place in a destination.  If it is a file, a path leads to
it. -/
structure Brought (source destination : Path) (before after : Disk) (way : List String) : Prop where
  entries : ∀ name ∈ way, IsEntry name
  node : ∃ node, before.listed? (source.extend way) = some node ∧
    (node ≠ .directory → before.node? (source.extend way) = some node) ∧
    after.node? (destination.extend way) = some node

/-- The nodes at the given ways were put to their places, and nothing else was done. -/
structure Laid (source destination : Path) (base : Disk) (done : List (List String)) (disk : Disk) :
    Prop where
  current : disk.current = base.current
  reached : ∀ way ∈ done, Brought source destination base disk way
  elsewhere : ∀ location, (∀ way ∈ done, location ≠ base.place destination ++ way) →
    disk.get? location = base.get? location
  directories : ∀ location, base.get? location = some .directory →
    disk.get? location = some .directory

namespace Laid

variable {done : List (List String)} {next : Disk}

theorem nil (source destination : Path) (base : Disk) : Laid source destination base [] base :=
  ⟨rfl, by simp, fun _ _ => rfl, fun _ => id⟩

section

variable (laid : Laid source destination base done disk)

include laid

theorem get?_of_mem (member : way ∈ done) :
    ∃ node, base.get? (base.place source ++ way) = some node ∧
      disk.get? (base.place destination ++ way) = some node := by
  obtain ⟨entries, node, found, -, reached⟩ := laid.reached way member
  refine ⟨node, get?_of_listed? entries found, ?_⟩
  rw [← place_congr laid.current, ← place_extend disk destination entries]
  exact get?_of_node? reached

/-- What was laid and where says all about the result. -/
theorem get?_eq (other : Laid source destination base done after) (location : Location) :
    disk.get? location = after.get? location := by
  by_cases isWay : ∃ way ∈ done, location = base.place destination ++ way
  · obtain ⟨way, member, rfl⟩ := isWay
    obtain ⟨node, found, reached⟩ := laid.get?_of_mem member
    obtain ⟨_, same, reachedOther⟩ := other.get?_of_mem member
    rw [reached, reachedOther, ← found, same]
  · have free : ∀ way ∈ done, location ≠ base.place destination ++ way :=
      fun way member same => isWay ⟨way, member, same⟩
    rw [laid.elsewhere location free, other.elsewhere location free]

theorem isDirectory (stands : base.isDirectory path) : disk.isDirectory path :=
  isDirectory_of_directories laid.current (fun location _ => laid.directories location) stands

theorem place_concat (entries : ∀ other ∈ way ++ [name], IsEntry other) :
    disk.place (destination.extend way) ++ [name] = base.place destination ++ (way ++ [name]) := by
  rw [place_extend disk destination fun other member => entries other (by simp [member]),
    place_congr laid.current, append_assoc]

theorem get?_free (new : ∀ item ∈ done, ¬ way <+: item) :
    disk.get? (base.place destination ++ way) = base.get? (base.place destination ++ way) := by
  apply laid.elsewhere
  intro item member same
  apply new item member
  rw [append_cancel_left_eq] at same
  rw [same]

theorem of_touches (touches : Touches (fun _ => False) disk next) :
    Laid source destination base done next := by
  have same : ∀ location, next.get? location = disk.get? location :=
    fun location => touches.elsewhere location id
  refine ⟨touches.current.trans laid.current, ?_, ?_, ?_⟩
  · intro item member
    obtain ⟨entries, node, found, usable, reached⟩ := laid.reached item member
    refine ⟨entries, node, found, usable, ?_⟩
    rw [← reached]
    exact node?_congr touches.current fun location _ => same location
  · intro location free
    rw [same, laid.elsewhere location free]
  · intro location stands
    rw [same, laid.directories location stands]

end

section

variable (ready : CopyReady source destination base) (laid : Laid source destination base done disk)

include ready laid

theorem get?_source (rest : Location) :
    disk.get? (base.place source ++ rest) = base.get? (base.place source ++ rest) := by
  apply laid.elsewhere
  intro way member same
  obtain ⟨node, found, -⟩ := laid.get?_of_mem member
  have aside := ready.aside way (by simp [found])
  rw [← same, isBelow_append] at aside
  cases aside

theorem listed?_source (entries : ∀ name ∈ way, IsEntry name) :
    disk.listed? (source.extend way) = base.listed? (source.extend way) := by
  symm
  apply listed?_congr laid.current.symm
  intro location onWay
  rcases onWay_extend entries onWay with early | ⟨beginning, -, -, rfl⟩
  · have directory := directory_of_onWay ready.standsSource early
    rw [directory, laid.directories location directory]
  · exact (laid.get?_source ready beginning).symm

theorem node?_source (entries : ∀ name ∈ way, IsEntry name) :
    disk.node? (source.extend way) = base.node? (source.extend way) := by
  ext node
  rw [node?_eq_some_iff, node?_eq_some_iff, laid.listed?_source ready entries]

theorem children_source (entries : ∀ name ∈ way, IsEntry name) :
    disk.children (disk.place (source.extend way)) =
      base.children (base.place (source.extend way)) := by
  rw [place_congr laid.current, place_extend base source entries]
  apply children_congr
  intro name
  rw [append_assoc, laid.get?_source ready]

theorem add (entries : ∀ name ∈ way, IsEntry name) (new : ∀ item ∈ done, ¬ way <+: item)
    (touches : Touches (· = base.place destination ++ way) disk next)
    (found : base.listed? (source.extend way) = some node)
    (usable : node ≠ .directory → base.node? (source.extend way) = some node)
    (reached : next.node? (destination.extend way) = some node) :
    Laid source destination base (done ++ [way]) next := by
  refine ⟨touches.current.trans laid.current, ?_, ?_, ?_⟩
  · intro item member
    rcases mem_append.1 member with early | last
    · obtain ⟨itemEntries, old, foundOld, usableOld, reachedOld⟩ := laid.reached item early
      refine ⟨itemEntries, old, foundOld, usableOld, ?_⟩
      rw [← reachedOld]
      apply touches.node?_extend (laid.isDirectory ready.standsDestination) itemEntries
      intro beginning _ isPrefix same
      rw [place_congr laid.current, append_cancel_left_eq] at same
      exact new item early (same ▸ isPrefix)
    · rw [mem_singleton.1 last]
      exact ⟨entries, node, found, usable, reached⟩
  · intro location free
    rw [touches.elsewhere location (free way (by simp))]
    exact laid.elsewhere location fun item member => free item (by simp [member])
  · exact fun location stands => touches.directories location (laid.directories location stands)

theorem isDirectory_placed (placed : way = [] ∨ way ∈ done)
    (stands : base.isDirectory (source.extend way)) :
    disk.isDirectory (destination.extend way) := by
  rcases placed with rfl | member
  · exact laid.isDirectory ready.standsDestination
  · obtain ⟨entries, node, found, -, reached⟩ := laid.reached way member
    rw [isDirectory_iff_node?, node?_eq_some_iff, found] at stands
    cases stands.2
    exact isDirectory_iff_node?.2 reached

end

end Laid

/-! ## The run of a copy -/

/-- What copying some nodes comes to: those before the first one without a place were laid, and
all of it succeeds if every node has a place. -/
structure Lays (source destination : Path) (base : Disk) (done items : List (List String))
    (result : Except IoError Unit × Disk) : Prop where
  laid : Laid source destination base (done ++ items.takeWhile (base.fits source destination))
    result.2
  whole : result.1 = .ok () ↔ ∀ item ∈ items, base.fits source destination item = true

namespace Lays

variable {done items later : List (List String)} {result : Except IoError Unit × Disk}

theorem nothing (laid : Laid source destination base done disk) :
    Lays source destination base done [] (.ok (), disk) :=
  ⟨by simpa using laid, by simp⟩

theorem one (laid : Laid source destination base (done ++ [item]) disk)
    (fine : base.fits source destination item) :
    Lays source destination base done [item] (.ok (), disk) := by
  refine ⟨?_, by simpa using fine⟩
  rw [takeWhile_cons_of_pos fine]
  exact laid

theorem stuck {cause : IoError} (laid : Laid source destination base done disk)
    (misfit : ¬ base.fits source destination item) :
    Lays source destination base done [item] (.error cause, disk) := by
  refine ⟨?_, by simpa using misfit⟩
  rw [takeWhile_cons_of_neg misfit, append_nil]
  exact laid

theorem laid_of_ok (lays : Lays source destination base done items result)
    (succeeded : result.1 = .ok ()) : Laid source destination base (done ++ items) result.2 := by
  have laid := lays.laid
  rwa [takeWhile_eq_self_iff.2 (lays.whole.1 succeeded)] at laid

theorem andThen {step next : DiskAction Unit}
    (first : Lays source destination base done items (step disk))
    (rest : ∀ after, Laid source destination base (done ++ items) after →
      Lays source destination base (done ++ items) later (next after)) :
    Lays source destination base done (items ++ later) ((step >>= fun _ => next) disk) := by
  rw [exceptBind_apply]
  cases ran : step disk with
  | mk outcome after =>
    rw [ran] at first
    cases outcome with
    | ok _ =>
      have all := first.whole.1 rfl
      have last := rest after (first.laid_of_ok rfl)
      refine ⟨?_, ?_⟩
      · rw [takeWhile_append_of_pos all, ← append_assoc]
        exact last.laid
      · rw [last.whole]
        constructor
        · intro fine item member
          rcases mem_append.1 member with early | late
          · exact all item early
          · exact fine item late
        · exact fun fine item member => fine item (by simp [member])
    | error cause =>
      have some : ¬ ∀ item ∈ items, base.fits source destination item :=
        fun all => nomatch first.whole.2 all
      refine ⟨?_, ?_⟩
      · have shorter : (items ++ later).takeWhile (base.fits source destination) =
            items.takeWhile (base.fits source destination) := by
          rw [takeWhile_append, if_neg]
          intro same
          apply some
          rw [← takeWhile_eq_self_iff]
          exact (List.takeWhile_prefix _).eq_of_length same
        rw [shorter]
        exact first.laid
      · constructor
        · intro contrary
          cases contrary
        · intro all
          exact absurd (fun item member => all item (by simp [member])) some

section

variable (ready : CopyReady source destination base) (laid : Laid source destination base done disk)
  (entries : ∀ other ∈ way ++ [name], IsEntry other) (placed : way = [] ∨ way ∈ done)
  (standsAbove : base.isDirectory (source.extend way))
  (new : ∀ item ∈ done, ¬ way ++ [name] <+: item)

include ready laid entries placed standsAbove new

/-- A directory is laid if it has a place. -/
theorem directory (isDirectory : base.listed? (source.extend (way ++ [name])) = some .directory) :
    Lays source destination base done [way ++ [name]]
      (makeDirectories (destination.extend (way ++ [name])) disk) := by
  have entry : IsEntry name := entries name (by simp)
  have above := laid.isDirectory_placed ready placed standsAbove
  have here := laid.place_concat entries
  have free := laid.get?_free new
  have law := makeDirectories_join entry above
  rw [here, free] at law
  have fitsIff := @fits_concat_iff base source destination name way entry
  simp only [isDirectory, true_or, true_and, iff_true] at fitsIff
  rw [extend_concat]
  cases ran : makeDirectories ((destination.extend way).join name) disk with
  | mk outcome opened =>
    cases outcome with
    | ok _ =>
      obtain ⟨touches, stands, -⟩ := makeDirectories_join_ok entry above ran
      rw [here] at touches
      obtain ⟨room, notFile⟩ := law.1 ⟨opened, ran⟩
      have fine : base.fits source destination (way ++ [name]) := by
        refine fitsIff.2 ⟨room, fun node found => ?_⟩
        cases node with
        | directory => rfl
        | file content => exact absurd found (notFile content)
      refine one (laid.add ready entries new touches isDirectory
        (fun other => absurd rfl other) ?_) fine
      rw [extend_concat]
      exact isDirectory_iff_node?.1 stands
    | error cause =>
      have misfit : ¬ base.fits source destination (way ++ [name]) := by
        intro fine
        obtain ⟨room, sorts⟩ := fitsIff.1 fine
        obtain ⟨_, made⟩ := law.2 ⟨room, fun content found => by cases sorts _ found⟩
        rw [ran] at made
        cases made
      exact stuck (laid.of_touches (makeDirectories_join_error entry above ran)) misfit

/-- A file is laid if it can be read and has a place. -/
theorem file {content : Bytes}
    (isFile : base.listed? (source.extend (way ++ [name])) = some (.file content)) :
    Lays source destination base done [way ++ [name]]
      ((makeParents (destination.extend (way ++ [name])) >>= fun _ =>
        attempt (copyFile (source.extend (way ++ [name])) (destination.extend (way ++ [name]))))
        disk) := by
  have entry : IsEntry name := entries name (by simp)
  have above := laid.isDirectory_placed ready placed standsAbove
  have here := laid.place_concat entries
  have free := laid.get?_free new
  have law := writeFile_join entry above content
  rw [here, free] at law
  have fitsIff := @fits_concat_iff base source destination name way entry
  simp only [isFile, Option.some_inj, reduceCtorEq, false_or, iff_false] at fitsIff
  rw [extend_concat destination, exceptBind_of_ok (makeParents_join entry above), attempt]
  have same := laid.node?_source ready entries
  by_cases usable : refuse (source.extend (way ++ [name])) = .ok ()
  rotate_left
  · -- the path of the file is too long
    have notFound : ∀ node, base.node? (source.extend (way ++ [name])) ≠ some node :=
      fun node found => usable (node?_eq_some_iff.1 found).1
    cases copied : copyFile (source.extend (way ++ [name])) ((destination.extend way).join name)
        disk with
    | error cause =>
      refine stuck laid fun fine => ?_
      obtain ⟨content, found⟩ := isFile_iff.1 (fitsIff.1 fine).2.1
      exact notFound _ found
    | ok written =>
      obtain ⟨content, found, -⟩ := copyFile_ok copied
      exact absurd (same.symm.trans found) (notFound _)
  have read : base.node? (source.extend (way ++ [name])) = some (.file content) :=
    node?_eq_some_iff.2 ⟨usable, isFile⟩
  have readable : base.isFile (source.extend (way ++ [name])) := isFile_iff.2 ⟨content, read⟩
  rw [copyFile_of_readFile (readFile_eq_ok_iff.2 (same.trans read))]
  cases wrote : writeFile ((destination.extend way).join name) content disk with
  | ok written =>
    have touches := touches_updateFile wrote
    have stored := get?_of_writeFile wrote
    rw [place_join _ _ entry, here] at touches stored
    obtain ⟨room, notThere⟩ := law.1 ⟨written, wrote⟩
    have fine : base.fits source destination (way ++ [name]) := by
      refine fitsIff.2 ⟨room, readable, fun node found isDirectory => ?_⟩
      exact notThere (isDirectory ▸ found)
    refine one (laid.add ready entries new touches isFile (fun _ => read) ?_) fine
    rw [extend_concat, node?_join (touches.isDirectory above) room, place_congr touches.current,
      here]
    exact stored
  | error cause =>
    have misfit : ¬ base.fits source destination (way ++ [name]) := by
      intro fine
      obtain ⟨room, -, sorts⟩ := fitsIff.1 fine
      obtain ⟨_, written⟩ := law.2 ⟨room, fun found => sorts _ found rfl⟩
      rw [wrote] at written
      cases written
    exact stuck laid misfit

end

end Lays

section

variable {order : Path → List String → List String} {done : List (List String)}

theorem lays_copyNames {names : List String}
    (node : ∀ {name : String} {done : List (List String)} {disk : Disk},
      Laid source destination base done disk → (∀ other ∈ way ++ [name], IsEntry other) →
      way = [] ∨ way ∈ done → (∀ item ∈ done, ¬ way ++ [name] <+: item) →
      Lays source destination base done (base.walkNodeIn order source fuel (way ++ [name]))
      (copyNodeIn order fuel (source.extend (way ++ [name])) (destination.extend (way ++ [name])) disk))
    (laid : Laid source destination base done disk) (nodup : names.Nodup)
    (entries : ∀ name ∈ names, ∀ other ∈ way ++ [name], IsEntry other)
    (placed : way = [] ∨ way ∈ done) (new : ∀ name ∈ names, ∀ item ∈ done, ¬ way ++ [name] <+: item) :
    Lays source destination base done
      (names.flatMap fun name => base.walkNodeIn order source fuel (way ++ [name]))
      (copyNames (copyNodeIn order fuel) (source.extend way) (destination.extend way) names disk) := by
  induction names generalizing done disk with
  | nil =>
    rw [copyNames]
    exact Lays.nothing laid
  | cons name rest ih =>
    obtain ⟨notLater, restNodup⟩ := nodup_cons.1 nodup
    rw [copyNames, flatMap_cons, ← extend_concat, ← extend_concat]
    refine Lays.andThen (node laid (entries name (by simp)) placed (new name (by simp))) ?_
    intro after first
    refine ih first restNodup (forall_mem_cons.1 entries).2 ?_ ?_
    · exact placed.imp id fun member => mem_append_left _ member
    · intro other member item gone below
      rcases mem_append.1 gone with early | late
      · exact new other (by simp [member]) item early below
      · -- Both names would follow the way in one item.
        have above := isPrefix_of_mem_walkNodeIn late
        have together := (prefix_of_prefix_length_le below above (by simp)).eq_of_length
          (by simp)
        rw [append_cancel_left_eq] at together
        cases together
        exact notLater member

variable (ordered : ∀ path names, (order path names).Perm names)

include ordered

/-- A node is laid with everything below it. -/
theorem lays_copyNode (ready : CopyReady source destination base)
    (standsAbove : base.isDirectory (source.extend way))
    (enough : pathLimit ≤ fuel + (source.extend way).text.utf8ByteSize)
    (laid : Laid source destination base done disk)
    (entries : ∀ other ∈ way ++ [name], IsEntry other) (placed : way = [] ∨ way ∈ done)
    (new : ∀ item ∈ done, ¬ way ++ [name] <+: item) :
    Lays source destination base done (base.walkNodeIn order source fuel (way ++ [name]))
      (copyNodeIn order fuel (source.extend (way ++ [name])) (destination.extend (way ++ [name]))
        disk) := by
  induction fuel generalizing way name done disk with
  | zero =>
    have usable := utf8ByteSize_of_refuse (isDirectory_iff.1 standsAbove).1
    omega
  | succ fuel ih =>
    have same := laid.listed?_source ready entries
    have looked : (get : DiskAction Disk) disk = (.ok disk, disk) := rfl
    rw [copyNodeIn, exceptBind_of_ok looked, walkNodeIn, same]
    cases found : base.listed? (source.extend (way ++ [name])) with
    | none => exact Lays.nothing laid
    | some node =>
      cases node with
      | file content => exact Lays.file ready laid entries placed standsAbove new found
      | directory =>
        have entry := entries name (by simp)
        have longer := (utf8ByteSize_join (source.extend way) entry).1
        have notEmpty : 0 < name.utf8ByteSize := by
          rw [Nat.pos_iff_ne_zero]
          simpa using entry.notEmpty
        have apart (later : List (List String)) :
            (way ++ [name]) :: later = [way ++ [name]] ++ later := rfl
        dsimp only
        rw [apart]
        refine Lays.andThen (Lays.directory ready laid entries placed standsAbove new found) ?_
        intro opened first
        by_cases isDirectory : base.isDirectory (source.extend (way ++ [name]))
        rotate_left
        · -- the path of the directory is too long
          rw [if_neg isDirectory, exceptBind_apply]
          cases listed : opened.listNames (source.extend (way ++ [name])) with
          | error cause => exact Lays.stuck first not_fits_blank
          | ok names =>
            have entered := (listNames_eq_ok_iff.1 listed).1
            rw [isDirectory_iff_node?, first.node?_source ready entries,
              ← isDirectory_iff_node?] at entered
            exact absurd entered isDirectory
        rw [if_pos isDirectory]
        have names : opened.listNames (source.extend (way ++ [name])) =
            .ok (base.children (base.place (source.extend (way ++ [name])))) := by
          refine listNames_eq_ok_iff.2 ⟨first.isDirectory isDirectory, ?_⟩
          exact (first.children_source ready entries).symm
        rw [exceptBind_apply, names]
        have listed : ∀ other ∈ order (source.extend (way ++ [name]))
            (base.children (base.place (source.extend (way ++ [name])))),
            ∀ one ∈ way ++ [name] ++ [other], IsEntry one := by
          intro other member
          exact ready.named.of_listed entries ((ordered _ _).mem_iff.1 member)
        refine lays_copyNames (fun {other done disk} laid entries placed new => ?_) first
          ((ordered _ _).nodup_iff.2 (nodup_children _ _)) listed (.inr (by simp)) ?_
        · refine ih isDirectory ?_ laid entries placed new
          rw [extend_concat]
          omega
        · intro other _ item gone below
          rcases mem_append.1 gone with early | last
          · exact new item early ((prefix_append _ _).trans below)
          · rw [mem_singleton.1 last] at below
            have longer := below.length_le
            simp at longer

/-- What copying a tree comes to: the nodes of the tree are laid in the order of a walk, up to the
first one without a place. -/
theorem lays_copyTreeIn (made : makeDirectories destination disk = (.ok (), opened))
    (ready : CopyReady source destination opened) :
    Lays source destination opened [] (opened.walkTreeIn order source)
      (copyTreeIn order source destination disk) := by
  obtain ⟨accepted, walked, directory⟩ := isDirectory_iff.1 ready.standsSource
  have located : opened.locate source = .ok (opened.place source) :=
    locate_eq_ok_iff.2 ⟨accepted, walked⟩
  have looked : (get : DiskAction Disk) opened = (.ok opened, opened) := rfl
  rw [copyTreeIn, exceptBind_of_ok made, exceptBind_of_ok looked, located]
  dsimp only
  rw [isDirectoryAt, directory, if_pos (by decide),
    listNames_eq_ok_iff.2 ⟨ready.standsSource, rfl⟩]
  refine lays_copyNames (fun laid entries placed new => ?_)
    (Laid.nil source destination opened) ((ordered _ _).nodup_iff.2 (nodup_children _ _)) ?_
    (.inl rfl) (by simp)
  · exact lays_copyNode ordered ready ready.standsSource (Nat.le_add_right _ _) laid entries placed new
  · intro name member
    exact ready.named [name] (mem_children_iff.1 ((ordered _ _).subset member))

end

theorem lays_copyTree (made : makeDirectories destination disk = (.ok (), opened))
    (ready : CopyReady source destination opened) :
    Lays source destination opened [] (opened.walkTree source)
      (copyTree source destination disk) := by
  rw [walkTree, ← copyTreeIn_sorted]
  exact lays_copyTreeIn (fun _ names => .refl names) made ready

/-! ## Copies that succeed -/

/-- A tree was copied over a directory. -/
structure Copied (source destination : Path) (before after : Disk) : Prop where
  touches : Touches (fun location => isBelow (before.place destination) location = true)
    before after
  nodes : ∀ rest,
    after.get? (before.place destination ++ rest) = before.get? (before.place destination ++ rest) ∨
      (∀ name ∈ rest, IsEntry name) ∧ ∃ node, before.node? (source.extend rest) = some node ∧
        after.get? (before.place destination ++ rest) = some node
  reached : ∀ rest, (∀ name ∈ rest, IsEntry name) → ∀ node,
    before.node? (source.extend rest) = some node →
      after.node? (destination.extend rest) = some node

section

variable {source destination : Path} {staged after : Disk}
  (reached : ∀ way ∈ staged.walkTree source, Brought source destination staged after way)

include reached

/-- If everything on a walk was brought, a path leads to each node of the source. -/
theorem node?_of_brought (member : way ∈ staged.walkTree source) :
    ∃ node, staged.node? (source.extend way) = some node ∧
      after.node? (destination.extend way) = some node := by
  obtain ⟨entries, node, found, usable, there⟩ := reached way member
  refine ⟨node, ?_, there⟩
  by_cases isDirectory : node = .directory
  · rw [isDirectory] at found ⊢
    rw [← isDirectory_iff_node?]
    exact isDirectory_of_mem_walkTree (fun item walked => (reached item walked).entries) member found
  · exact usable isDirectory

theorem brought_of_node? (stands : staged.isDirectory source) (notEmpty : way ≠ [])
    (entries : ∀ name ∈ way, IsEntry name) (found : staged.node? (source.extend way) = some node) :
    after.node? (destination.extend way) = some node := by
  have member := mem_walkTree_of_listed? (fun item walked => (reached item walked).entries) stands
    notEmpty entries (by simp [(node?_eq_some_iff.1 found).2])
  obtain ⟨other, isOther, there⟩ := node?_of_brought reached member
  rw [there, ← isOther, found]

end

theorem Laid.node?_of_listed? (ready : CopyReady source destination base)
    (laid : Laid source destination base (base.walkTree source) after) (way : List String)
    (entries : ∀ name ∈ way, IsEntry name) (node : Node)
    (listed : base.listed? (source.extend way) = some node) :
    base.node? (source.extend way) = some node := by
  by_cases empty : way = []
  · rw [empty, extend_nil] at listed ⊢
    rw [node?_eq_some_iff]
    exact ⟨(isDirectory_iff.1 ready.standsSource).1, listed⟩
  · have member := mem_walkTree_of_listed? (fun item walked => (laid.reached item walked).entries)
      ready.standsSource empty entries (by simp [listed])
    obtain ⟨other, isOther, -⟩ := node?_of_brought laid.reached member
    rw [isOther, ← listed, (node?_eq_some_iff.1 isOther).2]

/-- A tree that was laid whole is copied. -/
theorem Laid.copied (ready : CopyReady source destination base)
    (laid : Laid source destination base (base.walkTree source) after) :
    Copied source destination base after := by
  refine ⟨⟨laid.current, ?_, laid.directories⟩, ?_, ?_⟩
  · intro location outside
    apply laid.elsewhere
    rintro way - rfl
    exact outside (isBelow_append _ _)
  · intro rest
    by_cases member : rest ∈ base.walkTree source
    · obtain ⟨entries, -⟩ := laid.reached rest member
      obtain ⟨node, found, reached⟩ := node?_of_brought laid.reached member
      refine .inr ⟨entries, node, found, ?_⟩
      rw [← place_congr laid.current, ← place_extend after destination entries]
      exact get?_of_node? reached
    · refine .inl (laid.elsewhere _ ?_)
      intro way walked same
      rw [append_cancel_left_eq] at same
      exact member (same ▸ walked)
  · intro rest entries node found
    by_cases empty : rest = []
    · rw [empty, extend_nil, isDirectory_iff_node?.1 ready.standsSource] at found
      rw [empty, extend_nil, ← found]
      exact isDirectory_iff_node?.1 (laid.isDirectory ready.standsDestination)
    · exact brought_of_node? laid.reached ready.standsSource empty entries found

theorem copied_of_copyTree (done : copyTree source destination disk = (.ok (), after)) :
    ∃ opened, makeDirectories destination disk = (.ok (), opened) ∧
      (CopyReady source destination opened → Copied source destination opened after) := by
  have unfolded := done
  unfold copyTree at unfolded
  obtain ⟨_, opened, made, -⟩ := exceptBind_ok unfolded
  refine ⟨opened, made, fun ready => ?_⟩
  have lays := lays_copyTree made ready
  rw [done] at lays
  exact (lays.laid_of_ok rfl).copied ready

theorem CopyReady.of_apart (standsSource : base.isDirectory source)
    (standsDestination : base.isDirectory destination)
    (apart : Apart (base.place source) (base.place destination))
    (named : base.NamedBelow (base.place source)) : CopyReady source destination base :=
  ⟨standsSource, standsDestination, named, fun way _ => apart.isBelow way⟩

end Disk

end OpsContent
