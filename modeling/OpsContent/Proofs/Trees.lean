import OpsContent.Proofs.Listings
import OpsContent.Proofs.Zone

/-!
# Trees and frames

Paths that go on from a directory, and the places that work on a disk may touch.  What a path leads
to is the same afterwards if none of the places behind the directory is touched.
-/

namespace OpsContent

namespace Path

/-- The path with names behind it. -/
def extend (path : Path) (names : List String) : Path :=
  names.foldl join path

@[simp] theorem extend_nil (path : Path) : path.extend [] = path := rfl

@[simp] theorem extend_cons (path : Path) (name : String) (names : List String) :
    path.extend (name :: names) = (path.join name).extend names := rfl

end Path

namespace Disk

open OpsContent.Path List

variable {disk before between after : Disk} {path source destination : Path} {name : String}
  {location : Location} {content : Bytes} {names : List String} {node : Node}
  {left right : Location}

/-- Names that extend a path extend its place. -/
theorem place_extend (disk : Disk) (path : Path) (entries : ∀ name ∈ names, IsEntry name) :
    disk.place (path.extend names) = disk.place path ++ names := by
  induction names generalizing path with
  | nil => simp
  | cons name rest ih =>
    rw [extend_cons, ih _ (forall_mem_cons.1 entries).2,
      place_join disk path (entries name (by simp)), append_assoc]
    rfl

theorem onWay_extend (entries : ∀ name ∈ names, IsEntry name)
    (onWay : disk.OnWay (path.extend names) location) :
    disk.OnWay path location ∨
      ∃ beginning, beginning ≠ [] ∧ beginning <+: names ∧
        location = disk.place path ++ beginning := by
  induction names generalizing path with
  | nil => exact .inl onWay
  | cons name rest ih =>
    have entry := entries name (by simp)
    rcases ih (forall_mem_cons.1 entries).2 onWay with
      early | ⟨beginning, -, isPrefix, rfl⟩
    · rcases onWay_join entry early with here | above
      · rw [here, place_join disk path entry]
        exact .inr ⟨[name], by simp, by simp, rfl⟩
      · exact .inl above
    · refine .inr ⟨name :: beginning, by simp, ?_, ?_⟩
      · exact (prefix_cons_inj name).2 isPrefix
      · rw [place_join disk path entry, append_assoc]
        rfl

theorem listed?_of_join (entry : IsEntry name)
    (found : disk.listed? (path.join name) = some node) : disk.listed? path = some .directory := by
  obtain ⟨walked, -⟩ := listed?_eq_some_iff.1 found
  rw [start_join disk path entry, pieces_join_entry entry] at walked
  have early := walk_beginning walked (prefix_append path.stem [name])
  have directory := directory_of_walk walked (prefix_append path.stem [name]) (by simp)
  rw [follow_stem] at early directory
  refine listed?_eq_some_iff.2 ⟨?_, directory⟩
  unfold stem at early
  split at early
  next trailing =>
    have whole := dropLast_append_getLast? "" trailing
    rw [← whole, walk_append, early]
    exact walk_idle directory (by simp [isIdle])
  · exact early

/-- What holds an entry is a directory. -/
theorem isDirectory_of_node?_join (entry : IsEntry name) (notBlank : path.pieces ≠ [""])
    (found : disk.node? (path.join name) = some node) : disk.isDirectory path := by
  obtain ⟨accepted, listed⟩ := node?_eq_some_iff.1 found
  rw [isDirectory_iff_node?, node?_eq_some_iff]
  exact ⟨refuse_of_join entry notBlank accepted, listed?_of_join entry listed⟩

theorem isDirectory_of_node?_extend (entry : IsEntry name) (entries : ∀ name ∈ names, IsEntry name)
    (notBlank : path.pieces ≠ [""]) (found : disk.node? (path.extend (name :: names)) = some node) :
    disk.isDirectory path := by
  induction names generalizing path name node with
  | nil => exact isDirectory_of_node?_join entry notBlank found
  | cons other rest ih =>
    have stands : disk.isDirectory (path.join name) :=
      ih (entries other (by simp)) (forall_mem_cons.1 entries).2
        (pieces_join_ne_blank path entry) found
    exact isDirectory_of_node?_join entry notBlank (isDirectory_iff_node?.1 stands)

/-! ## Frames -/

/-- Only the given places may have changed, and directories have stayed. -/
structure Touches (touched : Location → Prop) (before after : Disk) : Prop where
  current : after.current = before.current
  elsewhere : ∀ location, ¬ touched location → after.get? location = before.get? location
  directories : ∀ location, before.get? location = some .directory →
    after.get? location = some .directory

namespace Touches

variable {touched wider : Location → Prop}

protected theorem refl (touched : Location → Prop) (disk : Disk) : Touches touched disk disk :=
  ⟨rfl, fun _ _ => rfl, fun _ stands => stands⟩

protected theorem trans (left : Touches touched before between)
    (right : Touches touched between after) : Touches touched before after where
  current := right.current.trans left.current
  elsewhere location free := (right.elsewhere location free).trans (left.elsewhere location free)
  directories location stands := right.directories location (left.directories location stands)

theorem mono (touches : Touches touched before after)
    (inside : ∀ location, touched location → wider location) : Touches wider before after where
  current := touches.current
  elsewhere location free := touches.elsewhere location fun is => free (inside location is)
  directories := touches.directories

theorem isDirectory (touches : Touches touched before after)
    (stands : before.isDirectory path) : after.isDirectory path :=
  isDirectory_of_directories touches.current (fun location _ => touches.directories location) stands

/-- What a path on from a directory leads to is the same if no place behind the directory is
touched. -/
theorem node?_extend (touches : Touches touched before after)
    (stands : before.isDirectory path) (entries : ∀ name ∈ names, IsEntry name)
    (free : ∀ beginning, beginning ≠ [] → beginning <+: names →
      ¬ touched (before.place path ++ beginning)) :
    after.node? (path.extend names) = before.node? (path.extend names) := by
  symm
  apply node?_congr touches.current.symm
  intro location onWay
  rcases onWay_extend entries onWay with early | ⟨beginning, notEmpty, isPrefix, rfl⟩
  · have directory := directory_of_onWay stands early
    rw [directory, touches.directories location directory]
  · exact (touches.elsewhere _ (free beginning notEmpty isPrefix)).symm

theorem node?_join (touches : Touches touched before after)
    (stands : before.isDirectory path) (entry : IsEntry name)
    (free : ¬ touched (before.place path ++ [name])) :
    after.node? (path.join name) = before.node? (path.join name) := by
  have entries : ∀ other ∈ [name], IsEntry other := by simpa using entry
  apply touches.node?_extend stands entries
  intro beginning notEmpty isPrefix
  rcases prefix_cons_iff.1 isPrefix with rfl | ⟨rest, rfl, empty⟩
  · exact absurd rfl notEmpty
  · rwa [prefix_nil.1 empty]

end Touches

/-- Neither location is below the other. -/
def Apart (left right : Location) : Prop :=
  ¬ left <+: right ∧ ¬ right <+: left

theorem Apart.symm (apart : Apart left right) : Apart right left :=
  And.symm apart

theorem Apart.append (apart : Apart left right) (first second : Location) :
    Apart (left ++ first) (right ++ second) := by
  have compared : ∀ whole, left <+: whole → right <+: whole → False := by
    intro whole beginsLeft beginsRight
    rcases prefix_or_prefix_of_prefix beginsLeft beginsRight with below | below
    · exact apart.1 below
    · exact apart.2 below
  constructor
  · intro below
    exact compared _ ((prefix_append left first).trans below) (prefix_append right second)
  · intro below
    exact compared _ (prefix_append left first)
      ((prefix_append right second).trans below)

theorem Apart.isBelow (apart : Apart left right) (rest : Location) :
    isBelow left (right ++ rest) = false := by
  rw [← Bool.not_eq_true, isBelow_iff]
  have further := (apart.append [] rest).1
  rwa [append_nil] at further

/-! ## Frames of single operations -/

theorem OpensOnly.touches {way : Location → Prop} (opens : OpensOnly way disk after) :
    Touches (fun location => way location ∧ disk.get? location = none) disk after where
  current := opens.current
  elsewhere location kept := by
    rcases opens.nodes location with same | ⟨onWay, free, -⟩
    · exact same
    · exact absurd ⟨onWay, free⟩ kept
  directories _ := opens.stands

theorem touches_updateFile {change : Bytes → Bytes}
    (done : updateFile change path disk = .ok after) :
    Touches (· = disk.place path) disk after := by
  obtain ⟨inside, notDirectory, _, rfl⟩ := updateFile_ok done
  refine ⟨rfl, ?_, ?_⟩
  · intro location other
    rw [get?_put _ _ _ _ inside, if_neg other]
  · intro location stands
    rw [get?_put _ _ _ _ inside, if_neg, stands]
    rintro rfl
    exact notDirectory stands

theorem get?_of_writeFile (done : writeFile path content disk = .ok after) :
    after.get? (disk.place path) = some (.file content) := by
  obtain ⟨inside, -, _, rfl⟩ := updateFile_ok done
  rw [get?_put _ _ _ _ inside, if_pos rfl]

theorem touches_makeDirectories_join (entry : IsEntry name)
    (stands : disk.isDirectory path) :
    Touches (· = disk.place path ++ [name]) disk (makeDirectories (path.join name) disk).2 := by
  have opens := makeDirectories_opensOnly (path.join name) disk
  refine ⟨opens.current, ?_, fun location => opens.stands⟩
  intro location other
  rcases opens.nodes location with same | ⟨onWay, free, -⟩
  · exact same
  · rcases onWay_join entry onWay with here | above
    · exact absurd (here.trans (place_join disk path entry)) other
    · rw [directory_of_onWay stands above] at free
      cases free

/-- One more directory is made below one that stands. -/
theorem makeDirectories_join_ok {opened : Disk} (entry : IsEntry name)
    (stands : disk.isDirectory path)
    (made : makeDirectories (path.join name) disk = (.ok (), opened)) :
    Touches (· = disk.place path ++ [name]) disk opened ∧
      opened.isDirectory (path.join name) ∧
      (disk.get? (disk.place path ++ [name]) = none ∨
        disk.get? (disk.place path ++ [name]) = some .directory) := by
  have touches := touches_makeDirectories_join entry stands
  have opens := opensOnly_made made
  rw [made] at touches
  have made := isDirectory_of_makeDirectories made (pieces_join_ne_blank path entry)
  refine ⟨touches, made, ?_⟩
  have directory := (isDirectory_iff.1 made).2.2
  rw [place_congr opens.current, place_join disk path entry] at directory
  rcases opens.nodes (disk.place path ++ [name]) with same | ⟨-, free, -⟩
  · exact .inr (same ▸ directory)
  · exact .inl free

theorem notBelow_of_ne {top : Location} {other : String} (different : other ≠ name)
    (rest : Location) : isBelow (top ++ [name]) (top ++ other :: rest) = false := by
  rw [← Bool.not_eq_true, isBelow_iff, prefix_append_right_inj, cons_prefix_cons]
  exact fun below => different below.1.symm

theorem copyFile_of_readFile (read : disk.readFile source = .ok content) :
    copyFile source destination disk = writeFile destination content disk := by
  unfold readFile at read
  unfold copyFile
  cases located : disk.locate source with
  | error cause => simp [located] at read
  | ok location =>
    rw [located] at read
    dsimp only at read ⊢
    cases found : disk.get? location with
    | none => simp [found] at read
    | some node => cases node <;> simp_all

end Disk

end OpsContent
