import Mathlib.Data.List.DropRight
import OpsContent.Proofs.Steps
import OpsContent.Staging.Unpack

/-!
# What operations on files change

Each operation that succeeds is one change of the disk at the place that its path leads to.
These lemmas say which, and everything about operations is derived from them and from the
lemmas on the changes themselves.
-/

/-! ## Where paths lead -/

namespace OpsContent

open List

namespace Path

variable {name piece : String} {path : Path} {text : String} {chars : List Char}

/-- Where a piece leads, files and missing directories aside. -/
def advance (location : Location) (piece : String) : Location :=
  if isIdle piece then location
  else if piece = ".." then location.dropLast
  else location ++ [piece]

/-- Where pieces lead. -/
def follow (location : Location) (pieces : List String) : Location :=
  pieces.foldl advance location

/-- A name that a path can go on with to an entry of a directory. -/
structure IsEntry (piece : String) : Prop where
  notEmpty : piece ≠ ""
  notSelf : piece ≠ "."
  notParent : piece ≠ ".."
  noSlash : '/' ∉ piece.toList

instance (name : String) : Decidable (IsEntry name) :=
  decidable_of_iff (name ≠ "" ∧ name ≠ "." ∧ name ≠ ".." ∧ '/' ∉ name.toList)
    ⟨fun holds => ⟨holds.1, holds.2.1, holds.2.2.1, holds.2.2.2⟩,
      fun entry => ⟨entry.notEmpty, entry.notSelf, entry.notParent, entry.noSlash⟩⟩

theorem IsPlain.isEntry (plain : IsPlain name) : IsEntry name :=
  ⟨plain.1, plain.2.1, plain.2.2.1, plain.2.2.2.1⟩

theorem IsEntry.notIdle (entry : IsEntry piece) : isIdle piece = false := by
  simp [isIdle, entry.notEmpty, entry.notSelf]

@[simp] theorem advance_entry (location : Location) (entry : IsEntry piece) :
    advance location piece = location ++ [piece] := by
  simp [advance, entry.notIdle, entry.notParent]

@[simp] theorem follow_nil (location : Location) : follow location [] = location := rfl

@[simp] theorem follow_cons (location : Location) (piece : String) (rest : List String) :
    follow location (piece :: rest) = follow (advance location piece) rest := rfl

@[simp] theorem follow_append (location : Location) (first rest : List String) :
    follow location (first ++ rest) = follow (follow location first) rest :=
  foldl_append

theorem follow_idle (location : Location) {pieces : List String}
    (idle : ∀ piece ∈ pieces, isIdle piece) : follow location pieces = location := by
  induction pieces with
  | nil => rfl
  | cons piece rest ih =>
    have here : advance location piece = location := by
      simp [advance, idle piece (by simp)]
    rw [follow_cons, here]
    exact ih (forall_mem_cons.1 idle).2

/-! ## Pieces of a text -/

theorem notMem_of_mem_splitOn {mark : Char} {part : List Char} (member : part ∈ chars.splitOn mark) :
    mark ∉ part := by
  induction chars generalizing part with
  | nil => simp_all
  | cons char rest ih =>
    rw [splitOn_cons_eq_if_modifyHead] at member
    cases parts : rest.splitOn mark with
    | nil => simp_all
    | cons head tail =>
      rw [parts] at ih
      rw [parts, modifyHead_cons] at member
      grind

theorem noSlash_of_mem_split (member : piece ∈ split chars) : '/' ∉ piece.toList := by
  obtain ⟨part, inParts, rfl⟩ := mem_map.1 member
  simpa using notMem_of_mem_splitOn inParts

theorem noSlash_of_mem_ofText (member : piece ∈ (ofText text).pieces) : '/' ∉ piece.toList := by
  unfold ofText at member
  split at member <;> exact noSlash_of_mem_split member

theorem pieces_ofText_ne_nil (text : String) : (ofText text).pieces ≠ [] := by
  unfold ofText
  split <;> simp [split]

theorem ofText_of_noSlash (noSlash : '/' ∉ text.toList) : ofText text = ⟨false, [text]⟩ := by
  unfold ofText
  split
  next rest starts => simp [starts] at noSlash
  · simp [split, splitOn_eq_singleton noSlash]

/-! ## Joining -/

def stem (path : Path) : List String :=
  if path.pieces.getLast? = some "" then path.pieces.dropLast else path.pieces

theorem pieces_join (relative : (ofText name).absolute = false) :
    (path.join name).pieces = path.stem ++ (ofText name).pieces := by
  simp only [join, relative, stem, Bool.false_eq_true, if_false]
  split <;> rfl

theorem absolute_join (relative : (ofText name).absolute = false) :
    (path.join name).absolute = path.absolute := by
  simp only [join, relative, Bool.false_eq_true, if_false]
  split <;> rfl

theorem stem_beginning (path : Path) : path.stem <+: path.pieces := by
  unfold stem
  split
  · exact dropLast_prefix _
  · exact prefix_refl _

theorem follow_stem (location : Location) (path : Path) :
    follow location path.stem = follow location path.pieces := by
  unfold stem
  split
  next trailing =>
    have whole : path.pieces.dropLast ++ [""] = path.pieces :=
      dropLast_append_getLast? "" trailing
    conv_rhs => rw [← whole]
    simp [advance, isIdle]
  · rfl

theorem stem_of_getLast (last : path.pieces.getLast? ≠ some "") : path.stem = path.pieces := by
  simp [stem, last]

/-- The name is put behind the pieces that lead somewhere. -/
theorem pieces_join_entry (entry : IsEntry name) :
    (path.join name).pieces = path.stem ++ [name] := by
  have single := ofText_of_noSlash entry.noSlash
  rw [pieces_join (by rw [single]), single]

theorem pieces_join_ne_blank (path : Path) (entry : IsEntry name) :
    (path.join name).pieces ≠ [""] := by
  simp [pieces_join_entry entry, append_eq_cons_iff, entry.notEmpty]

theorem absolute_join_entry (entry : IsEntry name) : (path.join name).absolute = path.absolute :=
  absolute_join (by rw [ofText_of_noSlash entry.noSlash])

/-! ## Parents -/

theorem trimIdle_beginning (path : Path) : path.trimIdle <+: path.pieces := by
  have shorter : (path.pieces.reverse.dropWhile isIdle).reverse <+: path.pieces :=
    rdropWhile_prefix isIdle path.pieces
  unfold trimIdle
  dsimp only
  split
  next starts => simp [starts]
  · exact shorter

theorem parent?_pieces {parent : Path} (found : path.parent? = some parent) :
    parent.absolute = path.absolute ∧
      ∃ start, start <+: path.trimIdle.dropLast ∧
        (parent.pieces = start ∨ parent.pieces = [""] ∧ start = []) := by
  unfold parent? at found
  split at found
  · simp at found
  · simp only [Option.some.injEq] at found
    subst found
    refine ⟨rfl, trimIdle { path with pieces := path.trimIdle.dropLast }, trimIdle_beginning _, ?_⟩
    split
    next empty => exact .inr ⟨rfl, by simpa using empty⟩
    · exact .inl rfl

end Path

namespace Disk

open OpsContent.Path

variable {name : String} {disk : Disk} {parent : Path} {location : Location} {pieces : List String}
  {path : Path} {next last : Location} {piece : String}

/-- Where a path leads, if it leads anywhere. -/
def place (disk : Disk) (path : Path) : Location :=
  follow (disk.start path) path.pieces

/-- The path passes the location. -/
def OnWay (disk : Disk) (path : Path) (location : Location) : Prop :=
  ∃ beginning, beginning <+: path.pieces ∧ location = follow (disk.start path) beginning

theorem onWay_place (disk : Disk) (path : Path) : disk.OnWay path (disk.place path) :=
  ⟨path.pieces, prefix_refl _, rfl⟩

theorem start_join (disk : Disk) (parent : Path) (entry : IsEntry name) :
    disk.start (parent.join name) = disk.start parent := by
  simp [start, absolute_join_entry entry]

/-- An entry is placed below its directory. -/
theorem place_join (disk : Disk) (parent : Path) (entry : IsEntry name) :
    disk.place (parent.join name) = disk.place parent ++ [name] := by
  rw [place, place, start_join disk parent entry, pieces_join_entry entry, follow_append,
    follow_stem, follow_cons, advance_entry _ entry, follow_nil]

/-- What is on the way to a new directory is on the way to the one it is made in, or the new
directory itself. -/
theorem onWay_join (entry : IsEntry name) (onWay : disk.OnWay (parent.join name) location) :
    location = disk.place (parent.join name) ∨ disk.OnWay parent location := by
  obtain ⟨beginning, isPrefix, rfl⟩ := onWay
  rw [pieces_join_entry entry, prefix_concat_iff] at isPrefix
  rcases isPrefix with whole | early
  · left
    rw [place, pieces_join_entry entry, whole]
  · right
    exact ⟨beginning, early.trans (stem_beginning parent), by rw [start_join disk parent entry]⟩

theorem OnWay.join (entry : IsEntry name) (onWay : disk.OnWay parent location) :
    disk.OnWay (parent.join name) location := by
  obtain ⟨beginning, isPrefix, rfl⟩ := onWay
  rw [← start_join disk parent entry]
  by_cases early : beginning <+: parent.stem
  · exact ⟨beginning, pieces_join_entry entry ▸ early.trans (prefix_append _ _), rfl⟩
  · -- a trailing slash leads nowhere else
    have whole : beginning = parent.pieces := by
      unfold stem at early
      split at early
      next trailing =>
        have ending := dropLast_append_getLast? "" trailing
        rw [← ending, prefix_concat_iff] at isPrefix
        rw [← ending]
        exact isPrefix.resolve_right early
      · exact absurd isPrefix early
    refine ⟨parent.stem, pieces_join_entry entry ▸ prefix_append _ _, ?_⟩
    rw [whole, follow_stem]

theorem OnWay.beginning_of_parent (found : path.parent? = some parent)
    (onWay : disk.OnWay parent location) :
    ∃ beginning, beginning <+: path.trimIdle.dropLast ∧
      location = follow (disk.start path) beginning := by
  obtain ⟨sameRoot, kept, isPrefix, pieces⟩ := parent?_pieces found
  obtain ⟨beginning, shorter, rfl⟩ := onWay
  have sameStart : disk.start parent = disk.start path := by simp [start, sameRoot]
  rw [sameStart]
  rcases pieces with same | ⟨empty, -⟩
  · exact ⟨beginning, (same ▸ shorter).trans isPrefix, rfl⟩
  · rw [empty] at shorter
    refine ⟨[], nil_prefix, ?_⟩
    apply follow_idle
    intro piece member
    have blank : piece = "" := by simpa using shorter.subset member
    simp [isIdle, blank]

theorem OnWay.of_parent (found : path.parent? = some parent) (onWay : disk.OnWay parent location) :
    disk.OnWay path location := by
  obtain ⟨beginning, shorter, rfl⟩ := onWay.beginning_of_parent found
  have inPath := (List.dropLast_prefix _).trans (trimIdle_beginning path)
  exact ⟨beginning, shorter.trans inPath, rfl⟩

/-! ## Look-up -/

theorem step_eq_advance (found : disk.step location piece = .ok next) :
    next = advance location piece := by
  unfold step at found
  unfold advance
  repeat' split at found
  all_goals simp_all

theorem step_directory (found : disk.step location piece = .ok next) :
    disk.get? location = some .directory := by
  unfold step at found
  split at found <;> simp_all

theorem walk_eq_follow (found : disk.walk location pieces = .ok last) :
    last = follow location pieces := by
  induction pieces generalizing location with
  | nil => simpa [walk, eq_comm] using found
  | cons piece rest ih =>
    simp only [walk] at found
    split at found
    next next stepped =>
      rw [follow_cons, ← step_eq_advance stepped]
      exact ih found
    · simp at found

theorem locate_eq_ok_iff :
    disk.locate path = .ok location ↔
      refuse path = .ok () ∧ disk.walk (disk.start path) path.pieces = .ok location := by
  unfold locate
  cases refuse path with
  | error cause => simp
  | ok _ => cases disk.walk (disk.start path) path.pieces <;> simp

theorem locate_eq_place (found : disk.locate path = .ok location) : location = disk.place path :=
  walk_eq_follow (locate_eq_ok_iff.1 found).2

theorem walk_append (disk : Disk) (location : Location) (first rest : List String) :
    disk.walk location (first ++ rest) =
      match disk.walk location first with
      | .ok next => disk.walk next rest
      | .error errno => .error errno := by
  induction first generalizing location with
  | nil => rfl
  | cons piece more ih =>
    simp only [cons_append, walk]
    cases disk.step location piece with
    | ok next => exact ih next
    | error errno => rfl

theorem directory_of_walk {beginning : List String} (found : disk.walk location pieces = .ok last)
    (isPrefix : beginning <+: pieces) (shorter : beginning ≠ pieces) :
    disk.get? (follow location beginning) = some .directory := by
  obtain ⟨rest, rfl⟩ := isPrefix
  rw [walk_append] at found
  split at found
  next next walked =>
    rw [← walk_eq_follow walked]
    cases rest with
    | nil => simp at shorter
    | cons piece more =>
      simp only [walk] at found
      split at found
      next stepped => exact step_directory stepped
      · simp at found
  · simp at found

theorem walk_congr {left right : Disk}
    (agree : ∀ beginning, beginning <+: pieces →
      left.get? (follow location beginning) = right.get? (follow location beginning)) :
    left.walk location pieces = right.walk location pieces := by
  induction pieces generalizing location with
  | nil => rfl
  | cons piece rest ih =>
    have here : left.get? location = right.get? location := agree [] nil_prefix
    have next : left.get? (advance location piece) = right.get? (advance location piece) :=
      agree [piece] (by simp)
    have stepped : left.step location piece = right.step location piece := by
      unfold step
      rw [here]
      cases right.get? location with
      | none => rfl
      | some node =>
        cases node with
        | file content => rfl
        | directory =>
          dsimp only
          split
          · rfl
          · split
            · rfl
            · split
              · rfl
              · have entry : advance location piece = location ++ [piece] := by
                  simp_all [advance]
                rw [entry] at next
                rw [next]
    simp only [walk, stepped]
    cases found : right.step location piece with
    | error errno => rfl
    | ok after =>
      have moved := step_eq_advance found
      subst moved
      apply ih
      intro beginning isPrefix
      exact agree (piece :: beginning) (by simpa using isPrefix)

end Disk

end OpsContent

namespace OpsContent.Disk

open OpsContent.Path

variable {pieces : List String} {slash : Bool} {after : Disk} {location : Location}
variable {source destination : Path} {left right : Disk} {disk : Disk} {path : Path}
  {content : Bytes}

/-! ## The end of a path -/

theorem pieces_of_trimmed_getLast? {last : String}
    (isLast : (pieces.rdropWhile (· == "")).getLast? = some last) :
    last ≠ "" ∧ ∃ trailing,
      pieces = (pieces.rdropWhile (· == "")).dropLast ++ last :: trailing ∧
        ∀ piece ∈ trailing, isIdle piece := by
  induction pieces using List.reverseRecOn with
  | nil => simp at isLast
  | append_singleton pieces piece ih =>
    rw [List.rdropWhile_concat] at isLast ⊢
    split at isLast
    next blank =>
      obtain ⟨notBlank, trailing, whole, idle⟩ := ih isLast
      refine ⟨notBlank, trailing ++ [piece], ?_, ?_⟩
      · rw [if_pos blank]
        conv_lhs => rw [whole]
        simp
      · intro other member
        rcases List.mem_append.1 member with earlier | final
        · exact idle other earlier
        · rw [List.mem_singleton.1 final, isIdle, blank, Bool.true_or]
    next notBlank =>
      have same : piece = last := by simpa using isLast
      subst same
      exact ⟨by simpa using notBlank, [], by simp [notBlank]⟩

/-- The end of a path that is an entry of a directory. -/
structure EndsAt (disk : Disk) (path : Path) (parent : Location) (name : String) : Prop where
  accepted : refuse path = .ok ()
  inDirectory : disk.get? parent = some .directory
  notIdle : isIdle name = false
  notParent : name ≠ ".."
  reached : ∃ leading trailing, path.pieces = leading ++ name :: trailing ∧
    (∀ piece ∈ trailing, isIdle piece = true) ∧
    disk.walk (disk.start path) leading = .ok parent

theorem target_entry {parent : Location} {name : String}
    (found : disk.target path = .ok (.entry parent name slash)) : disk.EndsAt path parent name := by
  unfold target at found
  split at found
  · simp at found
  next accepted =>
    dsimp only at found
    rw [show (path.pieces.reverse.dropWhile (· == "")).reverse =
      path.pieces.rdropWhile (· == "") from rfl] at found
    split at found
    · simp at found
    next last isLast =>
      obtain ⟨notBlank, trailing, whole, idle⟩ := pieces_of_trimmed_getLast? isLast
      split at found
      · simp at found
      next place walked =>
        split at found
        next isDirectory =>
          split at found
          · simp at found
          next notPlace =>
            rw [not_or] at notPlace
            obtain ⟨rfl, rfl, -⟩ := found
            exact ⟨accepted, isDirectory, by simp [isIdle, notBlank, notPlace.1],
              notPlace.2, _, trailing, whole, idle, walked⟩
        · simp at found

namespace EndsAt

variable {disk : Disk} {path : Path} {parent : Location} {name : String}

theorem place_eq (ends : disk.EndsAt path parent name) :
    disk.place path = parent ++ [name] := by
  obtain ⟨leading, trailing, whole, idle, walked⟩ := ends.reached
  have stepped : advance parent name = parent ++ [name] := by
    simp [advance, ends.notIdle, ends.notParent]
  rw [place, whole, follow_append, ← walk_eq_follow walked, follow_cons, stepped,
    follow_idle _ idle]

theorem place_ne_nil (ends : disk.EndsAt path parent name) : disk.place path ≠ [] := by
  simp [ends.place_eq]

end EndsAt

/-! ## Single operations -/

/-- A path that is written to ends in a short name. -/
theorem ends_of_updateFile {change : Bytes → Bytes}
    (done : updateFile change path disk = .ok after) :
    ∃ parent name, disk.EndsAt path parent name ∧ isTooLong name = false ∧
      disk.get? (disk.place path) ≠ some .directory ∧
      ∃ content, after = disk.put (disk.place path) (.file (change content)) := by
  unfold updateFile at done
  split at done
  · simp at done
  · simp at done
  next parent name slash found =>
    have ends := target_entry found
    refine ⟨parent, name, ends, ?_⟩
    rw [ends.place_eq]
    split at done
    · simp at done
    · split at done
      · simp at done
      next short =>
        refine ⟨by simpa using short, ?_⟩
        split at done
        · simp at done
        next content stands =>
          simp only [Except.ok.injEq] at done
          exact ⟨by simp [stands], _, done.symm⟩
        next stands =>
          simp only [Except.ok.injEq] at done
          exact ⟨by simp [stands], _, done.symm⟩

/-- What is written is put in the place of the path. -/
theorem updateFile_ok {change : Bytes → Bytes} (done : updateFile change path disk = .ok after) :
    disk.place path ≠ [] ∧ disk.get? (disk.place path) ≠ some .directory ∧
      ∃ content, after = disk.put (disk.place path) (.file (change content)) := by
  obtain ⟨parent, name, ends, -, written⟩ := ends_of_updateFile done
  exact ⟨ends.place_ne_nil, written⟩

theorem makeDirectory_ok (done : makeDirectory path disk = .ok after) :
    ∃ parent name, disk.EndsAt path parent name ∧ isTooLong name = false ∧
      disk.get? (disk.place path) = none ∧ after = disk.put (disk.place path) .directory := by
  unfold makeDirectory at done
  split at done
  · simp at done
  · simp at done
  next parent name slash found =>
    have ends := target_entry found
    refine ⟨parent, name, ends, ?_⟩
    rw [ends.place_eq]
    split at done
    · simp at done
    next short =>
      split at done
      · simp at done
      next free =>
        simp only [Except.ok.injEq] at done
        exact ⟨by simpa using short, by simpa using free, done.symm⟩

theorem removeFile_ok (done : removeFile path disk = .ok after) :
    disk.place path ≠ [] ∧ disk.get? (disk.place path) ≠ some .directory ∧
      after = disk.remove (disk.place path) := by
  unfold removeFile at done
  split at done
  · simp at done
  · simp at done
  next parent name slash found =>
    have ends := target_entry found
    refine ⟨ends.place_ne_nil, ?_⟩
    rw [ends.place_eq]
    repeat' split at done
    all_goals simp_all

theorem removeTree_ok (done : removeTree path disk = .ok after) :
    disk.place path ≠ [] ∧ after = disk.removeBelow (disk.place path) := by
  unfold removeTree at done
  split at done
  · simp at done
  next location found =>
    rw [← locate_eq_place found]
    repeat' split at done
    all_goals simp_all

theorem copyFile_ok (done : copyFile source destination disk = .ok after) :
    ∃ content, disk.node? source = some (.file content) ∧
      writeFile destination content disk = .ok after := by
  unfold copyFile at done
  split at done
  · cases done
  next located =>
    split at done
    next content isFile =>
      refine ⟨content, ?_, done⟩
      rw [node?, located]
      exact isFile
    · cases done
    · cases done

theorem moveEntry_ok {source destination : Location}
    (done : moveEntry source destination slash disk = .ok after) :
    after = disk ∨
      (∃ content, disk.get? destination ≠ some .directory ∧
        after = (disk.remove source).put destination (.file content)) ∨
      after = disk.relocate source destination := by
  unfold moveEntry at done
  split at done
  · simp at done
  · split at done
    · simp at done
    · split at done
      · simp_all
      · split at done
        · simp at done
        next notDirectory =>
          simp only [Except.ok.injEq] at done
          exact .inr (.inl ⟨_, notDirectory, done.symm⟩)
  · repeat' split at done
    all_goals simp_all

theorem get?_of_moveEntry {source destination : Location}
    (done : moveEntry source destination slash disk = .ok after)
    (stands : disk.get? source = some (.file content)) (inside : destination ≠ []) :
    after.current = disk.current ∧ after.get? destination = some (.file content) := by
  unfold moveEntry at done
  rw [stands] at done
  dsimp only at done
  split at done
  · cases done
  · split at done
    next same =>
      cases done
      exact ⟨rfl, same ▸ stands⟩
    · split at done
      · cases done
      · cases done
        refine ⟨rfl, ?_⟩
        rw [get?_put _ _ _ _ inside, if_pos rfl]

theorem rename_ok (done : rename source destination disk = .ok after) :
    disk.place source ≠ [] ∧ disk.place destination ≠ [] ∧
      ∃ slash, moveEntry (disk.place source) (disk.place destination) slash disk = .ok after := by
  unfold rename at done
  split at done
  · simp at done
  · simp at done
  · split at done
    · simp at done
    next foundSource =>
      split at done
      · simp at done
      next foundDestination =>
        split at done
        · have sourceEnds := target_entry foundSource
          have destinationEnds := target_entry foundDestination
          refine ⟨sourceEnds.place_ne_nil, destinationEnds.place_ne_nil, ?_⟩
          rw [sourceEnds.place_eq, destinationEnds.place_eq]
          repeat' split at done
          all_goals first
            | exact ⟨_, done⟩
            | simp at done
        · simp at done

/-! ## Directories that stand -/

/-- What a path leads to is in its place. -/
theorem get?_of_node? {node : Node} (found : disk.node? path = some node) :
    disk.get? (disk.place path) = some node := by
  unfold node? at found
  split at found
  next location located => rw [← locate_eq_place located, found]
  · cases found

theorem listed?_eq_some_iff {node : Node} :
    disk.listed? path = some node ↔
      disk.walk (disk.start path) path.pieces = .ok (disk.place path) ∧
        disk.get? (disk.place path) = some node := by
  unfold listed?
  cases walked : disk.walk (disk.start path) path.pieces with
  | error errno => simp
  | ok location =>
    have atPlace : location = disk.place path := walk_eq_follow walked
    simp [atPlace]

/-- A path leads to a node exactly if the node is listed and the path can be used. -/
theorem node?_eq_some_iff {node : Node} :
    disk.node? path = some node ↔ refuse path = .ok () ∧ disk.listed? path = some node := by
  unfold node? locate listed?
  cases refuse path with
  | error cause => simp
  | ok _ => cases disk.walk (disk.start path) path.pieces <;> simp

theorem isFile_iff :
    disk.isFile path ↔ ∃ content, disk.node? path = some (.file content) := by
  unfold isFile
  cases disk.node? path with
  | none => simp
  | some node => cases node <;> simp

theorem isDirectory_iff_node? :
    disk.isDirectory path ↔ disk.node? path = some .directory := by
  unfold isDirectory
  cases disk.node? path with
  | none => simp
  | some node => cases node <;> simp

theorem isDirectory_iff :
    disk.isDirectory path ↔
      refuse path = .ok () ∧ disk.walk (disk.start path) path.pieces = .ok (disk.place path) ∧
        disk.get? (disk.place path) = some .directory := by
  rw [isDirectory_iff_node?]
  unfold node?
  constructor
  · intro found
    split at found
    next location located =>
      have atPlace := locate_eq_place located
      subst atPlace
      obtain ⟨accepted, walked⟩ := locate_eq_ok_iff.1 located
      exact ⟨accepted, walked, found⟩
    · cases found
  · rintro ⟨accepted, walked, stands⟩
    rw [locate_eq_ok_iff.2 ⟨accepted, walked⟩]
    exact stands

theorem notDirectory_of_isFile (stands : disk.isFile path) :
    disk.get? (disk.place path) ≠ some .directory := by
  obtain ⟨content, found⟩ := isFile_iff.1 stands
  simp [get?_of_node? found]

/-- All places on the way to a directory are directories. -/
theorem directory_of_onWay (stands : disk.isDirectory path)
    (onWay : disk.OnWay path location) : disk.get? location = some .directory := by
  obtain ⟨-, walked, directory⟩ := isDirectory_iff.1 stands
  obtain ⟨beginning, isPrefix, rfl⟩ := onWay
  by_cases whole : beginning = path.pieces
  · rw [whole]
    exact directory
  · exact directory_of_walk walked isPrefix whole

theorem walk_idle (stands : disk.get? location = some .directory)
    (idle : ∀ piece ∈ pieces, isIdle piece) : disk.walk location pieces = .ok location := by
  induction pieces with
  | nil => rfl
  | cons piece rest ih =>
    have here : disk.step location piece = .ok location := by
      simp [step, stands, idle piece (by simp)]
    simp only [walk, here]
    exact ih fun other member => idle other (by simp [member])

/-! ## Directories with their parents -/

/-- The disks differ only in directories that are new, and those stand at the given places. -/
structure OpensOnly (way : Location → Prop) (before after : Disk) : Prop where
  current : after.current = before.current
  nodes : ∀ location, after.get? location = before.get? location ∨
    way location ∧ before.get? location = none ∧ after.get? location = some .directory

/-- Away from a place, the disks differ only in directories that are new, and those stand at the
given places. -/
def OpensOutside (top : Location) (way : Location → Prop) (before after : Disk) : Prop :=
  ∀ location, isBelow top location = false → after.get? location = before.get? location ∨
    way location ∧ before.get? location = none ∧ after.get? location = some .directory

namespace OpensOnly

variable {way wider : Location → Prop} {first second third : Disk}

protected theorem refl (way : Location → Prop) (disk : Disk) : OpensOnly way disk disk :=
  ⟨rfl, fun _ => .inl rfl⟩

theorem mono (opens : OpensOnly way first second)
    (inside : ∀ location, way location → wider location) : OpensOnly wider first second := by
  refine ⟨opens.current, ?_⟩
  intro location
  rcases opens.nodes location with same | ⟨onWay, made⟩
  · exact .inl same
  · exact .inr ⟨inside location onWay, made⟩

theorem outside (opens : OpensOnly way first second) (top : Location)
    (inside : ∀ location, way location → wider location) : OpensOutside top wider first second :=
  fun location _ => (opens.mono inside).nodes location

protected theorem trans (left : OpensOnly way first second) (right : OpensOnly way second third) :
    OpensOnly way first third := by
  refine ⟨right.current.trans left.current, ?_⟩
  intro location
  rcases left.nodes location with same | ⟨onWay, free, made⟩
  · rw [← same]
    exact right.nodes location
  · rcases right.nodes location with same | ⟨-, freeLater, -⟩
    · exact .inr ⟨onWay, free, same.trans made⟩
    · rw [made] at freeLater
      simp at freeLater

theorem stands (opens : OpensOnly way first second) {node : Node}
    (stood : first.get? location = some node) : second.get? location = some node := by
  rcases opens.nodes location with same | ⟨-, free, -⟩
  · rw [same, stood]
  · rw [stood] at free
    simp at free

end OpensOnly

theorem start_congr (same : left.current = right.current) (path : Path) :
    left.start path = right.start path := by
  simp [start, same]

/-- A place depends on the current directory alone. -/
theorem place_congr (same : left.current = right.current) (path : Path) :
    left.place path = right.place path := by
  rw [place, place, start_congr same]

theorem onWay_congr (same : left.current = right.current) (onWay : left.OnWay path location) :
    right.OnWay path location := by
  obtain ⟨beginning, isPrefix, rfl⟩ := onWay
  exact ⟨beginning, isPrefix, by rw [start_congr same]⟩

theorem makeDirectory_opensOnly (done : makeDirectory path disk = .ok after) :
    OpensOnly (· = disk.place path) disk after := by
  obtain ⟨parent, name, ends, -, free, rfl⟩ := makeDirectory_ok done
  refine ⟨rfl, ?_⟩
  intro location
  rw [get?_put _ _ _ _ ends.place_ne_nil]
  split
  next same => exact .inr ⟨same, same ▸ free, rfl⟩
  · exact .inl rfl

theorem isDirectory_of_makeDirectory (done : makeDirectory path disk = .ok after) :
    after.isDirectory path := by
  have opens := makeDirectory_opensOnly done
  obtain ⟨parent, name, ends, short, -, rfl⟩ := makeDirectory_ok done
  obtain ⟨leading, trailing, whole, idle, walked⟩ := ends.reached
  have made : (disk.put (disk.place path) .directory).get? (disk.place path) =
      some .directory := by
    rw [get?_put _ _ _ _ ends.place_ne_nil, if_pos rfl]
  have leads : (disk.put (disk.place path) .directory).walk (disk.start path) leading =
      .ok parent := by
    rw [← walked]
    apply walk_congr
    intro beginning isPrefix
    have stands : disk.get? (follow (disk.start path) beginning) = some .directory := by
      by_cases whole : beginning = leading
      · rw [whole, ← walk_eq_follow walked]
        exact ends.inDirectory
      · exact directory_of_walk walked isPrefix whole
    rw [stands, opens.stands stands]
  have stepped : (disk.put (disk.place path) .directory).step parent name =
      .ok (disk.place path) := by
    simp [step, opens.stands ends.inDirectory, ends.notIdle, ends.notParent, short,
      ← ends.place_eq, made]
  refine isDirectory_iff.2 ⟨ends.accepted, ?_, made⟩
  change (disk.put (disk.place path) .directory).walk (disk.start path) path.pieces =
    .ok (disk.place path)
  rw [whole, walk_append, leads]
  simp only [walk, stepped]
  exact walk_idle made idle

/-- A path to the directory above passes the location. -/
def OnWayAbove (disk : Disk) (path : Path) (location : Location) : Prop :=
  ∃ parent, path.parent? = some parent ∧ disk.OnWay parent location

theorem OnWayAbove.onWay (above : disk.OnWayAbove path location) : disk.OnWay path location := by
  obtain ⟨parent, found, onWay⟩ := above
  exact onWay.of_parent found

/-- What an attempt to make a directory with its parents may come to.  Directories are made on
the way, and either the directory stands or the end of the way was not made. -/
def OpensWay (disk : Disk) (path : Path) : Except IoError Unit × Disk → Prop
  | (.ok (), after) => OpensOnly (disk.OnWay path) disk after ∧
      (after.isDirectory path = true ∨ path.absolute = false ∧ path.pieces = [""])
  | (.error _, after) => OpensOnly (disk.OnWayAbove path) disk after

/-- Directories are made from the top on. -/
theorem makeDirectoriesUpTo_opensWay (fuel : Nat) (path : Path) (disk : Disk) :
    OpensWay disk path (makeDirectoriesUpTo fuel path disk) := by
  induction fuel generalizing path disk with
  | zero => exact OpensOnly.refl _ disk
  | succ fuel ih =>
    simp only [makeDirectoriesUpTo]
    split
    next empty => exact ⟨OpensOnly.refl _ disk, Or.inr empty⟩
    · split
      next after done =>
        refine ⟨(makeDirectory_opensOnly done).mono ?_,
          Or.inl (isDirectory_of_makeDirectory done)⟩
        rintro location rfl
        exact onWay_place disk path
      · split
        · exact OpensOnly.refl _ disk
        next parent found =>
          have above := ih parent disk
          split
          next failed =>
            rw [failed] at above
            exact above.mono fun location onWay => ⟨parent, found, onWay.onWay⟩
          next after made =>
            rw [made] at above
            have opened : OpensOnly (disk.OnWayAbove path) disk after :=
              above.1.mono fun location onWay => ⟨parent, found, onWay⟩
            have onWay : OpensOnly (disk.OnWay path) disk after :=
              opened.mono fun location => OnWayAbove.onWay
            split
            next last done =>
              refine ⟨onWay.trans ((makeDirectory_opensOnly done).mono ?_),
                Or.inl (isDirectory_of_makeDirectory done)⟩
              rintro location rfl
              exact onWay_congr opened.current (onWay_place after path)
            · split
              next stands => exact ⟨onWay, Or.inl stands⟩
              · exact opened
      · split
        next stands => exact ⟨OpensOnly.refl _ disk, Or.inl stands⟩
        · exact OpensOnly.refl _ disk

theorem makeDirectories_opensOnly (path : Path) (disk : Disk) :
    OpensOnly (disk.OnWay path) disk (makeDirectories path disk).2 := by
  have opened := makeDirectoriesUpTo_opensWay (path.pieces.length + 2) path disk
  rw [← makeDirectories] at opened
  cases ran : makeDirectories path disk with
  | mk outcome after =>
    rw [ran] at opened
    cases outcome with
    | ok value => exact opened.1
    | error cause => exact OpensOnly.mono opened fun location => OnWayAbove.onWay

/-- Only missing directories are made. -/
theorem opensOnly_made {outcome : Except IoError Unit}
    (made : makeDirectories path disk = (outcome, after)) :
    OpensOnly (disk.OnWay path) disk after := by
  have opens := makeDirectories_opensOnly path disk
  rwa [made] at opens

/-- A directory that was made stands. -/
theorem isDirectory_of_makeDirectories (done : makeDirectories path disk = (.ok (), after))
    (notEmpty : path.pieces ≠ [""]) : after.isDirectory path := by
  have opened := makeDirectoriesUpTo_opensWay (path.pieces.length + 2) path disk
  rw [← makeDirectories, done] at opened
  rcases opened.2 with stands | ⟨-, empty⟩
  · exact stands
  · exact absurd empty notEmpty

theorem makeDirectories_error {cause : IoError}
    (failed : makeDirectories path disk = (.error cause, after)) :
    OpensOnly (disk.OnWayAbove path) disk after := by
  have opened := makeDirectoriesUpTo_opensWay (path.pieces.length + 2) path disk
  rw [← makeDirectories, failed] at opened
  exact opened

theorem makeParents_opensOnly (path : Path) (disk : Disk) :
    OpensOnly (disk.OnWayAbove path) disk (makeParents path disk).2 := by
  unfold makeParents
  cases found : path.parent? with
  | none => exact OpensOnly.refl _ disk
  | some parent =>
    exact (makeDirectories_opensOnly parent disk).mono fun location onWay =>
      ⟨parent, found, onWay⟩

/-- A directory stays if those on the way stay. -/
theorem isDirectory_of_directories {before : Disk} (current : after.current = before.current)
    (directories : ∀ location, before.OnWay path location →
      before.get? location = some .directory → after.get? location = some .directory)
    (stood : before.isDirectory path) : after.isDirectory path := by
  obtain ⟨accepted, walked, directory⟩ := isDirectory_iff.1 stood
  have starts := start_congr current path
  have placed := place_congr current path
  refine isDirectory_iff.2 ⟨accepted, ?_, ?_⟩
  · rw [starts, placed, ← walked]
    apply walk_congr
    intro beginning isPrefix
    have passed := directory_of_onWay stood ⟨beginning, isPrefix, rfl⟩
    rw [passed, directories _ ⟨beginning, isPrefix, rfl⟩ passed]
  · rw [placed]
    exact directories _ (onWay_place before path) directory

theorem attempt_ok {operation : Disk → Except IoError Disk}
    (done : attempt operation disk = (.ok (), after)) : operation disk = .ok after := by
  unfold attempt at done
  split at done
  next result =>
    cases done
    exact result
  · cases done

theorem replaceFile_ok (done : replaceFile path content disk = (.ok (), after)) :
    after.current = disk.current ∧ after.get? (disk.place path) = some (.file content) := by
  unfold replaceFile at done
  obtain ⟨_, opened, made, done⟩ := exceptBind_ok done
  obtain ⟨_, drafted, written, done⟩ := exceptBind_ok done
  have sameWay : opened.current = disk.current := by
    have opens := makeParents_opensOnly path disk
    rw [made] at opens
    exact opens.current
  obtain ⟨inside, -, _, rfl⟩ := updateFile_ok (attempt_ok written)
  obtain ⟨-, target, slash, moved⟩ := rename_ok (attempt_ok done)
  have draft := (get?_put opened _ _ (.file content) inside).trans (if_pos rfl)
  obtain ⟨current, stands⟩ := get?_of_moveEntry moved draft target
  refine ⟨current.trans sameWay, ?_⟩
  rw [← place_congr sameWay]
  exact stands

/-! ## Copies of trees -/

/-- What keeps a property while a tree is copied.  A copy goes through pairs of paths, one in the
source and one in the copy, and every name that is found in the source leads to another pair. -/
structure CopyRules (invariant : Disk → Prop) (paired : Path → Path → Prop) : Prop where
  directories : ∀ source destination, paired source destination →
    Keeps invariant (makeDirectories destination)
  parents : ∀ source destination, paired source destination →
    Keeps invariant (makeParents destination)
  files : ∀ source destination, paired source destination →
    Keeps invariant (attempt (copyFile source destination))
  names : ∀ source destination disk names, paired source destination → invariant disk →
    disk.listNames source = .ok names →
      ∀ name ∈ names, paired (source.join name) (destination.join name)

namespace CopyRules

variable {invariant : Disk → Prop} {paired : Path → Path → Prop}

theorem keeps_copyNames {copy : Path → Path → DiskAction Unit} {names : List String}
    (node : ∀ source destination, paired source destination →
      Keeps invariant (copy source destination))
    (pairs : ∀ name ∈ names, paired (source.join name) (destination.join name)) :
    Keeps invariant (copyNames copy source destination names) := by
  induction names with
  | nil =>
    rw [copyNames]
    exact .succeed ()
  | cons name rest ih =>
    rw [copyNames]
    apply Keeps.andThen (node _ _ (pairs name (by simp)))
    intro _
    exact ih fun other member => pairs other (by simp [member])

theorem keeps_copyNode (rules : CopyRules invariant paired) (fuel : Nat)
    (pair : paired source destination) :
    Keeps invariant (copyNode fuel source destination) := by
  induction fuel generalizing source destination with
  | zero =>
    rw [copyNode]
    exact .fail _
  | succ fuel ih =>
    rw [copyNode]
    apply Keeps.andThen (Keeps.get : Keeps invariant (get : DiskAction Disk))
    intro disk
    split
    · -- a directory
      apply Keeps.andThen (rules.directories source destination pair)
      intro _ later holds
      apply Keeps.andThen_at
      · split <;> exact holds
      · intro names after ran holdsAfter
        split at ran
        next found listed =>
          cases ran
          have pairs := rules.names source destination later names pair holds listed
          exact keeps_copyNames (fun _ _ => ih) pairs later holds
        · cases ran
    · apply Keeps.andThen (rules.parents source destination pair)
      intro _
      exact rules.files source destination pair
    · exact Keeps.succeed ()

theorem keeps_copyTree (rules : CopyRules invariant paired)
    (pair : paired source destination) : Keeps invariant (copyTree source destination) := by
  unfold copyTree
  apply Keeps.andThen (rules.directories source destination pair)
  intro _ disk holds
  apply Keeps.andThen_at holds
  rintro _ _ ⟨⟩ -
  cases disk.locate source with
  | error cause => exact holds
  | ok location =>
    dsimp only
    cases listed : disk.listNames source with
    | error cause => split <;> exact holds
    | ok names =>
      have pairs := rules.names source destination disk names pair holds listed
      split
      · exact keeps_copyNames (fun _ _ => rules.keeps_copyNode deepest) pairs disk holds
      · exact holds

end CopyRules

end OpsContent.Disk
