import OpsContent.Proofs.Entries

/-!
# Work inside one directory

A zone is a directory that stands on the disk, taken together with the disk of the moment.  Work
keeps to the zone if it changes nothing but what is strictly inside.  Whether it does is decided
by the paths it uses: a path is enclosed if it goes to the directory and from there never climbs
out of it.  How deep inside a path ends is how far the names joined to it may climb.
-/

namespace OpsContent

open List Disk

variable {ending : String} {beginning : List String} {parent path : Path} {location : Location}

namespace Path

open Staging

variable {depth : Nat} {pieces : List String} {location : Location} {name piece : String}
  {rest first leading : List String} {deeper : Nat}

/-! ## Names that do not climb -/

/-- A relative name that climbs at most so many levels. -/
structure StaysWithin (depth : Nat) (name : String) : Prop where
  relative : (ofText name).absolute = false
  below : staysBelow depth (ofText name).pieces = true

instance (depth : Nat) (name : String) : Decidable (StaysWithin depth name) :=
  decidable_of_iff (_ ∧ _)
    ⟨fun both => ⟨both.1, both.2⟩, fun stays => ⟨stays.relative, stays.below⟩⟩

theorem staysBelow_mono (stays : staysBelow depth pieces) (le : depth ≤ deeper) :
    staysBelow deeper pieces := by
  fun_induction staysBelow depth pieces generalizing deeper with
  | case1 depth => rfl
  | case2 depth piece rest idle ih => simpa [staysBelow, idle] using ih stays le
  | case3 piece rest notIdle climbs => simp at stays
  | case4 piece rest notIdle climbs depth ih =>
    cases deeper with
    | zero => simp at le
    | succ deeper =>
      simpa [staysBelow, notIdle, climbs] using ih stays (Nat.le_of_succ_le_succ le)
  | case5 depth piece rest notIdle enters ih =>
    simpa [staysBelow, notIdle, enters] using ih stays (Nat.succ_le_succ le)

theorem staysBelow_append (deep : location.length = depth) (stays : staysBelow depth first)
    (more : staysBelow (follow location first).length rest) :
    staysBelow depth (first ++ rest) := by
  fun_induction staysBelow depth first generalizing location with
  | case1 depth =>
    rw [follow_nil, deep] at more
    exact more
  | case2 depth piece pieces idle ih =>
    rw [follow_cons, advance, if_pos idle] at more
    simpa [staysBelow, idle] using ih deep stays more
  | case3 piece pieces notIdle climbs => simp at stays
  | case4 piece pieces notIdle climbs depth ih =>
    have up : piece = ".." := by simpa using climbs
    have shorter : location.dropLast.length = depth := by simp [deep]
    rw [follow_cons, advance, if_neg notIdle, if_pos up] at more
    simpa [staysBelow, notIdle, climbs] using ih shorter stays more
  | case5 depth piece pieces notIdle enters ih =>
    have notUp : piece ≠ ".." := by simpa using enters
    have longer : (location ++ [piece]).length = depth + 1 := by simp [deep]
    rw [follow_cons, advance, if_neg notIdle, if_neg notUp] at more
    simpa [staysBelow, notIdle, enters] using ih longer stays more

theorem length_follow_of_staysBelow (stays : staysBelow depth pieces)
    (deep : depth ≤ location.length) :
    location.length ≤ (follow location pieces).length + depth := by
  fun_induction staysBelow depth pieces generalizing location with
  | case1 depth => simp
  | case2 depth piece rest idle ih => simpa [advance, idle] using ih stays deep
  | case3 piece rest notIdle climbs => simp at stays
  | case4 piece rest notIdle climbs depth ih =>
    have up : piece = ".." := by simpa using climbs
    have shorter : location.dropLast.length = location.length - 1 := length_dropLast
    have enough : depth ≤ location.dropLast.length := by omega
    have later := ih stays enough
    rw [follow_cons, advance, if_neg notIdle, if_pos up]
    omega
  | case5 depth piece rest notIdle enters ih =>
    have notUp : piece ≠ ".." := by simpa using enters
    have longer : (location ++ [piece]).length = location.length + 1 := by simp
    have enough : depth + 1 ≤ (location ++ [piece]).length := by omega
    have later := ih stays enough
    rw [follow_cons, advance, if_neg notIdle, if_neg notUp]
    omega

theorem staysBelow_of_append (stays : staysBelow depth (first ++ rest)) :
    staysBelow depth first := by
  fun_induction staysBelow depth first with
  | case1 depth => rfl
  | case2 depth piece pieces idle ih => exact ih (by simpa [staysBelow, idle] using stays)
  | case3 piece pieces notIdle climbs => simp [staysBelow, notIdle, climbs] at stays
  | case4 piece pieces notIdle climbs depth ih =>
    exact ih (by simpa [staysBelow, notIdle, climbs] using stays)
  | case5 depth piece pieces notIdle enters ih =>
    exact ih (by simpa [staysBelow, notIdle, enters] using stays)

theorem staysBelow_beginning (isPrefix : beginning <+: pieces)
    (stays : staysBelow depth pieces) : staysBelow depth beginning := by
  obtain ⟨rest, rfl⟩ := isPrefix
  exact staysBelow_of_append stays

/-- Pieces that do not climb out lead the same way everywhere. -/
theorem follow_of_staysBelow (stays : staysBelow depth pieces) (top : Location)
    (deep : depth ≤ location.length) :
    follow (top ++ location) pieces = top ++ follow location pieces := by
  fun_induction staysBelow depth pieces generalizing location with
  | case1 depth => rfl
  | case2 depth piece rest idle ih => simpa [advance, idle] using ih stays deep
  | case3 piece rest notIdle climbs => simp at stays
  | case4 piece rest notIdle climbs depth ih =>
    have notEmpty : location ≠ [] := by
      rintro rfl
      simp at deep
    have shallower : depth ≤ location.dropLast.length := by
      rw [length_dropLast]
      omega
    have up : piece = ".." := by simpa using climbs
    simpa [advance, isIdle, up, dropLast_append_of_ne_nil notEmpty]
      using ih stays shallower
  | case5 depth piece rest notIdle enters ih =>
    have notUp : piece ≠ ".." := by simpa using enters
    have deeper : depth + 1 ≤ (location ++ [piece]).length := by simp [deep]
    simpa [advance, notIdle, notUp] using ih stays deeper

theorem follow_of_climbs (climbs : staysBelow depth pieces = false) (top : Location)
    (deep : location.length = depth) :
    ∃ rest, rest <:+ pieces ∧ follow (top ++ location) pieces = follow top.dropLast rest := by
  fun_induction staysBelow depth pieces generalizing location with
  | case1 depth => simp at climbs
  | case2 depth piece rest idle ih =>
    obtain ⟨later, isSuffix, reached⟩ := ih climbs deep
    refine ⟨later, isSuffix.trans (suffix_cons _ _), ?_⟩
    rw [follow_cons, advance, if_pos idle, reached]
  | case3 piece rest notIdle up =>
    have isUp : piece = ".." := by simpa using up
    refine ⟨rest, suffix_cons _ _, ?_⟩
    rw [length_eq_zero_iff.1 deep, append_nil, follow_cons, advance, if_neg notIdle,
      if_pos isUp]
  | case4 piece rest notIdle up depth ih =>
    have isUp : piece = ".." := by simpa using up
    have notEmpty : location ≠ [] := by
      rintro rfl
      simp at deep
    have shorter : location.dropLast.length = depth := by simp [deep]
    obtain ⟨later, isSuffix, reached⟩ := ih climbs shorter
    refine ⟨later, isSuffix.trans (suffix_cons _ _), ?_⟩
    rw [follow_cons, advance, if_neg notIdle, if_pos isUp,
      dropLast_append_of_ne_nil notEmpty, reached]
  | case5 depth piece rest notIdle enters ih =>
    have notUp : piece ≠ ".." := by simpa using enters
    have longer : (location ++ [piece]).length = depth + 1 := by simp [deep]
    obtain ⟨later, isSuffix, reached⟩ := ih climbs longer
    refine ⟨later, isSuffix.trans (suffix_cons _ _), ?_⟩
    rw [follow_cons, advance, if_neg notIdle, if_neg notUp, append_assoc, reached]

theorem mem_follow (member : name ∈ follow location pieces) :
    name ∈ location ∨ name ∈ pieces ∧ isIdle name = false ∧ name ≠ ".." := by
  induction pieces generalizing location with
  | nil => exact .inl member
  | cons piece rest ih =>
    rw [follow_cons] at member
    rcases ih member with started | ⟨later, proper⟩
    · unfold advance at started
      split at started
      · exact .inl started
      next notIdle =>
        split at started
        · exact .inl (dropLast_subset location started)
        next notParent =>
          rcases mem_append.1 started with old | new
          · exact .inl old
          · have same : name = piece := by simpa using new
            subst same
            exact .inr ⟨by simp, by simpa using notIdle, notParent⟩
    · exact .inr ⟨by simp [later], proper⟩

theorem isEntry_of_mem_follow (member : name ∈ follow [] pieces)
    (noSlash : ∀ piece ∈ pieces, '/' ∉ piece.toList) : IsEntry name := by
  rcases mem_follow member with absurdity | ⟨inPieces, notIdle, notParent⟩
  · simp at absurdity
  · simp only [isIdle, Bool.or_eq_false_iff, beq_eq_false_iff_ne] at notIdle
    exact ⟨notIdle.1, notIdle.2, notParent, noSlash name inPieces⟩

/-! ## Ends of paths -/

theorem rdropWhile_append_cons {test : String → Bool} (leading : List String) (rest : List String)
    (kept : test piece = false) :
    (leading ++ piece :: rest).rdropWhile test = leading ++ piece :: rest.rdropWhile test := by
  induction rest using List.reverseRecOn with
  | nil =>
    rw [rdropWhile_concat_neg _ _ _ (by simp [kept])]
    rfl
  | append_singleton rest last ih =>
    have shifted : leading ++ piece :: (rest ++ [last]) = (leading ++ piece :: rest) ++ [last] :=
      by simp
    rw [shifted, rdropWhile_concat, rdropWhile_concat]
    split
    · exact ih
    · exact shifted.symm

theorem trimIdle_of_notIdle (whole : path.pieces = leading ++ piece :: rest)
    (notIdle : isIdle piece = false) :
    path.trimIdle = leading ++ piece :: rest.rdropWhile isIdle := by
  have kept : (path.pieces.reverse.dropWhile isIdle).reverse =
      leading ++ piece :: rest.rdropWhile isIdle := by
    rw [whole]
    exact rdropWhile_append_cons leading rest notIdle
  unfold trimIdle
  dsimp only
  rw [kept]
  split
  next empty _ _ => simp at empty
  · rfl

theorem eq_of_parent? (found : path.parent? = some parent)
    (shorter : path.trimIdle.dropLast = leading ++ piece :: rest) (notIdle : isIdle piece = false) :
    parent = ⟨path.absolute, leading ++ piece :: rest.rdropWhile isIdle⟩ := by
  unfold parent? at found
  split at found
  · simp at found
  · have kept : trimIdle { path with pieces := path.trimIdle.dropLast } =
        leading ++ piece :: rest.rdropWhile isIdle :=
      trimIdle_of_notIdle shorter notIdle
    dsimp only at found
    rw [kept] at found
    simpa using found.symm

theorem isEntry_of_length (long : 3 ≤ name.length) (noSlash : '/' ∉ name.toList) :
    IsEntry name := by
  refine ⟨?_, ?_, ?_, noSlash⟩
  all_goals
    rintro rfl
    revert long
    decide

/-- An entry does not climb. -/
theorem IsEntry.staysWithin (entry : IsEntry name) : StaysWithin 0 name := by
  have single := ofText_of_noSlash entry.noSlash
  refine ⟨by rw [single], ?_⟩
  rw [single]
  simp [staysBelow, entry.notIdle, entry.notParent]

theorem StaysWithin.mono (stays : StaysWithin depth name) (le : depth ≤ deeper) :
    StaysWithin deeper name :=
  ⟨stays.relative, staysBelow_mono stays.below le⟩

theorem splitOn_append (mark : Char) (chars : List Char) :
    ∃ leading last, chars.splitOn mark = leading ++ [last] ∧
      ∀ ending, mark ∉ ending → (chars ++ ending).splitOn mark = leading ++ [last ++ ending] := by
  induction chars with
  | nil => exact ⟨[], [], rfl, fun ending free => by simp [splitOn_eq_singleton free]⟩
  | cons char rest ih =>
    obtain ⟨leading, last, parts, longer⟩ := ih
    by_cases marked : char == mark
    · refine ⟨[] :: leading, last, ?_, fun ending free => ?_⟩
      · rw [splitOn_cons_eq_if_modifyHead, if_pos marked, parts]
        rfl
      · rw [cons_append, splitOn_cons_eq_if_modifyHead, if_pos marked,
          longer ending free]
        rfl
    · cases leading with
      | nil =>
        refine ⟨[], char :: last, ?_, fun ending free => ?_⟩
        · rw [splitOn_cons_eq_if_modifyHead, if_neg marked, parts]
          rfl
        · rw [cons_append, splitOn_cons_eq_if_modifyHead, if_neg marked,
            longer ending free]
          rfl
      | cons head tail =>
        refine ⟨(char :: head) :: tail, last, ?_, fun ending free => ?_⟩
        · rw [splitOn_cons_eq_if_modifyHead, if_neg marked, parts]
          rfl
        · rw [cons_append, splitOn_cons_eq_if_modifyHead, if_neg marked,
            longer ending free]
          rfl

theorem ofText_append_of_noSlash {text : String} (relative : (ofText text).absolute = false)
    (free : '/' ∉ ending.toList) :
    ofText (text ++ ending) = ⟨false, (ofText text).pieces.dropLast ++
      [(ofText text).pieces.getLastD "" ++ ending]⟩ := by
  obtain ⟨leading, last, parts, longer⟩ := splitOn_append '/' text.toList
  unfold ofText at relative ⊢
  split at relative
  · cases relative
  next notAbsolute =>
    split
    next rest starts =>
      exfalso
      rw [String.toList_append] at starts
      cases chars : text.toList with
      | nil =>
        rw [chars, nil_append] at starts
        exact free (by simp [starts])
      | cons first later =>
        rw [chars, cons_append] at starts
        injection starts with isSlash _
        exact notAbsolute later (by rw [chars, isSlash])
    · simp [split, parts, longer _ free, String.ofList_append]

theorem pieces_ofText_append (name : String) (long : 3 ≤ ending.length) (free : '/' ∉ ending.toList)
    (relative : (ofText (name ++ ending)).absolute = false) :
    ∃ leading last, (ofText (name ++ ending)).pieces = leading ++ [last] ∧ IsEntry last := by
  obtain ⟨leading, last, -, longer⟩ := splitOn_append '/' name.toList
  have whole : (ofText (name ++ ending)).pieces =
      leading.map String.ofList ++ [String.ofList (last ++ ending.toList)] := by
    unfold ofText at relative ⊢
    split at relative
    · simp at relative
    · rw [split, String.toList_append, longer _ free]
      simp
  refine ⟨_, _, whole, isEntry_of_length ?_ ?_⟩
  · rw [String.length_ofList, length_append, String.length_toList]
    omega
  · have member : String.ofList (last ++ ending.toList) ∈ (ofText (name ++ ending)).pieces := by
      rw [whole]
      simp
    exact noSlash_of_mem_ofText member

end Path

open OpsContent.Path Staging

theorem Disk.notMem_of_onWay {disk : Disk} {name : String} (notCurrent : name ∉ disk.current)
    (notPiece : name ∉ path.pieces) (onWay : disk.OnWay path location) : name ∉ location := by
  obtain ⟨beginning, early, rfl⟩ := onWay
  intro member
  rcases mem_follow member with started | ⟨passed, -⟩
  · unfold start at started
    split at started
    · simp at started
    · exact notCurrent started
  · exact notPiece (early.subset passed)

theorem Disk.onWay_of_above {disk : Disk} {name : String} (entry : IsEntry name)
    (above : disk.OnWayAbove (parent.join name) location) : disk.OnWay parent location := by
  obtain ⟨directory, found, onWay⟩ := above
  obtain ⟨beginning, early, rfl⟩ := onWay.beginning_of_parent found
  rw [trimIdle_of_notIdle (pieces_join_entry entry) entry.notIdle, rdropWhile_nil,
    dropLast_concat] at early
  refine ⟨beginning, early.trans (stem_beginning parent), ?_⟩
  simp [start, absolute_join_entry entry]

/-- A directory that stands on a disk and that the way to it does not pass through.  Paths are
compared with the path that was used for it. -/
structure Zone where
  root : Path
  base : Disk
  ending : ∃ leading name, root.pieces = leading ++ [name] ∧ IsEntry name
  stands : base.isDirectory root = true
  above : ∀ beginning, beginning <+: root.pieces → ∀ rest, rest ≠ [] →
    follow (base.start root) beginning ≠ base.place root ++ rest

namespace Zone

variable {name : String}

/-- Where the zone is. -/
def top (zone : Zone) : Location :=
  zone.base.place zone.root

/-- The location is inside. -/
def Contains (zone : Zone) (location : Location) : Prop :=
  ∃ rest, rest ≠ [] ∧ location = zone.top ++ rest

/-- The location is inside and made of names. -/
def Admits (zone : Zone) (location : Location) : Prop :=
  ∃ rest, rest ≠ [] ∧ (∀ name ∈ rest, IsEntry name) ∧ location = zone.top ++ rest

/-- A path that goes to the directory, does not climb out of it, and ends at least so many levels
below it. -/
structure Encloses (zone : Zone) (depth : Nat) (path : Path) : Prop where
  absolute : path.absolute = zone.root.absolute
  enters : ∃ more, path.pieces = zone.root.pieces ++ more ∧ staysBelow 0 more = true ∧
    depth ≤ (follow [] more).length ∧ ∀ piece ∈ more, '/' ∉ piece.toList

/-- Nothing has changed but inside, where every entry has a proper name. -/
structure Holds (zone : Zone) (disk : Disk) : Prop where
  current : disk.current = zone.base.current
  outside : ∀ location, ¬ zone.Contains location → disk.get? location = zone.base.get? location
  entries : ∀ rest, (disk.get? (zone.top ++ rest)).isSome = true → ∀ name ∈ rest, IsEntry name

variable {zone : Zone} {disk after : Disk} {path : Path} {location : Location} {depth : Nat}

theorem Admits.contains (admits : zone.Admits location) : zone.Contains location := by
  obtain ⟨rest, notEmpty, -, rfl⟩ := admits
  exact ⟨rest, notEmpty, rfl⟩

theorem Contains.ne_nil (contains : zone.Contains location) : location ≠ [] := by
  obtain ⟨rest, notEmpty, rfl⟩ := contains
  simp [notEmpty]

theorem Holds.get?_of_notBelow (holds : zone.Holds disk)
    (notBelow : isBelow zone.top location = false) :
    disk.get? location = zone.base.get? location := by
  apply holds.outside
  rintro ⟨rest, -, rfl⟩
  rw [isBelow_append] at notBelow
  cases notBelow

/-! ## Enclosed paths -/

theorem stem_root (zone : Zone) : zone.root.stem = zone.root.pieces := by
  obtain ⟨leading, name, whole, entry⟩ := zone.ending
  apply stem_of_getLast
  simp [whole, entry.notEmpty]

theorem follow_top (zone : Zone) {more : List String} (stays : staysBelow 0 more)
    (noSlash : ∀ piece ∈ more, '/' ∉ piece.toList) :
    follow zone.top more = zone.top ++ follow [] more ∧
      ∀ name ∈ follow [] more, IsEntry name := by
  constructor
  · have shifted : follow (zone.top ++ []) more = zone.top ++ follow [] more :=
      follow_of_staysBelow stays _ (Nat.le_refl 0)
    rwa [append_nil] at shifted
  · intro name member
    exact isEntry_of_mem_follow member noSlash

theorem Encloses.mono {shallower : Nat} (encloses : zone.Encloses depth path)
    (le : shallower ≤ depth) : zone.Encloses shallower path := by
  obtain ⟨absolute, more, whole, stays, deep, noSlash⟩ := encloses
  exact ⟨absolute, more, whole, stays, le.trans deep, noSlash⟩

theorem Encloses.start_eq (encloses : zone.Encloses depth path)
    (same : disk.current = zone.base.current) : disk.start path = zone.base.start zone.root := by
  simp [start, encloses.absolute, same]

/-- An enclosed path leads into the zone. -/
theorem Encloses.reached (encloses : zone.Encloses depth path)
    (same : disk.current = zone.base.current) :
    ∃ rest, depth ≤ rest.length ∧ (∀ name ∈ rest, IsEntry name) ∧
      disk.place path = zone.top ++ rest := by
  have starts := encloses.start_eq same
  obtain ⟨-, more, whole, stays, deep, noSlash⟩ := encloses
  obtain ⟨placed, entries⟩ := zone.follow_top stays noSlash
  refine ⟨follow [] more, deep, entries, ?_⟩
  rw [place, starts, whole, follow_append]
  exact placed

theorem Encloses.admits (encloses : zone.Encloses 1 path)
    (same : disk.current = zone.base.current) : zone.Admits (disk.place path) := by
  obtain ⟨rest, deep, entries, placed⟩ := encloses.reached same
  exact ⟨rest, length_pos_iff.1 deep, entries, placed⟩

theorem Holds.onWay_root (holds : zone.Holds disk) (early : beginning <+: zone.root.pieces) :
    disk.get? (follow (zone.base.start zone.root) beginning) = some .directory := by
  rw [← directory_of_onWay zone.stands ⟨beginning, early, rfl⟩]
  apply holds.outside
  rintro ⟨rest, notEmpty, reached⟩
  exact zone.above beginning early rest notEmpty reached

theorem Holds.directory_top (holds : zone.Holds disk) : disk.get? zone.top = some .directory :=
  holds.onWay_root (prefix_refl _)

/-- The directory of a zone stands throughout. -/
theorem Holds.isDirectory_root (holds : zone.Holds disk) : disk.isDirectory zone.root := by
  apply isDirectory_of_directories holds.current _ zone.stands
  rintro location ⟨beginning, early, rfl⟩ -
  exact holds.onWay_root early

theorem Encloses.deepen (encloses : zone.Encloses 0 path) (holds : zone.Holds disk)
    (other : disk.get? (disk.place path) ≠ some .directory) : zone.Encloses 1 path := by
  have starts := encloses.start_eq holds.current
  obtain ⟨absolute, more, whole, stays, -, noSlash⟩ := encloses
  refine ⟨absolute, more, whole, stays, ?_, noSlash⟩
  rw [Nat.one_le_iff_ne_zero, Ne, length_eq_zero_iff]
  intro back
  apply other
  rw [place, starts, whole, follow_append, ← holds.directory_top]
  have placed := (zone.follow_top stays noSlash).1
  rw [back, append_nil] at placed
  exact congrArg disk.get? placed

theorem Encloses.onWay (encloses : zone.Encloses depth path) (holds : zone.Holds disk)
    (onWay : disk.OnWay path location) :
    (disk.get? location).isSome ∨ zone.Admits location := by
  have starts := encloses.start_eq holds.current
  obtain ⟨-, more, whole, stays, -, noSlash⟩ := encloses
  obtain ⟨beginning, isPrefix, rfl⟩ := onWay
  rw [whole] at isPrefix
  rw [starts]
  rcases prefix_or_prefix_of_prefix isPrefix (prefix_append _ _) with early | ⟨rest, rfl⟩
  · left
    rw [holds.onWay_root early]
    rfl
  · rw [prefix_append_right_inj] at isPrefix
    obtain ⟨placed, entries⟩ := zone.follow_top (staysBelow_beginning isPrefix stays)
      fun piece member => noSlash piece (isPrefix.subset member)
    have reached : follow (zone.base.start zone.root) (zone.root.pieces ++ rest) =
        zone.top ++ follow [] rest := by
      rw [follow_append]
      exact placed
    rw [reached]
    by_cases back : follow [] rest = []
    · left
      rw [back, append_nil, holds.directory_top]
      rfl
    · exact .inr ⟨follow [] rest, back, entries, rfl⟩

/-! ## Paths made of enclosed paths -/

theorem encloses_root (zone : Zone) : zone.Encloses 0 zone.root :=
  ⟨rfl, [], by simp, rfl, Nat.zero_le _, by simp⟩

theorem Encloses.stem_eq (encloses : zone.Encloses depth path) :
    ∃ fewer, path.stem = zone.root.pieces ++ fewer ∧ staysBelow 0 fewer ∧
      depth ≤ (follow [] fewer).length ∧ ∀ piece ∈ fewer, '/' ∉ piece.toList := by
  obtain ⟨-, more, whole, stays, deep, noSlash⟩ := encloses
  by_cases trailing : path.pieces.getLast? = some ""
  · rcases eq_nil_or_concat more with rfl | ⟨fewer, last, rfl⟩
    · refine ⟨[], ?_, rfl, deep, by simp⟩
      rw [append_nil] at whole ⊢
      rw [← zone.stem_root, stem, stem, whole]
    · rw [concat_eq_append] at whole stays deep noSlash
      have blank : last = "" := by
        rw [whole, ← append_assoc] at trailing
        simpa using trailing
      refine ⟨fewer, ?_, staysBelow_of_append stays, ?_, ?_⟩
      · rw [stem, if_pos trailing, whole, ← append_assoc, dropLast_concat]
      · simpa [blank, advance, isIdle] using deep
      · exact fun piece member => noSlash piece (by simp [member])
  · exact ⟨more, by rw [stem_of_getLast trailing, whole], stays, deep, noSlash⟩

theorem Encloses.join {climb : Nat} (encloses : zone.Encloses (depth + climb) path)
    (stays : StaysWithin climb name) : zone.Encloses depth (path.join name) := by
  obtain ⟨fewer, stemmed, inside, deep, noSlash⟩ := encloses.stem_eq
  have enough : climb ≤ (follow [] fewer).length := (Nat.le_add_left _ _).trans deep
  refine ⟨(absolute_join stays.relative).trans encloses.absolute, fewer ++ (ofText name).pieces,
    ?_, ?_, ?_, ?_⟩
  · rw [pieces_join stays.relative, stemmed, append_assoc]
  · exact staysBelow_append rfl inside (staysBelow_mono stays.below enough)
  · have shorter := length_follow_of_staysBelow stays.below enough
    rw [follow_append]
    omega
  · intro piece member
    rcases mem_append.1 member with old | new
    · exact noSlash piece old
    · exact noSlash_of_mem_ofText new

theorem Encloses.joinFile (encloses : zone.Encloses depth path)
    (stays : StaysWithin depth (name ++ ending)) (long : 3 ≤ ending.length)
    (free : '/' ∉ ending.toList) : zone.Encloses 1 (path.join (name ++ ending)) := by
  obtain ⟨leading, last, whole, entry⟩ := pieces_ofText_append name long free stays.relative
  have joined : zone.Encloses 0 (path.join (name ++ ending)) :=
    Encloses.join (by simpa using encloses) stays
  obtain ⟨fewer, stemmed, -⟩ := encloses.stem_eq
  obtain ⟨absolute, more, pieces, inside, -, noSlash⟩ := joined
  refine ⟨absolute, more, pieces, inside, ?_, noSlash⟩
  rw [pieces_join stays.relative, stemmed, append_assoc, whole] at pieces
  rw [← append_cancel_left pieces, ← append_assoc, follow_append, follow_cons,
    advance_entry _ entry]
  simp

/-- An entry leads one deeper. -/
theorem Encloses.joinEntry (encloses : zone.Encloses depth path) (entry : IsEntry name) :
    zone.Encloses (depth + 1) (path.join name) := by
  obtain ⟨fewer, stemmed, inside, deep, noSlash⟩ := encloses.stem_eq
  have single : staysBelow (follow [] fewer).length [name] := by
    simp [staysBelow, entry.notIdle, entry.notParent]
  refine ⟨(absolute_join_entry entry).trans encloses.absolute, fewer ++ [name], ?_,
    staysBelow_append rfl inside single, ?_, ?_⟩
  · rw [pieces_join_entry entry, stemmed, append_assoc]
  · rw [follow_append, follow_cons, advance_entry _ entry]
    simpa using deep
  · intro piece member
    rcases mem_append.1 member with old | new
    · exact noSlash piece old
    · rw [mem_singleton.1 new]
      exact entry.noSlash

theorem Encloses.trimIdle_eq (encloses : zone.Encloses 1 path) :
    ∃ fewer last, path.trimIdle = zone.root.pieces ++ (fewer ++ [last]) ∧
      staysBelow 0 (fewer ++ [last]) ∧
      ∀ piece ∈ fewer ++ [last], '/' ∉ piece.toList := by
  obtain ⟨-, more, whole, stays, deep, noSlash⟩ := encloses
  obtain ⟨leading, name, ending, entry⟩ := zone.ending
  have shorter : more.rdropWhile isIdle <+: more := rdropWhile_prefix isIdle more
  have trimmed : path.trimIdle = zone.root.pieces ++ more.rdropWhile isIdle := by
    rw [ending, append_assoc] at whole ⊢
    exact trimIdle_of_notIdle whole entry.notIdle
  rcases eq_nil_or_concat (more.rdropWhile isIdle) with empty | ⟨fewer, last, kept⟩
  · rw [follow_idle [] (rdropWhile_eq_nil_iff.1 empty)] at deep
    simp at deep
  · rw [concat_eq_append] at kept
    rw [kept] at shorter trimmed
    exact ⟨fewer, last, trimmed, staysBelow_beginning shorter stays,
      fun piece member => noSlash piece (shorter.subset member)⟩

theorem Encloses.parent? (encloses : zone.Encloses 1 path) (found : path.parent? = some parent) :
    zone.Encloses 0 parent := by
  obtain ⟨fewer, last, trimmed, stays, noSlash⟩ := encloses.trimIdle_eq
  obtain ⟨leading, name, ending, entry⟩ := zone.ending
  have shorter : path.trimIdle.dropLast = leading ++ name :: fewer := by
    rw [trimmed, ← append_assoc, dropLast_concat, ending, append_assoc]
    rfl
  have fewest : fewer.rdropWhile isIdle <+: fewer := rdropWhile_prefix isIdle fewer
  rw [eq_of_parent? found shorter entry.notIdle]
  refine ⟨encloses.absolute, fewer.rdropWhile isIdle, ?_, ?_, Nat.zero_le _, ?_⟩
  · simp [ending]
  · exact staysBelow_beginning fewest (staysBelow_of_append stays)
  · exact fun piece member => noSlash piece (by simp [fewest.subset member])

theorem Encloses.noSlash_fileName? (encloses : zone.Encloses 1 path)
    (found : path.fileName? = some name) : '/' ∉ name.toList := by
  obtain ⟨fewer, last, trimmed, -, noSlash⟩ := encloses.trimIdle_eq
  have isLast : name = last := by
    unfold fileName? at found
    rw [trimmed, ← append_assoc, getLast?_concat] at found
    dsimp only at found
    split at found
    · simp at found
    · simpa using found.symm
  rw [isLast]
  exact noSlash last (by simp)

theorem Encloses.withFileName (encloses : zone.Encloses 1 path) (entry : IsEntry name) :
    zone.Encloses 1 (path.withFileName name) := by
  unfold Path.withFileName
  split
  · cases found : path.parent? with
    | none =>
      obtain ⟨fewer, last, trimmed, -⟩ := encloses.trimIdle_eq
      simp [Path.parent?, trimmed] at found
    | some parent => exact (encloses.parent? found).joinEntry entry
  · exact (encloses.mono (Nat.zero_le 1)).joinEntry entry

/-- A draft is beside its file. -/
theorem Encloses.draft (encloses : zone.Encloses 1 path) :
    zone.Encloses 1 (path.withFileName (path.fileName?.getD "" ++ ".tmp")) := by
  apply encloses.withFileName
  apply isEntry_of_length
  · rw [String.length_append]
    exact Nat.le_add_left_of_le (by decide)
  · cases found : path.fileName? with
    | none => decide
    | some name =>
      have noSlash := encloses.noSlash_fileName? found
      simp [noSlash]

end Zone

end OpsContent
