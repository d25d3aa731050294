import OpsContent.Proofs.Zone

/-!
# Names of files

A path into a directory that ends in a name is taken apart into that directory and the name of
the file, and a name with an ending is taken apart into the name and the ending.  So files are
found again under the names that they were given.
-/

namespace OpsContent.Path

open List

variable {name : String} {extension : List Char} {ending : String} {directory path : Path}

/-! ## Directory and file -/

/-- The last piece is a name. -/
def EndsInName (path : Path) : Prop :=
  ∃ leading name, path.pieces = leading ++ [name] ∧ IsEntry name

/-- An entry that is joined ends a path. -/
theorem endsInName_join (path : Path) (entry : IsEntry name) : (path.join name).EndsInName :=
  ⟨path.stem, name, pieces_join_entry entry, entry⟩

theorem EndsInName.stem (ends : path.EndsInName) : path.stem = path.pieces := by
  obtain ⟨leading, name, whole, entry⟩ := ends
  apply stem_of_getLast
  simp [whole, entry.notEmpty]

theorem trimIdle_join (path : Path) (entry : IsEntry name) :
    (path.join name).trimIdle = path.stem ++ [name] := by
  rw [trimIdle_of_notIdle (pieces_join_entry entry) entry.notIdle, rdropWhile_nil]

theorem fileName?_join (path : Path) (entry : IsEntry name) :
    (path.join name).fileName? = some name := by
  simp [fileName?, trimIdle_join path entry, entry.notSelf, entry.notParent]

theorem parent?_join (ends : directory.EndsInName) (entry : IsEntry name) :
    (directory.join name).parent? = some directory := by
  cases found : (directory.join name).parent? with
  | none => simp [parent?, trimIdle_join directory entry] at found
  | some parent =>
    obtain ⟨leading, last, whole, lastEntry⟩ := ends
    have shorter : (directory.join name).trimIdle.dropLast = leading ++ last :: [] := by
      rw [trimIdle_join directory entry, dropLast_concat,
        EndsInName.stem ⟨leading, last, whole, lastEntry⟩, whole]
    rw [eq_of_parent? found shorter lastEntry.notIdle, absolute_join_entry entry,
      rdropWhile_nil, ← whole]

theorem withFileName_join (ends : directory.EndsInName) (entry : IsEntry name) (other : String) :
    (directory.join name).withFileName other = directory.join other := by
  rw [withFileName, fileName?_join directory entry, parent?_join ends entry, Option.getD_some]

theorem join_inj {other : String} (entry : IsEntry name) (otherEntry : IsEntry other) :
    path.join name = path.join other ↔ name = other := by
  constructor
  · intro same
    have pieces := congrArg Path.pieces same
    rw [pieces_join_entry entry, pieces_join_entry otherEntry] at pieces
    simpa using pieces
  · rintro rfl
    rfl

/-! ## Name and ending -/

theorem cut_last {mark : Char} {ending : List Char} (before : List Char) (free : mark ∉ ending) :
    (before ++ mark :: ending).reverse.takeWhile (· != mark) = ending.reverse ∧
      (before ++ mark :: ending).reverse.dropWhile (· != mark) = mark :: before.reverse := by
  have kept : ∀ char ∈ ending.reverse, (char != mark) := by
    intro char member
    rw [bne_iff_ne]
    rintro rfl
    exact free (mem_reverse.1 member)
  rw [reverse_append, reverse_cons, append_assoc, takeWhile_append_of_pos kept,
    dropWhile_append_of_pos kept]
  simp

theorem splitName_append {base : String} (dot : ending.toList = '.' :: extension)
    (noDot : '.' ∉ extension) (named : base ≠ "") :
    splitName (base ++ ending) = (base, some (String.ofList extension)) := by
  have whole : (base ++ ending).toList = base.toList ++ '.' :: extension := by simp [dot]
  obtain ⟨after, before⟩ := cut_last base.toList noDot
  cases start : base.toList.reverse with
  | nil =>
    rw [reverse_eq_nil_iff, String.toList_eq_nil_iff] at start
    exact absurd start named
  | cons last more =>
    have isBase : String.ofList (last :: more).reverse = base := by
      rw [← start, reverse_reverse, String.ofList_toList]
    rw [start] at before
    simp only [splitName, whole, after, before, isBase, reverse_reverse]

theorem splitName_ending (dot : ending.toList = '.' :: extension) (noDot : '.' ∉ extension) :
    splitName ending = (ending, none) := by
  have before := (cut_last [] noDot).2
  rw [nil_append, ← dot] at before
  simp only [splitName, before, reverse_nil]

/-- A name is divided at its last dot, unless it has none but at the start. -/
theorem splitName_cases (name : String) :
    ('.' ∉ name.toList.tail ∧ splitName name = (name, none)) ∨
      ∃ base extension : String, name = base ++ "." ++ extension ∧ base ≠ "" ∧
        '.' ∉ extension.toList ∧ splitName name = (base, some extension) := by
  cases whole : name.toList with
  | nil => exact .inl ⟨by simp, by simp [splitName, whole]⟩
  | cons first rest =>
    by_cases inside : '.' ∈ rest
    · obtain ⟨after, before, parts, free⟩ := eq_append_cons_of_mem (mem_reverse.2 inside)
      have isRest : rest = before.reverse ++ '.' :: after.reverse := by
        rw [← rest.reverse_reverse, parts]
        simp
      have isName : name = String.ofList (first :: before.reverse) ++ "." ++
          String.ofList after.reverse := by
        rw [← String.toList_inj, whole, isRest]
        simp
      refine .inr ⟨_, _, isName, by simp, by simpa using free, ?_⟩
      rw [isName, String.append_assoc]
      exact splitName_append (by simp) (by simpa using free) (by simp)
    · refine .inl ⟨inside, ?_⟩
      by_cases dotted : first = '.'
      · exact splitName_ending (dotted ▸ whole) inside
      · have free : ∀ char ∈ name.toList.reverse, (char != '.') := by
          intro char member
          rw [bne_iff_ne]
          rintro rfl
          rw [whole, mem_reverse, mem_cons] at member
          exact member.elim (fun same => dotted same.symm) inside
        simp [splitName, dropWhile_eq_nil_iff.2 free]

theorem mem_of_mem_splitName {char : Char} (member : char ∈ (splitName name).1.toList) :
    char ∈ name.toList := by
  unfold splitName at member
  dsimp only at member
  split at member
  · exact member
  · exact member
  next first start _ rest =>
    rw [String.toList_ofList, mem_reverse] at member
    have inside : start.Sublist name.toList.reverse := by
      have kept := dropWhile_sublist (· != '.') (l := name.toList.reverse)
      rw [rest] at kept
      exact (sublist_cons_self first start).trans kept
    exact mem_reverse.1 (inside.subset member)

theorem baseName_join (directory : Path) (entry : IsEntry name) :
    (directory.join name).baseName = (splitName name).1 := by
  simp [baseName, fileStem?, fileName?_join directory entry]

theorem hasExtension_join (directory : Path) (entry : IsEntry name) (extension : String) :
    (directory.join name).hasExtension extension =
      match (splitName name).2 with
      | some found => Text.equalIgnoringCase found extension
      | none => false := by
  rw [hasExtension, extension?, fileName?_join directory entry]
  rfl

theorem hasExtension_append (directory : Path) {base ending : String} {extension : List Char}
    (dot : ending.toList = '.' :: extension) (noDot : '.' ∉ extension)
    (entry : IsEntry (base ++ ending)) {other : String}
    (different : Text.equalIgnoringCase (String.ofList extension) other = false) :
    (directory.join (base ++ ending)).hasExtension other = false := by
  rw [hasExtension_join directory entry]
  by_cases named : base = ""
  · rw [named, String.empty_append, splitName_ending dot noDot]
  · rw [splitName_append dot noDot named]
    exact different

theorem isEntry_base_append (entry : IsEntry name) (long : 3 ≤ ending.length)
    (noSlash : '/' ∉ ending.toList) : IsEntry ((splitName name).1 ++ ending) := by
  apply isEntry_of_length
  · rw [String.length_append]
    exact Nat.le_add_left_of_le long
  · rw [String.toList_append, mem_append, not_or]
    exact ⟨fun member => entry.noSlash (mem_of_mem_splitName member), noSlash⟩

end OpsContent.Path
