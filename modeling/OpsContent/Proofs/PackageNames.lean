import OpsContent.Package
import OpsContent.Proofs.FileNames

/-!
# Names of packages

The name and the version of a package are read off its path.  An archive gives both as they were
written.  In the name of a directory the last dot is taken for that of an ending, so a directory gives
them only if its name has no dot except at the start, and a version of several groups loses the last.
-/

namespace OpsContent.Package

open OpsContent.Path List

variable {name : String} {groups : List String}

/-- Groups of digits, which dots join to a version. -/
structure IsVersion (groups : List String) : Prop where
  some : groups ≠ []
  digits : ∀ group ∈ groups, group ≠ "" ∧ group.toList.all Char.isDigit = true

def dotted (groups : List String) : String :=
  ".".intercalate groups

/-- A name with a version of these groups. -/
def titled (name : String) (groups : List String) : String :=
  name ++ "-" ++ dotted groups

theorem toList_titled : (titled name groups).toList = name.toList ++ '-' :: (dotted groups).toList := by
  simp [titled]

namespace IsVersion

variable (version : IsVersion groups)

include version

theorem notMem_group {group : String} (member : group ∈ groups) {char : Char}
    (noDigit : char.isDigit = false) : char ∉ group.toList := by
  intro inside
  rw [all_eq_true.1 (version.digits group member).2 char inside] at noDigit
  cases noDigit

theorem noDot {group : String} (member : group ∈ groups) : '.' ∉ group.toList :=
  version.notMem_group member (by decide)

theorem isVersion_dotted : isVersion (dotted groups).toList := by
  have free : ∀ group ∈ groups.map String.toList, '.' ∉ group := by
    simpa using fun group => version.noDot
  have split : (dotted groups).toList.splitOn '.' = groups.map String.toList := by
    rw [dotted, String.toList_intercalate]
    exact splitOn_intercalate '.' free (by simpa using version.some)
  simpa [isVersion, split] using version.digits

/-- A version holds digits and dots only. -/
theorem notMem_dotted (char : Char) (noDigit : char.isDigit = false) (notDot : char ≠ '.') :
    char ∉ (dotted groups).toList := by
  induction groups with
  | nil => simp [dotted]
  | cons group rest ih =>
    have here := version.notMem_group (mem_cons_self ..) noDigit
    cases rest with
    | nil => simpa [dotted] using here
    | cons next more =>
      have later := ih ⟨by simp, (forall_mem_cons.1 version.digits).2⟩
      rw [dotted] at later ⊢
      rw [String.intercalate_cons_cons, String.toList_append, String.toList_append,
        mem_append, mem_append]
      simpa [here, notDot] using later

theorem dot_mem_iff : '.' ∈ (dotted groups).toList ↔ groups.length ≠ 1 := by
  have noDot := @version.noDot
  have some := version.some
  cases groups with
  | nil => exact absurd rfl some
  | cons group rest =>
    cases rest with
    | nil => simpa [dotted] using noDot (by simp)
    | cons next more => simp [dotted]

theorem dropLast (several : groups.length ≠ 1) :
    IsVersion groups.dropLast ∧ ∃ last, '.' ∉ last.toList ∧
      dotted groups = dotted groups.dropLast ++ "." ++ last := by
  have more : groups.dropLast ≠ [] := by
    have some := length_pos_iff.2 version.some
    apply ne_nil_of_length_pos
    rw [length_dropLast]
    omega
  refine ⟨⟨more, fun group member => version.digits group (dropLast_subset _ member)⟩,
    groups.getLast version.some, version.noDot (getLast_mem _), ?_⟩
  conv_lhs => rw [← dropLast_append_getLast version.some]
  rw [dotted, String.intercalate_append_of_ne_nil more (by simp), String.intercalate_singleton]
  rfl

theorem isEntry_titled (noSlash : '/' ∉ name.toList) : IsEntry (titled name groups) := by
  have parts := @toList_titled name groups
  have isDashed : ∀ short : String, '-' ∉ short.toList → titled name groups ≠ short := by
    rintro _ free rfl
    exact free (by simp [parts])
  refine ⟨isDashed "" (by decide), isDashed "." (by decide), isDashed ".." (by decide), ?_⟩
  simpa [parts, noSlash] using version.notMem_dotted '/' (by decide) (by decide)

variable (named : name ≠ "")

include named

theorem splitVersion_titled : splitVersion (titled name groups) = (name, dotted groups) := by
  obtain ⟨after, before⟩ :=
    cut_last name.toList (version.notMem_dotted '-' (by decide) (by decide))
  simp only [splitVersion, toList_titled, after, before, reverse_reverse]
  simp [version.isVersion_dotted, named]

theorem dot_mem_tail_iff : '.' ∈ (titled name groups).toList.tail ↔
    '.' ∈ name.toList.tail ∨ groups.length ≠ 1 := by
  rw [toList_titled, tail_append_of_ne_nil (by simpa using named), mem_append,
    mem_cons, version.dot_mem_iff]
  simp

end IsVersion

/-- What is read off a stem is shorter than the stem, unless no version is found. -/
theorem splitVersion_eq_or_length (stem : String) :
    splitVersion stem = (stem, defaultVersion) ∨
      (splitVersion stem).1.length + (splitVersion stem).2.length < stem.length := by
  unfold splitVersion
  dsimp only
  split
  · exact .inl rfl
  next dash start rest =>
    split
    · have parts := congrArg List.length
        (takeWhile_append_dropWhile (p := (· != '-')) (l := stem.toList.reverse))
      rw [rest, length_append, length_cons, length_reverse,
        String.length_toList] at parts
      simp only [String.length_ofList, length_reverse]
      omega
    · exact .inl rfl

theorem IsVersion.splitVersion_stem_iff (version : IsVersion groups) (named : name ≠ "") :
    splitVersion (splitName (titled name groups)).1 = (name, dotted groups) ↔
      groups.length = 1 ∧ '.' ∉ name.toList.tail := by
  have dot := version.dot_mem_tail_iff named
  rcases splitName_cases (titled name groups) with
    ⟨free, split⟩ | ⟨base, extension, whole, notEmpty, -, split⟩
  · rw [split, version.splitVersion_titled named]
    refine iff_of_true rfl ?_
    simpa [dot, and_comm] using free
  · rw [split]
    refine iff_of_false (fun same => ?_) ?_
    · rcases splitVersion_eq_or_length base with default | shorter
      · rw [default] at same
        obtain ⟨rfl, isDefault⟩ := Prod.mk.inj same
        rw [titled, ← isDefault, String.append_assoc, String.append_assoc,
          String.append_right_inj, ← String.toList_inj] at whole
        simp [defaultVersion] at whole
      · have lengths := congrArg String.length whole
        rw [titled, String.length_append, String.length_append, String.length_append,
          String.length_append, show "-".length = ".".length from rfl] at lengths
        rw [same] at shorter
        dsimp only at shorter
        omega
    · rintro ⟨single, free⟩
      have inside : '.' ∈ (titled name groups).toList.tail := by
        rw [whole, String.append_assoc, String.toList_append,
          tail_append_of_ne_nil (by simpa using notEmpty)]
        simp
      exact (dot.1 inside).elim free fun several => several single

theorem ofPath_join (parent : Path) {file : String} (entry : IsEntry file) :
    ((ofPath (parent.join file)).name, (ofPath (parent.join file)).version) =
      splitVersion (splitName file).1 := by
  simp [ofPath, fileStem?, fileName?_join parent entry]

/-- An archive gives its name and version.  A directory does so exactly if its version is one group
and its name has no dot but at the start; a version of more groups loses the last. -/
theorem ofPath_archive_directory (parent : Path) (named : name ≠ "") (noSlash : '/' ∉ name.toList)
    (version : IsVersion groups) :
    let archive := ofPath (parent.join (titled name groups ++ ".zip"))
    let directory := ofPath (parent.join (titled name groups))
    (archive.name = name ∧ archive.version = dotted groups ∧
        archive.fullName = titled name groups) ∧
      (directory.name = name ∧ directory.version = dotted groups ↔
        groups.length = 1 ∧ '.' ∉ name.toList.tail) ∧
      (groups.length ≠ 1 →
        directory.name = name ∧ directory.version = dotted groups.dropLast) := by
  intro archive directory
  have entry := version.isEntry_titled noSlash
  have zipped : IsEntry (titled name groups ++ ".zip") := by
    refine isEntry_of_length ?_ (by simpa using entry.noSlash)
    rw [String.length_append]
    exact Nat.le_add_left_of_le (by decide)
  have archived : (archive.name, archive.version) = (name, dotted groups) := by
    rw [ofPath_join parent zipped, @splitName_append "zip".toList _ _ (by decide) (by decide)
      entry.notEmpty, version.splitVersion_titled named]
  have found : (directory.name, directory.version) = splitVersion (splitName (titled name groups)).1 :=
    ofPath_join parent entry
  obtain ⟨isName, isVersion⟩ := Prod.mk.inj archived
  refine ⟨⟨isName, isVersion, ?_⟩, ?_, fun several => ?_⟩
  · rw [fullName, isName, isVersion, titled]
  · rw [← Prod.mk.injEq, found, version.splitVersion_stem_iff named]
  · obtain ⟨fewer, last, noDot, parts⟩ := version.dropLast several
    have shorter : titled name groups = titled name groups.dropLast ++ ("." ++ last) := by
      simp only [titled, parts, String.append_assoc]
    rw [← Prod.mk.injEq, found, shorter, splitName_append (by simp) noDot
      (fewer.isEntry_titled noSlash).notEmpty, fewer.splitVersion_titled named]

theorem ofPath_archive_directory_three_groups :
    (ofPath (Path.join ⟨true, ["build"]⟩ "ops-content-2.0.1.zip")).fullName = "ops-content-2.0.1" ∧
      (ofPath (Path.join ⟨true, ["build"]⟩ "ops-content-2.0.1")).version = "2.0" := by
  have version : IsVersion ["2", "0", "1"] := ⟨by simp, by decide⟩
  have isTitled : titled "ops-content" ["2", "0", "1"] = "ops-content-2.0.1" := by decide
  have read := @ofPath_archive_directory "ops-content" ["2", "0", "1"] ⟨true, ["build"]⟩
    (by decide) (by decide) version
  rw [isTitled] at read
  exact ⟨read.1.2.2, (read.2.2 (by decide)).2⟩

/-- An expanded directory can pass for an earlier version than its archive. -/
theorem ofPath_directory_ne_archive :
    (ofPath (Path.ofText "/build/ops-content-2.0.1")).fullName ≠
      (ofPath (Path.ofText "/build/ops-content-2.0.1.zip")).fullName := by
  decide +kernel

end OpsContent.Package
