/-!
# Name patterns

A pattern is a literal name or holds `*`, which stands for any characters, none and line breaks
included. The whole name has to match. A list of patterns selects the names that match at
least one of them.
-/

namespace OpsContent.Pattern

/-- Stands for any characters. -/
def star : Char := '*'

/-- The list and what is left of it after each item. -/
def suffixes {α : Type u} : List α → List (List α)
  | [] => [[]]
  | first :: rest => (first :: rest) :: suffixes rest

def isWildcard (pattern : String) : Bool :=
  pattern.toList.contains star

/-- Does the whole name match the pattern? -/
def matchesChars : List Char → List Char → Bool
  | [], name => name.isEmpty
  | char :: pattern, name =>
    if char = star then (suffixes name).any (matchesChars pattern)
    else match name with
      | [] => false
      | first :: rest => char == first && matchesChars pattern rest

/-- An end that is reached is reached from all places before it. -/
def spread : List Bool → List Bool
  | [] => []
  | flag :: rest =>
    match spread rest with
    | [] => [flag]
    | later :: more => (flag || later) :: later :: more

/-- The ends after a character more. -/
def advance (char : Char) : List Char → List Bool → List Bool
  | [], _ => [false]
  | first :: rest, flags => (char == first && flags.tail.headD false) :: advance char rest flags.tail

/-- For each end of a name, whether it matches the pattern. A wildcard costs no more than any
other character. -/
def matchingEnds : List Char → List Char → List Bool
  | [], name => (suffixes name).map List.isEmpty
  | char :: pattern, name =>
    let after := matchingEnds pattern name
    if char = star then spread after else advance char name after

/-- Does the name match the pattern? -/
def accepts (pattern name : String) : Bool :=
  (matchingEnds pattern.toList name.toList).headD false

/-- Does the name match one of the patterns? -/
def anyAccepts (patterns : List String) (name : String) : Bool :=
  patterns.any fun pattern => accepts pattern name

/-- The names that match a pattern. -/
def select (patterns names : List String) : List String :=
  names.filter (anyAccepts patterns)

/-- The ends of a list are what is left of it after some beginning. -/
theorem mem_suffixes {α : Type u} (list tail : List α) :
    tail ∈ suffixes list ↔ ∃ front, list = front ++ tail := by
  induction list with
  | nil => simp [suffixes]
  | cons first rest ih =>
    rw [suffixes, List.mem_cons, ih]
    constructor
    · rintro (rfl | ⟨front, rfl⟩)
      · exact ⟨[], rfl⟩
      · exact ⟨first :: front, rfl⟩
    · rintro ⟨front, equal⟩
      cases front with
      | nil => exact Or.inl equal.symm
      | cons head front => exact Or.inr ⟨front, (List.cons.inj equal).2⟩

theorem suffixes_eq {α : Type u} (list : List α) :
    ∃ more, suffixes list = list :: more := by
  cases list with
  | nil => exact ⟨[], rfl⟩
  | cons first rest => exact ⟨suffixes rest, rfl⟩

/-- Spreading the flags of all ends asks of each end whether one of its own ends is flagged. -/
theorem spread_suffixes (flagged : List Char → Bool) (name : List Char) :
    spread ((suffixes name).map flagged) =
      (suffixes name).map fun tail => (suffixes tail).any flagged := by
  induction name with
  | nil => simp [suffixes, spread]
  | cons first rest ih =>
    obtain ⟨more, equal⟩ := suffixes_eq rest
    simp only [suffixes, List.map_cons, spread, List.any_cons, ih]
    rw [show (suffixes rest).map (fun tail => (suffixes tail).any flagged) =
        (suffixes rest).any flagged ::
          more.map (fun tail => (suffixes tail).any flagged) by
      conv => lhs; rw [equal]
      rfl]

/-- Advancing the flags of all ends asks of each end whether it starts with the character. -/
theorem advance_suffixes (char : Char) (flagged : List Char → Bool) (name : List Char) :
    advance char name ((suffixes name).map flagged) =
      (suffixes name).map fun tail => match tail with
        | [] => false
        | first :: rest => char == first && flagged rest := by
  induction name with
  | nil => simp [suffixes, advance]
  | cons first rest ih =>
    obtain ⟨more, equal⟩ := suffixes_eq rest
    simp only [suffixes, List.map_cons, advance, List.tail_cons]
    rw [ih, equal]
    simp

/-- The flags say of each end whether it matches. -/
theorem matchingEnds_eq (pattern name : List Char) :
    matchingEnds pattern name = (suffixes name).map (matchesChars pattern) := by
  induction pattern with
  | nil =>
    rw [matchingEnds]
    exact List.map_congr_left fun tail _ => by cases tail <;> rfl
  | cons char pattern ih =>
    rw [matchingEnds, ih]
    by_cases wild : char = star
    · rw [if_pos wild, spread_suffixes]
      exact List.map_congr_left fun tail _ => by simp [matchesChars, wild]
    · rw [if_neg wild, advance_suffixes]
      exact List.map_congr_left fun tail _ => by
        cases tail <;> simp [matchesChars, wild]

/-- A name is accepted if it matches. -/
theorem accepts_eq (pattern name : String) :
    accepts pattern name = matchesChars pattern.toList name.toList := by
  obtain ⟨more, equal⟩ := suffixes_eq name.toList
  rw [accepts, matchingEnds_eq, equal, List.map_cons, List.headD_cons]

/-- A wildcard takes some beginning of the name and leaves the rest to the pattern after it. -/
theorem matchesChars_star (pattern name : List Char) :
    matchesChars (star :: pattern) name = true ↔
      ∃ taken rest, name = taken ++ rest ∧ matchesChars pattern rest = true := by
  simp only [matchesChars, if_true, List.any_eq_true, mem_suffixes]
  constructor
  · rintro ⟨rest, ⟨taken, equal⟩, accepted⟩
    exact ⟨taken, rest, equal, accepted⟩
  · rintro ⟨taken, rest, equal, accepted⟩
    exact ⟨rest, ⟨taken, equal⟩, accepted⟩

/-- A pattern without wildcard matches its own text only. -/
theorem matchesChars_literal (pattern name : List Char) (literal : star ∉ pattern) :
    matchesChars pattern name = true ↔ name = pattern := by
  induction pattern generalizing name with
  | nil => cases name <;> simp [matchesChars]
  | cons char pattern ih =>
    obtain ⟨notStar, rest⟩ : star ≠ char ∧ star ∉ pattern := by simpa using literal
    cases name with
    | nil => simp [matchesChars, Ne.symm notStar]
    | cons first name =>
      simp only [matchesChars, if_neg (Ne.symm notStar), Bool.and_eq_true, beq_iff_eq,
        ih name rest, List.cons.injEq]
      exact ⟨fun ⟨equal, same⟩ => ⟨equal.symm, same⟩, fun ⟨equal, same⟩ => ⟨equal.symm, same⟩⟩

end OpsContent.Pattern
