import OpsContent.Pattern

/-!
# Names that patterns select

The wildcards of a pattern cut it into segments.  A name matches if it is these segments in their
order with some characters in place of each wildcard, and a list of patterns selects the names that
match one of them, in their order and as often as they occur.
-/

namespace OpsContent.Pattern

/-- The texts between the stars. -/
def segments (pattern : String) : List (List Char) :=
  pattern.toList.splitOn star

/-- Segments with fillings between them. -/
def interlace (segments fillings : List (List Char)) : List Char :=
  segments.headD [] ++ (List.zipWith (· ++ ·) fillings segments.tail).flatten

/-- The name is one of those that the pattern stands for. -/
def StandsFor (pattern name : String) : Prop :=
  (star ∉ pattern.toList ∧ name = pattern) ∨
    (star ∈ pattern.toList ∧ ∃ fillings, fillings.length + 1 = (segments pattern).length ∧
      name.toList = interlace (segments pattern) fillings)

theorem matchesChars_iff_interlace (pattern name : List Char) :
    matchesChars pattern name ↔
      ∃ fillings, fillings.length + 1 = (pattern.splitOn star).length ∧
        name = interlace (pattern.splitOn star) fillings := by
  induction pattern generalizing name with
  | nil =>
    rw [matchesChars, List.isEmpty_iff, List.splitOn_nil]
    constructor
    · rintro rfl
      exact ⟨[], rfl, rfl⟩
    · rintro ⟨fillings, length, rfl⟩
      rw [List.length_eq_zero_iff.1 (Nat.succ.inj length)]
      rfl
  | cons char pattern ih =>
    obtain ⟨segment, later, parts⟩ := List.exists_cons_of_ne_nil (List.splitOn_ne_nil star pattern)
    by_cases wild : char = star
    · -- the wildcard opens a gap before the segments of the rest
      have split : (char :: pattern).splitOn star = [] :: segment :: later := by
        simp [List.splitOn_cons_eq_if_modifyHead, wild, parts]
      rw [split, wild, matchesChars_star]
      simp only [ih, parts]
      constructor
      · rintro ⟨taken, _, rfl, fillings, length, rfl⟩
        exact ⟨taken :: fillings, by simpa using length, by simp [interlace]⟩
      · rintro ⟨_ | ⟨taken, fillings⟩, length, rfl⟩
        · simp at length
        · exact ⟨taken, _, by simp [interlace], fillings, by simpa using length, rfl⟩
    · -- any other character belongs to the first segment
      have split : (char :: pattern).splitOn star = (char :: segment) :: later := by
        simp [List.splitOn_cons_eq_if_modifyHead, wild, parts]
      rw [split]
      cases name with
      | nil => simp [matchesChars, wild, interlace]
      | cons first rest =>
        rw [matchesChars, if_neg wild, Bool.and_eq_true, beq_iff_eq, ih, parts]
        simp only [interlace, List.headD_cons, List.tail_cons, List.cons_append, List.cons.injEq,
          List.length_cons]
        constructor
        · rintro ⟨rfl, fillings, length, same⟩
          exact ⟨fillings, length, rfl, same⟩
        · rintro ⟨fillings, length, rfl, same⟩
          exact ⟨rfl, fillings, length, same⟩

theorem accepts_iff_standsFor (pattern name : String) :
    accepts pattern name ↔ StandsFor pattern name := by
  rw [accepts_eq, StandsFor]
  by_cases wild : star ∈ pattern.toList
  · simp only [wild, not_true_eq_false, false_and, true_and, false_or]
    exact matchesChars_iff_interlace _ _
  · simp only [wild, not_false_eq_true, true_and, false_and, or_false,
      matchesChars_literal _ _ wild, String.toList_inj]

/-- A name matches if one of the patterns stands for it.  Of a list of names exactly those that
match are selected, in their order and as often as they occur. -/
theorem anyAccepts_iff_standsFor (patterns : List String) :
    (∀ name, anyAccepts patterns name = true ↔ ∃ pattern ∈ patterns, StandsFor pattern name) ∧
      ∀ names, (select patterns names).Sublist names ∧
        ∀ name, ((∃ pattern ∈ patterns, StandsFor pattern name) →
            (select patterns names).count name = names.count name) ∧
          ((¬ ∃ pattern ∈ patterns, StandsFor pattern name) → name ∉ select patterns names) := by
  have matched : ∀ name, anyAccepts patterns name = true ↔
      ∃ pattern ∈ patterns, StandsFor pattern name := by
    intro name
    simp only [anyAccepts, List.any_eq_true, accepts_iff_standsFor]
  refine ⟨matched, fun names => ⟨List.filter_sublist, fun name => ⟨fun holds => ?_, fun fails => ?_⟩⟩⟩
  · exact List.count_filter ((matched name).2 holds)
  · exact fun member => fails ((matched name).1 (List.mem_filter.1 member).2)

/-- Adjacent wildcards and an empty segment at the end. -/
example : interlace (segments "a**b*") [['x'], [], ['\n', 'b']] = ['a', 'x', 'b', '\n', 'b'] := by
  decide

end OpsContent.Pattern
