import OpsContent.Proofs.Operations

/-!
# Entries of the disk

A renamed directory takes everything below it along and touches nothing else.
-/

namespace OpsContent.Disk

open OpsContent.Path

variable {location destination : Location} {nodes : List (Location × Node)} {disk : Disk}
  {name : String} {names : List String} {source : Location}

theorem isBelow_iff {top : Location} : isBelow top location ↔ top <+: location := by
  simp [isBelow]

theorem isBelow_append (top rest : Location) : isBelow top (top ++ rest) :=
  isBelow_iff.2 (List.prefix_append top rest)

theorem isSome_lookup_iff :
    (lookup location nodes).isSome ↔ location ∈ nodes.map Prod.fst := by
  induction nodes with
  | nil => simp [lookup]
  | cons entry rest ih =>
    obtain ⟨place, node⟩ := entry
    by_cases same : place = location
    · simp [lookup, same]
    · simp [lookup, same, ih, Ne.symm same]

/-! ## Renamed directories -/

theorem lookup_map_moved (free : ∀ entry ∈ nodes, isBelow destination entry.1 = false) :
    lookup location (nodes.map fun entry =>
      if isBelow source entry.1 then (destination ++ entry.1.drop source.length, entry.2)
      else entry) =
      if isBelow destination location then lookup (source ++ location.drop destination.length) nodes
      else if isBelow source location then none else lookup location nodes := by
  induction nodes with
  | nil => simp [lookup]
  | cons entry rest ih =>
    obtain ⟨place, node⟩ := entry
    have here := free (place, node) (by simp)
    rw [List.map_cons, lookup, ih (List.forall_mem_cons.1 free).2]
    by_cases moved : isBelow source place
    · obtain ⟨tail, rfl⟩ := isBelow_iff.1 moved
      rw [if_pos moved, List.drop_left]
      by_cases there : isBelow destination location
      · obtain ⟨more, rfl⟩ := isBelow_iff.1 there
        simp only [isBelow_append, if_true, List.drop_left, lookup, List.append_cancel_left_eq]
      · have elsewhere : destination ++ tail ≠ location := by
          rintro rfl
          exact there (isBelow_append _ _)
        rw [if_neg elsewhere, if_neg there, if_neg there, lookup]
        split
        · rfl
        next notMoved =>
          rw [if_neg]
          rintro rfl
          exact notMoved moved
    · rw [if_neg moved, lookup, lookup]
      grind [isBelow_append]

theorem get?_relocate (disk : Disk) (leaves : source ≠ []) (enters : destination ≠ [])
    (location : Location) :
    (disk.relocate source destination).get? location =
      if isBelow destination location then
        (disk.removeBelow destination).get? (source ++ location.drop destination.length)
      else if isBelow source location then none else disk.get? location := by
  have kept := get?_removeBelow disk destination location enters
  by_cases root : location = []
  · subst root
    simp [isBelow_iff, leaves, enters]
  · have moved := @lookup_map_moved location destination (disk.removeBelow destination).nodes source
      (by simp [removeBelow])
    simp only [get?, root, if_false, List.append_eq_nil_iff, leaves, false_and] at kept ⊢
    refine moved.trans ?_
    split
    · rfl
    next outside => rw [kept, if_neg outside]

end OpsContent.Disk
