/-!
# Tables sorted by key

Metadata, statistics and the fields of JSON objects are tables from text to values. A table
is kept in the order of its keys, which compare by code point and so in the order of their
UTF-8 bytes, and holds each key once.
-/

namespace OpsContent

/-- Values under keys. -/
abbrev Table (α : Type u) := List (String × α)

namespace Table

variable {α : Type u} {β : Type v}

/-- Put a value under a key, in place of the value that was there. -/
def insert (key : String) (value : α) : Table α → Table α
  | [] => [(key, value)]
  | (other, old) :: rest =>
    if key < other then (key, value) :: (other, old) :: rest
    else if key = other then (key, value) :: rest
    else (other, old) :: insert key value rest

/-- The value under a key. -/
def find? (table : Table α) (key : String) : Option α :=
  match table with
  | [] => none
  | (other, value) :: rest => if other = key then some value else find? rest key

/-- Take away what is under a key. -/
def erase (table : Table α) (key : String) : Table α :=
  table.filter fun entry => entry.1 ≠ key

/-- A table of entries; a later one of the same key wins. -/
def ofList (entries : List (String × α)) : Table α :=
  entries.foldl (fun table entry => insert entry.1 entry.2 table) []

def keys (table : Table α) : List String :=
  table.map Prod.fst

def holds (table : Table α) (key : String) : Bool :=
  (table.find? key).isSome

def mapValues (change : α → β) (table : Table α) : Table β :=
  table.map fun entry => (entry.1, change entry.2)

/-- The keys are in order, each once. -/
def Sorted (table : Table α) : Prop :=
  table.Pairwise fun left right => left.1 < right.1

@[simp] theorem find?_nil (key : String) : find? ([] : Table α) key = none := rfl

/-- A lookup after an insertion sees the new value under its key and the old table elsewhere. -/
theorem find?_insert (table : Table α) (key other : String) (value : α) :
    (table.insert key value).find? other =
      if other = key then some value else table.find? other := by
  induction table with
  | nil => simp [insert, find?, eq_comm]
  | cons entry rest ih =>
    obtain ⟨first, old⟩ := entry
    simp only [insert]
    split
    · by_cases same : other = key
      · simp [find?, same]
      · simp [find?, same, Ne.symm same]
    · split
      · next equal =>
          subst equal
          by_cases same : other = key
          · simp [find?, same]
          · simp [find?, same, Ne.symm same]
      · next different =>
          by_cases same : first = other
          · subst same
            simp [find?, Ne.symm different]
          · simp [find?, same, ih]

theorem find?_erase (table : Table α) (key other : String) :
    (table.erase key).find? other = if other = key then none else table.find? other := by
  induction table with
  | nil => simp [erase]
  | cons entry rest ih =>
    obtain ⟨first, value⟩ := entry
    rw [erase] at ih ⊢
    by_cases gone : first = key
    · subst gone
      by_cases same : other = first
      · simpa [same] using ih
      · simpa [find?, same, Ne.symm same] using ih
    · by_cases same : first = other
      · simp [gone, find?, ← same]
      · simpa [gone, find?, same] using ih

theorem mem_of_find? {table : Table α} {key : String} {value : α}
    (found : table.find? key = some value) : (key, value) ∈ table := by
  induction table with
  | nil => cases found
  | cons entry rest ih =>
    rw [find?] at found
    split at found
    next same =>
      cases found
      exact same ▸ List.mem_cons_self
    · exact List.mem_cons_of_mem _ (ih found)

/-- Keys of a table after an insertion are the old ones and the new one. -/
theorem mem_keys_insert (table : Table α) (key other : String) (value : α) :
    other ∈ (table.insert key value).keys ↔ other = key ∨ other ∈ table.keys := by
  induction table with
  | nil => simp [insert, keys]
  | cons entry rest ih =>
    obtain ⟨first, old⟩ := entry
    simp only [insert]
    split
    · simp [keys]
    · split
      · next equal => subst equal; simp [keys]
      · simp only [keys, List.map_cons, List.mem_cons] at ih ⊢
        rw [ih]
        grind

theorem Sorted.insert {table : Table α} (sorted : table.Sorted) (key : String) (value : α) :
    (table.insert key value).Sorted := by
  induction table with
  | nil => simp [Table.insert, Sorted]
  | cons entry rest ih =>
    obtain ⟨first, old⟩ := entry
    have tailSorted : Sorted rest := (List.pairwise_cons.1 sorted).2
    have below : ∀ other ∈ rest, first < other.1 := (List.pairwise_cons.1 sorted).1
    simp only [Table.insert]
    split
    · next before =>
        refine List.pairwise_cons.2 ⟨?_, sorted⟩
        intro other member
        cases List.mem_cons.1 member with
        | inl equal => subst equal; exact before
        | inr inRest => exact String.lt_trans before (below other inRest)
    · split
      · next equal =>
          subst equal
          exact List.pairwise_cons.2 ⟨below, tailSorted⟩
      · next notBefore different =>
          refine List.pairwise_cons.2 ⟨?_, ih tailSorted⟩
          intro other member
          have inKeys : other.1 ∈ (Table.insert key value rest).keys :=
            List.mem_map_of_mem member
          rcases (mem_keys_insert rest key other.1 value).1 inKeys with equal | inRest
          · rw [equal]
            rcases Decidable.em (first < key) with less | notLess
            · exact less
            · exact absurd
                (String.le_antisymm (String.not_lt.1 notLess) (String.not_lt.1 notBefore)) different
          · obtain ⟨entry, inTable, same⟩ := List.mem_map.1 inRest
            exact same ▸ below entry inTable

/-- Every table built from a list is sorted. -/
theorem sorted_ofList (entries : List (String × α)) : (ofList entries).Sorted := by
  suffices general : ∀ (start : Table α), start.Sorted →
      (entries.foldl (fun table entry => insert entry.1 entry.2 table) start).Sorted from
    general [] List.Pairwise.nil
  induction entries with
  | nil => exact fun _ sorted => sorted
  | cons entry rest ih => exact fun start sorted => ih _ (sorted.insert entry.1 entry.2)

end Table

end OpsContent
