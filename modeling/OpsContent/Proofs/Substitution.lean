import OpsContent.Proofs.Identifiers

/-!
# Identifiers replaced at once

Identifiers in a value are replaced in every text and key at once: no replacement is seen by
another one, and as long as the new keys of each object differ nothing is lost.
-/

namespace OpsContent

theorem Table.perm_insert {α : Type} {table : Table α} {key : String} (value : α)
    (absent : key ∉ table.keys) : (table.insert key value).Perm ((key, value) :: table) := by
  induction table with
  | nil => exact .refl _
  | cons entry rest ih =>
    rw [Table.keys, List.map_cons, List.mem_cons, not_or] at absent
    rw [Table.insert]
    split
    · exact .refl _
    · rw [if_neg absent.1]
      exact ((ih absent.2).cons entry).trans (.swap ..)

namespace Remap

mutual

/-- The same value with other texts and keys.  Each is replaced once, by what the table of
replacements has for it, and an object holds its entries in the order of their new keys. -/
inductive Renamed (remap : Remap) : Json → Json → Prop where
  | null : Renamed remap .null .null
  | bool (value : Bool) : Renamed remap (.bool value) (.bool value)
  | number (value : Number) : Renamed remap (.number value) (.number value)
  | string (text : String) : Renamed remap (.string text) (.string (remap.rename text))
  | array {items images : List Json} :
      RenamedItems remap items images → Renamed remap (.array items) (.array images)
  | object {fields images : List (String × Json)} {table : Table Json} :
      RenamedFields remap fields images → table.Perm images → table.Sorted →
        Renamed remap (.object fields) (.object table)

/-- Item by item, one list is the other renamed. -/
inductive RenamedItems (remap : Remap) : List Json → List Json → Prop where
  | nil : RenamedItems remap [] []
  | cons {item image : Json} {rest images : List Json} : Renamed remap item image →
      RenamedItems remap rest images → RenamedItems remap (item :: rest) (image :: images)

/-- Every entry has one image, under the image of its key. -/
inductive RenamedFields (remap : Remap) :
    List (String × Json) → List (String × Json) → Prop where
  | nil : RenamedFields remap [] []
  | cons {key : String} {value image : Json} {rest images : List (String × Json)} :
      Renamed remap value image → RenamedFields remap rest images →
        RenamedFields remap ((key, value) :: rest) ((remap.rename key, image) :: images)

end

mutual

/-- In each object of the value the new keys are pairwise distinct. -/
def KeysApart (remap : Remap) : Json → Prop
  | .array items => ItemKeysApart remap items
  | .object fields =>
    (fields.map fun field => remap.rename field.1).Nodup ∧ FieldKeysApart remap fields
  | _ => True

def ItemKeysApart (remap : Remap) : List Json → Prop
  | [] => True
  | item :: rest => KeysApart remap item ∧ ItemKeysApart remap rest

def FieldKeysApart (remap : Remap) : List (String × Json) → Prop
  | [] => True
  | (_, value) :: rest => KeysApart remap value ∧ FieldKeysApart remap rest

end

variable {remap : Remap} {fields : List (String × Json)} {done : Table Json}

/-- Fields with keys and values renamed. -/
def images (remap : Remap) (fields : List (String × Json)) : List (String × Json) :=
  fields.map fun field => (remap.rename field.1, remap.apply field.2)

theorem sorted_applyFields (sorted : done.Sorted) (fields : List (String × Json)) :
    (applyFields remap done fields).Sorted := by
  induction fields generalizing done with
  | nil => rwa [applyFields]
  | cons field rest ih =>
    rw [applyFields]
    exact ih (sorted.insert _ _)

theorem perm_applyFields (apart : (fields.map fun field => remap.rename field.1).Nodup)
    (fresh : ∀ field ∈ fields, remap.rename field.1 ∉ done.keys) :
    (applyFields remap done fields).Perm (images remap fields ++ done) := by
  induction fields generalizing done with
  | nil =>
    rw [applyFields]
    exact .refl _
  | cons field rest ih =>
    obtain ⟨key, value⟩ := field
    obtain ⟨differs, apartRest⟩ := List.nodup_cons.1 apart
    rw [applyFields]
    have inserted := Table.perm_insert (remap.apply value) (fresh (key, value) (by simp))
    have behind : (applyFields remap (done.insert (remap.rename key) (remap.apply value)) rest).Perm
        (images remap rest ++ done.insert (remap.rename key) (remap.apply value)) := by
      refine ih apartRest fun field member inside => ?_
      rcases (Table.mem_keys_insert _ _ _ _).1 inside with same | early
      · exact differs (List.mem_map.2 ⟨field, member, same⟩)
      · exact fresh field (by simp [member]) early
    calc applyFields remap (done.insert (remap.rename key) (remap.apply value)) rest
      _ |>.Perm (images remap rest ++ done.insert (remap.rename key) (remap.apply value)) := behind
      _ |>.Perm (images remap rest ++ (remap.rename key, remap.apply value) :: done) :=
        inserted.append_left _
      _ |>.Perm (images remap ((key, value) :: rest) ++ done) := List.perm_middle

theorem eq_applyFields_iff {table : Table Json}
    (apart : (fields.map fun field => remap.rename field.1).Nodup) :
    table.Perm (images remap fields) ∧ table.Sorted ↔ table = applyFields remap [] fields := by
  have perm : (applyFields remap [] fields).Perm (images remap fields) := by
    have inserted : (applyFields remap [] fields).Perm (images remap fields ++ []) :=
      perm_applyFields apart fun _ _ member => by cases member
    rwa [List.append_nil] at inserted
  have sorted : (applyFields remap [] fields).Sorted := sorted_applyFields List.Pairwise.nil fields
  constructor
  · rintro ⟨permuted, sortedHere⟩
    refine (permuted.trans perm.symm).eq_of_pairwise (fun first second _ _ less more => ?_)
      sortedHere sorted
    exact absurd (String.lt_trans less more) (String.lt_irrefl _)
  · rintro rfl
    exact ⟨perm, sorted⟩

mutual

theorem renamed_iff : (value : Json) → KeysApart remap value → (result : Json) →
    (Renamed remap value result ↔ result = remap.apply value)
  | .null, _, result => ⟨fun renamed => by cases renamed; rfl, fun same => same ▸ .null⟩
  | .bool value, _, result =>
    ⟨fun renamed => by cases renamed; rfl, fun same => same ▸ .bool value⟩
  | .number value, _, result =>
    ⟨fun renamed => by cases renamed; rfl, fun same => same ▸ .number value⟩
  | .string text, _, result =>
    ⟨fun renamed => by cases renamed; rfl, fun same => same ▸ .string text⟩
  | .array items, apart, result => by
      rw [KeysApart] at apart
      rw [apply]
      constructor
      · rintro (_ | _ | _ | _ | renamed)
        rw [(renamedItems_iff items apart _).1 renamed]
      · rintro rfl
        exact .array ((renamedItems_iff items apart _).2 rfl)
  | .object fields, apart, result => by
      rw [KeysApart] at apart
      rw [apply]
      constructor
      · intro renamed
        cases renamed with
        | object images permuted sorted =>
          rw [(renamedFields_iff fields apart.2 _).1 images] at permuted
          rw [(eq_applyFields_iff apart.1).1 ⟨permuted, sorted⟩]
      · rintro rfl
        obtain ⟨permuted, sorted⟩ := (eq_applyFields_iff apart.1).2 rfl
        exact .object ((renamedFields_iff fields apart.2 _).2 rfl) permuted sorted

theorem renamedItems_iff : (items : List Json) → ItemKeysApart remap items →
    (results : List Json) → (RenamedItems remap items results ↔ results = applyItems remap items)
  | [], _, results => ⟨fun renamed => by cases renamed; rfl, fun same => same ▸ .nil⟩
  | item :: rest, apart, results => by
      rw [ItemKeysApart] at apart
      rw [applyItems]
      constructor
      · intro renamed
        cases renamed with
        | cons first later =>
          rw [(renamed_iff item apart.1 _).1 first, (renamedItems_iff rest apart.2 _).1 later]
      · rintro rfl
        exact .cons ((renamed_iff item apart.1 _).2 rfl) ((renamedItems_iff rest apart.2 _).2 rfl)

theorem renamedFields_iff : (fields : List (String × Json)) → FieldKeysApart remap fields →
    (results : List (String × Json)) →
      (RenamedFields remap fields results ↔ results = images remap fields)
  | [], _, results => ⟨fun renamed => by cases renamed; rfl, fun same => same ▸ .nil⟩
  | (key, value) :: rest, apart, results => by
      rw [FieldKeysApart] at apart
      constructor
      · intro renamed
        cases renamed with
        | cons first later =>
          rw [(renamed_iff value apart.1 _).1 first, (renamedFields_iff rest apart.2 _).1 later]
          rfl
      · rintro rfl
        exact .cons ((renamed_iff value apart.1 _).2 rfl)
          ((renamedFields_iff rest apart.2 _).2 rfl)

end

/-- Identifiers are replaced by one substitution: what comes of a value is the value of the same
shape with every text and key replaced once.  Under the new key of an entry its value is found with
its identifiers replaced, and an object has as many entries as before. -/
theorem apply_substitutes {value : Json} (apart : KeysApart remap value) :
    (∀ result, remap.apply value = result ↔ Renamed remap value result) ∧
      ∀ fields, value = .object fields → ∃ table : Table Json, remap.apply value = .object table ∧
        table.length = fields.length ∧ ∀ field ∈ fields,
          table.find? (remap.rename field.1) = some (remap.apply field.2) := by
  refine ⟨fun result => eq_comm.trans (renamed_iff value apart result).symm, ?_⟩
  rintro fields rfl
  rw [KeysApart] at apart
  obtain ⟨permuted, sorted⟩ := (eq_applyFields_iff apart.1).2 rfl
  refine ⟨_, by rw [apply], by simpa [images] using permuted.length_eq, fun field member => ?_⟩
  exact sorted.find?_of_mem (permuted.mem_iff.2 (List.mem_map_of_mem member))

/-- Two identifiers that change places. -/
theorem apply_substitutes_swapped :
    KeysApart [("A", "B"), ("B", "A")] (.object [("A", .string "B"), ("B", .array [.string "A"])]) ∧
      Remap.apply [("A", "B"), ("B", "A")]
          (.object [("A", .string "B"), ("B", .array [.string "A"])]) =
        .object [("A", .array [.string "B"]), ("B", .string "A")] := by
  have apart : KeysApart [("A", "B"), ("B", "A")]
      (.object [("A", .string "B"), ("B", .array [.string "A"])]) := by
    simp [KeysApart, FieldKeysApart, ItemKeysApart, rename, Table.find?]
  refine ⟨apart, ((apply_substitutes apart).1 _).2 ?_⟩
  exact .object (.cons (.string "B") (.cons (.array (.cons (.string "A") .nil)) .nil))
    (.swap ..) (List.pairwise_pair.2 (by decide))

end Remap

end OpsContent
