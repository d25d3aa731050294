import OpsContent.Remote.Remap

/-!
# Where identifiers go

A definition goes to the identifier that the target has for its kind and name, if there is one,
and keeps its own otherwise.  Everything about the replacement of identifiers follows from that.
-/

namespace OpsContent

/-! ## Tables with unique keys -/

namespace Table

variable {α : Type}

theorem find?_eq_none_of_lt {table : Table α} {key : String}
    (above : ∀ entry ∈ table, key < entry.1) : table.find? key = none := by
  induction table with
  | nil => rfl
  | cons entry rest ih =>
    have different : entry.1 ≠ key := by
      intro same
      exact String.lt_irrefl key (same ▸ above entry (by simp))
    rw [find?, if_neg different]
    exact ih (List.forall_mem_cons.1 above).2

theorem Sorted.find?_of_mem {table : Table α} (sorted : table.Sorted) {entry : String × α}
    (member : entry ∈ table) : table.find? entry.1 = some entry.2 := by
  induction table with
  | nil => simp at member
  | cons first rest ih =>
    obtain ⟨below, tailSorted⟩ := List.pairwise_cons.1 sorted
    rw [find?]
    rcases List.mem_cons.1 member with rfl | inRest
    · rw [if_pos rfl]
    · have different : first.1 ≠ entry.1 := by
        intro same
        exact String.lt_irrefl entry.1 (same ▸ below entry inRest)
      rw [if_neg different]
      exact ih tailSorted inRest

end Table

/-! ## Accumulated definitions -/

namespace Dependents

/-- The dependents after all batches. -/
def accumulated (batches : List (DefinitionKind × Table Json)) : Dependents :=
  batches.foldl (fun dependents batch => dependents.extend batch.1 batch.2) []

theorem sorted_extend {dependents : Dependents} (sorted : dependents.Sorted) (kind : DefinitionKind)
    (definitions : Table Json) : (dependents.extend kind definitions).Sorted := by
  unfold extend
  induction definitions generalizing dependents with
  | nil => exact sorted
  | cons entry rest ih => exact ih (sorted.insert entry.1 (kind, entry.2))

theorem sorted_accumulated (batches : List (DefinitionKind × Table Json)) :
    (accumulated batches).Sorted := by
  suffices general : ∀ start : Dependents, start.Sorted →
      (batches.foldl (fun dependents batch => dependents.extend batch.1 batch.2) start).Sorted from
    general [] List.Pairwise.nil
  induction batches with
  | nil => exact fun _ sorted => sorted
  | cons batch rest ih => exact fun _ sorted => ih _ (sorted_extend sorted batch.1 batch.2)

end Dependents

namespace Remap

variable {dependents : Dependents} {listings : Listings}

/-- The identifier under which the server knows a definition. -/
def known? (listings : Listings) (kind : DefinitionKind) (definition : Json) : Option String :=
  (definition.textField? kind.nameKey).bind (targetId? listings kind)

/-- One definition's contribution to the replacements. -/
def note (listings : Listings) (remap : Remap) (entry : String × DefinitionKind × Json) : Remap :=
  match known? listings entry.2.1 entry.2.2 with
  | some target => if target = entry.1 then remap else remap.insert entry.1 target
  | none => remap

theorem ofListings_eq_foldl (dependents : Dependents) (listings : Listings) :
    ofListings dependents listings = dependents.foldl (note listings) [] := rfl

theorem find?_note (listings : Listings) (remap : Remap) (entry : String × DefinitionKind × Json)
    (id : String) :
    (note listings remap entry).find? id =
      if entry.1 = id then
        ((known? listings entry.2.1 entry.2.2).filter (· ≠ id)).or (remap.find? id)
      else remap.find? id := by
  unfold note
  cases known? listings entry.2.1 entry.2.2 with
  | none => simp
  | some target =>
    dsimp only
    split
    next same =>
      subst same
      split
      next here =>
        subst here
        simp [Option.filter_some]
      · rfl
    next moved =>
      rw [Table.find?_insert]
      by_cases here : entry.1 = id
      · subst here
        simp [Option.filter_some, moved]
      · rw [if_neg (Ne.symm here), if_neg here]

theorem find?_ofListings (sorted : dependents.Sorted) (listings : Listings) (id : String) :
    (ofListings dependents listings).find? id =
      (dependents.find? id).bind fun entry =>
        (known? listings entry.1 entry.2).filter (· ≠ id) := by
  rw [ofListings_eq_foldl]
  suffices general : ∀ remap : Remap, (dependents.foldl (note listings) remap).find? id =
      ((dependents.find? id).bind fun entry =>
        (known? listings entry.1 entry.2).filter (· ≠ id)).or (remap.find? id) by
    rw [general, Table.find?_nil, Option.or_none]
  induction dependents with
  | nil => intro remap; rfl
  | cons entry rest ih =>
    intro remap
    obtain ⟨below, tailSorted⟩ := List.pairwise_cons.1 sorted
    rw [List.foldl_cons, ih tailSorted, find?_note, Table.find?]
    split
    next same =>
      subst same
      rw [Table.find?_eq_none_of_lt below]
      rfl
    · rfl

theorem rename_of_mem (sorted : dependents.Sorted) (listings : Listings)
    {entry : String × DefinitionKind × Json} (member : entry ∈ dependents) :
    (ofListings dependents listings).rename entry.1 =
      (known? listings entry.2.1 entry.2.2).getD entry.1 := by
  rw [rename, find?_ofListings sorted, sorted.find?_of_mem member, Option.bind_some]
  cases known? listings entry.2.1 entry.2.2 with
  | none => rfl
  | some target =>
    by_cases same : target = entry.1
    · simp [Option.filter_some, same]
    · simp [Option.filter_some, same]

/-! ## Different definitions -/

/-- The server lists the asset. -/
def Listed (listings : Listings) (kind : DefinitionKind) (asset : RemoteAsset) : Prop :=
  ∃ assets, (kind, assets) ∈ listings ∧ asset ∈ assets

/-- On the target an identifier stands for one name of one kind. -/
def UniqueIds (listings : Listings) : Prop :=
  ∀ kind asset other twin id, Listed listings kind asset → Listed listings other twin →
    asset.id = some id → twin.id = some id → kind = other ∧ asset.name = twin.name

theorem listed_of_targetId? {kind : DefinitionKind} {name id : String}
    (found : targetId? listings kind name = some id) :
    ∃ asset, Listed listings kind asset ∧ asset.name = name ∧ asset.id = some id := by
  unfold targetId? at found
  obtain ⟨asset, isFirst, sameId⟩ := Option.bind_eq_some_iff.1 found
  have named : asset.name = name := by simpa using List.find?_some isFirst
  have member := List.mem_of_find?_eq_some isFirst
  obtain ⟨⟨other, assets⟩, inListings, inAssets⟩ := List.mem_flatMap.1 member
  obtain ⟨listed, sameKind⟩ := List.mem_filter.1 inListings
  have same : other = kind := by simpa using sameKind
  subst same
  exact ⟨asset, ⟨assets, listed, inAssets⟩, named, sameId⟩

theorem UniqueIds.same_of_known? (unique : UniqueIds listings) {kind other : DefinitionKind}
    {definition twin : Json} {id : String} (first : known? listings kind definition = some id)
    (second : known? listings other twin = some id) :
    kind = other ∧ definition.textField? kind.nameKey = twin.textField? other.nameKey := by
  obtain ⟨name, named, found⟩ := Option.bind_eq_some_iff.1 first
  obtain ⟨otherName, otherNamed, otherFound⟩ := Option.bind_eq_some_iff.1 second
  obtain ⟨asset, listed, assetName, assetId⟩ := listed_of_targetId? found
  obtain ⟨twinAsset, twinListed, twinName, twinId⟩ := listed_of_targetId? otherFound
  obtain ⟨sameKind, sameName⟩ := unique _ _ _ _ id listed twinListed assetId twinId
  refine ⟨sameKind, ?_⟩
  rw [named, otherNamed, ← assetName, ← twinName, sameName]

/-- The target knows the first definition under the identifier of the second one, and the second
one not at all. -/
def Displaces (listings : Listings) (first second : String × DefinitionKind × Json) : Prop :=
  known? listings first.2.1 first.2.2 = some second.1 ∧
    known? listings second.2.1 second.2.2 = none

instance (listings : Listings) (first second : String × DefinitionKind × Json) :
    Decidable (Displaces listings first second) :=
  inferInstanceAs (Decidable (_ ∧ _))

/-- Two accumulated definitions of different kind or name come to stand under one identifier, and
references to them fall together, exactly if one of them displaces the other. -/
theorem rename_eq_iff_displaces (batches : List (DefinitionKind × Table Json))
    (listings : Listings) (unique : UniqueIds listings)
    (first second : String × DefinitionKind × Json)
    (inFirst : first ∈ Dependents.accumulated batches)
    (inSecond : second ∈ Dependents.accumulated batches)
    (apart : first.2.1 ≠ second.2.1 ∨ first.2.2.textField? first.2.1.nameKey ≠
      second.2.2.textField? second.2.1.nameKey) :
    let remap := ofListings (Dependents.accumulated batches) listings
    (remap.rename first.1 = remap.rename second.1 ↔
      Displaces listings first second ∨ Displaces listings second first) ∧
    (remap.apply (.string first.1) = remap.apply (.string second.1) ↔
      Displaces listings first second ∨ Displaces listings second first) := by
  intro remap
  have sorted := Dependents.sorted_accumulated batches
  have different : first.1 ≠ second.1 := by
    intro same
    have found := sorted.find?_of_mem inFirst
    rw [same, sorted.find?_of_mem inSecond, Option.some.injEq] at found
    rw [found] at apart
    simp at apart
  have main : remap.rename first.1 = remap.rename second.1 ↔
      Displaces listings first second ∨ Displaces listings second first := by
    rw [rename_of_mem sorted listings inFirst, rename_of_mem sorted listings inSecond]
    unfold Displaces
    cases knownFirst : known? listings first.2.1 first.2.2 with
    | none =>
      cases knownSecond : known? listings second.2.1 second.2.2 with
      | none => simp [different]
      | some target => simp [eq_comm]
    | some target =>
      cases knownSecond : known? listings second.2.1 second.2.2 with
      | none => simp
      | some other =>
        -- Two identifiers of the target are the same only for one definition.
        have targetsDiffer : target ≠ other := by
          rintro rfl
          obtain ⟨sameKind, sameName⟩ := unique.same_of_known? knownFirst knownSecond
          rcases apart with kinds | names
          · exact kinds sameKind
          · exact names sameName
        simp [targetsDiffer]
  refine ⟨main, ?_⟩
  rw [apply, apply, Json.string.injEq]
  exact main

def symptom (id name : String) : String × DefinitionKind × Json :=
  (id, .symptom, Json.ofFields [("name", .string name)])

def twoSymptoms : List (DefinitionKind × Table Json) :=
  [(.symptom, [("1", (symptom "1" "cpu").2.2), ("2", (symptom "2" "disk").2.2)])]

def knowsFirstAs (id : String) : Listings :=
  [(.symptom, [⟨"cpu", some id, .null⟩])]

theorem accumulated_twoSymptoms :
    Dependents.accumulated twoSymptoms = [symptom "1" "cpu", symptom "2" "disk"] :=
  rfl

theorem uniqueIds_knowsFirstAs (id : String) : UniqueIds (knowsFirstAs id) := by
  rintro kind asset other twin found ⟨assets, listed, member⟩ ⟨others, twinListed, twinMember⟩ - -
  simp only [knowsFirstAs, List.mem_singleton, Prod.mk.injEq] at listed twinListed
  obtain ⟨rfl, rfl⟩ := listed
  obtain ⟨rfl, rfl⟩ := twinListed
  rw [List.mem_singleton.1 member, List.mem_singleton.1 twinMember]
  exact ⟨rfl, rfl⟩

/-- Known under an identifier that nobody has, the first symptom goes its own way. -/
theorem rename_eq_iff_displaces_twoSymptoms :
    UniqueIds (knowsFirstAs "7") ∧
      (ofListings (Dependents.accumulated twoSymptoms) (knowsFirstAs "7")).rename "1" ≠
        (ofListings (Dependents.accumulated twoSymptoms) (knowsFirstAs "7")).rename "2" := by
  refine ⟨uniqueIds_knowsFirstAs "7", ?_⟩
  intro same
  have displaced := (rename_eq_iff_displaces twoSymptoms (knowsFirstAs "7")
    (uniqueIds_knowsFirstAs "7") (symptom "1" "cpu") (symptom "2" "disk")
    (by simp [accumulated_twoSymptoms]) (by simp [accumulated_twoSymptoms])
    (Or.inr (by decide))).1.1 same
  revert displaced
  decide

/-- Known under the identifier of the second symptom, which the target does not have, the first
one takes its place. -/
theorem rename_twoSymptoms_collides :
    UniqueIds (knowsFirstAs "2") ∧
      (symptom "1" "cpu").2.2.textField? "name" ≠ (symptom "2" "disk").2.2.textField? "name" ∧
      (ofListings (Dependents.accumulated twoSymptoms) (knowsFirstAs "2")).rename "1" =
        (ofListings (Dependents.accumulated twoSymptoms) (knowsFirstAs "2")).rename "2" :=
  ⟨uniqueIds_knowsFirstAs "2", by decide, by decide⟩

end Remap

end OpsContent
