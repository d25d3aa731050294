import OpsContent.Proofs.ExportedProjects

/-!
# Shelves of a project

A stock of deliveries has the assets of every kind on a shelf, if each of them has a content.  An
export into an empty project leaves these shelves there.
-/

namespace OpsContent

open OpsContent.Path Disk

variable {ρ : Type}

theorem Delivery.isSome_assets_iff {added : List Delivery} {kind : AssetKind} {name : String}
    (whole : ∀ delivery ∈ added, delivery.kind = kind → delivery.content?.isSome) :
    (assets added kind name).isSome ↔
      ∃ delivery ∈ added, delivery.kind = kind ∧ delivery.name = name := by
  constructor
  · intro found
    obtain ⟨content, holds⟩ := Option.isSome_iff_exists.1 found
    obtain ⟨delivery, member, isKind, isName, -⟩ := mem_of_assets holds
    exact ⟨delivery, member, isKind, isName⟩
  · rintro ⟨delivery, member, rfl, rfl⟩
    have found : (added.reverse.find? fun other =>
        other.kind = delivery.kind ∧ other.name = delivery.name).isSome :=
      List.find?_isSome.2 ⟨delivery, by simp [member], by simp⟩
    obtain ⟨last, isLast⟩ := Option.isSome_iff_exists.1 found
    have same := List.find?_some isLast
    rw [decide_eq_true_eq] at same
    rw [assets, isLast]
    exact whole last (List.mem_reverse.1 (List.mem_of_find?_eq_some isLast)) same.1

namespace Export.Context.Stock

variable {context : Context ρ} {asked : AssetKind → Bool} {added : List Delivery} {disk : Disk}

theorem shelf (stock : context.Stock asked added disk) {kind : AssetKind}
    (allowed : ∀ delivery ∈ added, delivery.kind = kind → kind.Allows delivery.name)
    (whole : ∀ delivery ∈ added, delivery.kind = kind → delivery.content?.isSome) :
    Shelf kind.shelving (context.shelfOf kind) (Delivery.assets added kind) disk := by
  refine ⟨?_, ?_, ?_, stock.held kind⟩
  · intro name isAsset
    obtain ⟨delivery, member, rfl, rfl⟩ := (Delivery.isSome_assets_iff whole).1 isAsset
    exact delivery.kind.isEntry_entry (stock.plain delivery member)
  · intro entry node found counts
    rw [place_shelfOf, List.append_assoc] at found
    have stocked := stock.only _ node found
    rw [List.singleton_append] at stocked
    generalize isPlace : kind.directory :: [entry] = place at stocked
    cases stocked with
    | root => cases isPlace
    | directory => simp at isPlace
    | @beside other rest isAsked isBeside =>
      obtain ⟨sameDirectory, rfl⟩ := List.cons.inj isPlace
      obtain rfl := AssetKind.directory_injective sameDirectory
      rw [show kind.shelving.counts entry node = kind.counts entry node from rfl,
        AssetKind.counts_beside isBeside] at counts
      cases counts
    | @part delivery rest isAsked member hasPart =>
      obtain ⟨sameDirectory, rfl⟩ := List.cons.inj isPlace
      obtain rfl := AssetKind.directory_injective sameDirectory
      obtain ⟨_, same⟩ := hasPart.head
      exact ⟨delivery.name, (Delivery.isSome_assets_iff whole).2 ⟨delivery, member, rfl, rfl⟩,
        (List.cons.inj same).1⟩
  · intro name isAsset
    obtain ⟨delivery, member, rfl, rfl⟩ := (Delivery.isSome_assets_iff whole).1 isAsset
    obtain ⟨node, found, sort⟩ := stock.stands delivery member
    exact ⟨node, found, AssetKind.counts_entry (allowed delivery member rfl) sort⟩

end Export.Context.Stock

namespace Synchronizer

open Export

variable {synchronizer : Synchronizer ρ} {package : Package} {descriptor : Descriptor}
  {log : ρ → List Delivery} {offer : Offer}

end Synchronizer

end OpsContent
