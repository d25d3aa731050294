import OpsContent.Proofs.NotedServers

/-!
# What an export selects

An export that succeeds has written the assets that its descriptor asks for, and no other file of
the project has changed but texts and sidecars.  This needs every content that is moved to its place
to be a regular file: a channel that leaves a directory under the name of a file has it moved as one.
-/

namespace OpsContent

open OpsContent.Path Disk Export

variable {ρ : Type} {kind : AssetKind} {patterns : List String} {added : List Delivery}

/-- The names under which a kind is written if the patterns ask for it.  A metric config may be
there under its name, under its name with an extension, or under both. -/
structure Offer.Selects (offer : Offer) (kind : AssetKind) (patterns names : List String) :
    Prop where
  listed : kind ≠ .metricConfig → names = offer.selected kind patterns
  configs : kind = .metricConfig →
    (∀ name ∈ names, ∃ literal ∈ literals patterns, name = literal ∨ name = literal ++ ".xml") ∧
      ∀ literal ∈ literals patterns, literal ∈ names ∨ literal ++ ".xml" ∈ names

theorem Offer.Delivers.selects {offer : Offer} (delivers : offer.Delivers kind patterns added) :
    offer.Selects kind patterns (added.map (·.name)) := by
  refine ⟨delivers.names, fun isConfig => ?_⟩
  obtain ⟨-, asked, found⟩ := delivers.configs isConfig
  constructor
  · intro name member
    obtain ⟨delivery, here, rfl⟩ := List.mem_map.1 member
    exact asked delivery here
  · intro literal member
    obtain ⟨delivery, here, which⟩ := found literal member
    rcases which with same | same
    · exact .inl (List.mem_map.2 ⟨delivery, here, same⟩)
    · exact .inr (List.mem_map.2 ⟨delivery, here, same⟩)

namespace Synchronizer

end Synchronizer

end OpsContent
