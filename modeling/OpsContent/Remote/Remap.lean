import OpsContent.Remote.Dependents

/-!
# Identifiers on the target

A definition that the target already has is known there under an identifier of its own. The
definitions of a package are matched by kind and name, and every reference to one of them is
replaced by the identifier on the target.
-/

namespace OpsContent

/-- New identifiers by old ones. -/
abbrev Remap := Table String

namespace Remap

abbrev Listings := List (DefinitionKind × List RemoteAsset)

/-- The identifier of the first listed asset of a kind and name. -/
def targetId? (listings : Listings) (kind : DefinitionKind) (name : String) : Option String := do
  let assets := (listings.filter (·.1 == kind)).flatMap Prod.snd
  let asset ← assets.find? (·.name == name)
  asset.id

/-- Identifiers of all definitions that are known under another one on the target. -/
def ofListings (dependents : Dependents) (listings : Listings) : Remap :=
  dependents.foldl (fun remap (id, kind, definition) =>
    match (definition.textField? kind.nameKey).bind (targetId? listings kind) with
    | some target => if target = id then remap else remap.insert id target
    | none => remap) []

/-- The new identifier, or the old one if there is none. -/
def rename (remap : Remap) (id : String) : String :=
  (remap.find? id).getD id

mutual

/-- Replace every text and key that is an identifier. -/
def apply (remap : Remap) : Json → Json
  | .string text => .string (remap.rename text)
  | .array items => .array (applyItems remap items)
  | .object fields => .object (applyFields remap [] fields)
  | value => value

def applyItems (remap : Remap) : List Json → List Json
  | [] => []
  | item :: rest => apply remap item :: applyItems remap rest

/-- Replace identifiers in the fields of an object, a later field winning over an earlier one
of the same new key. -/
def applyFields (remap : Remap) (done : Table Json) : List (String × Json) → Table Json
  | [] => done
  | (key, value) :: rest =>
    applyFields remap (done.insert (remap.rename key) (apply remap value)) rest

end

end Remap

end OpsContent
