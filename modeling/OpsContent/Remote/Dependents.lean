import OpsContent.Asset

/-!
# Dependent definitions

Definitions refer to each other by identifier. While the kinds are pushed one after another,
every definition pushed so far is kept under its identifier, so that references to it can be
resolved later in the same run.
-/

namespace OpsContent

/-- Definitions by identifier that later ones may refer to. -/
abbrev Dependents := Table (DefinitionKind × Json)

namespace Dependents

/-- Add the definitions of a kind. -/
def extend (dependents : Dependents) (kind : DefinitionKind) (definitions : Table Json) :
    Dependents :=
  definitions.foldl (fun table entry => table.insert entry.1 (kind, entry.2)) dependents

/-- The kinds that occur, in import order. -/
def kinds (dependents : Dependents) : List DefinitionKind :=
  DefinitionKind.importOrder.filter fun kind => dependents.any fun entry => entry.2.1 == kind

end Dependents

end OpsContent
