import OpsContent.Metadata.Policy
import OpsContent.Remote.Dependents

/-!
# The query interface

What is exchanged with the server as data: listings, definitions, custom groups, policies and
the names of user groups. The actions are typed over the site, so none of them touches a file.
-/

namespace OpsContent

abbrev QueryAction (ρ : Type) := SiteAction ρ RemoteError

/-- A server as the query interface shows it. -/
structure Query (ρ : Type) where
  listViews : QueryAction ρ (List Listing)
  listReports : QueryAction ρ (List Listing)
  listSuperMetrics : QueryAction ρ (List Listing)
  listPolicies : QueryAction ρ (List PolicySummary)
  policyContent : PolicySummary → QueryAction ρ Bytes
  listCustomGroups : QueryAction ρ (List RemoteAsset)
  listDefinitions : DefinitionKind → QueryAction ρ (List RemoteAsset)
  /-- Create or update definitions by identifier, knowing all that were pushed so far. -/
  importDefinitions : DefinitionKind → Table Json → Dependents → QueryAction ρ Unit
  /-- Create or update a custom group, knowing the policies of the package. -/
  importCustomGroup : String → Json → PolicyMetadata → QueryAction ρ Unit
  /-- Upload the archive of a policy, over an existing one if the flag is set. -/
  importPolicy : String → Bytes → Bool → QueryAction ρ Unit
  /-- Those of the user groups that exist on the server. -/
  findGroups : List String → QueryAction ρ (List String)

/-- A step of the query interface as part of an export or import. -/
def Query.ask {ρ α : Type} (step : QueryAction ρ α) : Sync ρ α := fun world =>
  match World.onSite step world with
  | (.ok value, world) => (.ok value, world)
  | (.error cause, world) => (.error (.remote cause), world)

end OpsContent
