import OpsContent.Remote.Channel
import OpsContent.Remote.Query
import OpsContent.Stats

/-!
# The setting of an import

One package, unpacked in a staging directory, is pushed to one server.
-/

namespace OpsContent.Import

/-- What the stages of an import work with. -/
structure Context (ρ : Type) where
  query : Query ρ
  channel : Channel ρ
  package : Package
  staging : Path
  /-- Queue files without submitting them, and push nothing. -/
  dryRun : Bool

/-- The directory of a kind in the unpacked package. -/
def Context.directory {ρ : Type} (context : Context ρ) (kind : AssetKind) : Path :=
  context.staging.join kind.directory

end OpsContent.Import
