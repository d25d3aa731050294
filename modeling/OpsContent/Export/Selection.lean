import OpsContent.Pattern
import OpsContent.World

/-!
# Which names an export asks for

Where the server has a listing, the patterns select from it. Dashboards and metric configs have
none, so only literal names can be asked for.
-/

namespace OpsContent.Export

variable {ρ : Type}

/-- The listed names that match a pattern. An empty listing is a failure. -/
def matchedNames (kind : AssetKind) (listed : List Listing) (patterns : List String) :
    Except SyncError (List String) :=
  if listed.isEmpty then .error (.emptyManifest kind)
  else .ok (Pattern.select patterns (listed.map (·.name)))

/-- The patterns that are plain names. -/
def literals (patterns : List String) : List String :=
  patterns.filter fun pattern => !Pattern.isWildcard pattern

/-- Say that wildcards are of no use for the kind. -/
def warnOfWildcards (kind : AssetKind) (patterns : List String) : StateM (Site ρ) Unit :=
  (patterns.filter Pattern.isWildcard).forM fun pattern =>
    Site.warn ("Unable to export " ++ kind.label ++ " with pattern '" ++ pattern ++
      "': the server export does not support patterns")

end OpsContent.Export
