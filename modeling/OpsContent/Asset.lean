import OpsContent.Json.Shape
import OpsContent.Text.Blank

/-!
# Kinds of assets

Content of ten kinds moves between a project and a server. Three of the kinds are
definitions, which refer to each other by identifier and are pushed in an order that puts a
definition behind those it refers to.
-/

namespace OpsContent

/-- The kinds of content that a package can hold. -/
inductive AssetKind where
  | view
  | dashboard
  | report
  | alertDefinition
  | symptomDefinition
  | recommendation
  | policy
  | customGroup
  | superMetric
  | metricConfig
  deriving DecidableEq, Repr

namespace AssetKind

def all : List AssetKind :=
  [.view, .dashboard, .report, .alertDefinition, .symptomDefinition, .recommendation, .policy,
    .customGroup, .superMetric, .metricConfig]

/-- The name of a kind in descriptors and statistics. -/
def key : AssetKind → String
  | .view => "view"
  | .dashboard => "dashboard"
  | .report => "report"
  | .alertDefinition => "alertDefinition"
  | .symptomDefinition => "symptomDefinition"
  | .recommendation => "recommendation"
  | .policy => "policy"
  | .customGroup => "customGroup"
  | .superMetric => "superMetric"
  | .metricConfig => "metricConfig"

/-- The directory of a project that holds the kind. -/
def directory : AssetKind → String
  | .view => "views"
  | .dashboard => "dashboards"
  | .report => "reports"
  | .alertDefinition => "alert_definitions"
  | .symptomDefinition => "symptom_definitions"
  | .recommendation => "recommendations"
  | .policy => "policies"
  | .customGroup => "custom_groups"
  | .superMetric => "supermetrics"
  | .metricConfig => "metricconfigs"

/-- The kind in words, in the plural. -/
def label : AssetKind → String
  | .view => "views"
  | .dashboard => "dashboards"
  | .report => "reports"
  | .alertDefinition => "alert definitions"
  | .symptomDefinition => "symptom definitions"
  | .recommendation => "recommendations"
  | .policy => "policies"
  | .customGroup => "custom groups"
  | .superMetric => "super metrics"
  | .metricConfig => "metric configs"

/-- The kind of a key. -/
def ofKey? (name : String) : Option AssetKind :=
  all.find? fun kind => kind.key == name

theorem ofKey?_key (kind : AssetKind) : ofKey? kind.key = some kind := by
  cases kind <;> decide

theorem directory_injective {left right : AssetKind} (equal : left.directory = right.directory) :
    left = right := by
  cases left <;> cases right <;> first | rfl | (revert equal; decide)

/-- Read a kind from its name; a name may also stand as the only key of an object with null. -/
def read : JsonDraft → Except JsonError AssetKind
  | .string name => named name
  | .object [(name, value)] none => do
      let kind ← named name
      match value with
      | .null => pure kind
      | other => other.mismatch "unit"
  | .object _ none => .error (.invalidValue .map "map with a single key")
  | draft => draft.mismatch "string or map"
where
  /-- The kind of a name, or the list of names that are known. -/
  named (name : String) : Except JsonError AssetKind :=
    match ofKey? name with
    | some kind => .ok kind
    | none => .error (.unknownVariant name (all.map key))

end AssetKind

/-- The kinds of definitions that refer to each other. -/
inductive DefinitionKind where
  | symptom
  | recommendation
  | alert
  deriving DecidableEq, Repr

namespace DefinitionKind

/-- Alerts come last, since they refer to the others. -/
def importOrder : List DefinitionKind :=
  [.symptom, .recommendation, .alert]

def assetKind : DefinitionKind → AssetKind
  | .symptom => .symptomDefinition
  | .recommendation => .recommendation
  | .alert => .alertDefinition

def key (kind : DefinitionKind) : String :=
  kind.assetKind.key

/-- The field that a definition is known by. -/
def nameKey : DefinitionKind → String
  | .recommendation => "description"
  | _ => "name"

def ofAssetKind? : AssetKind → Option DefinitionKind
  | .symptomDefinition => some .symptom
  | .recommendation => some .recommendation
  | .alertDefinition => some .alert
  | _ => none

@[simp] theorem ofAssetKind?_assetKind (kind : DefinitionKind) :
    ofAssetKind? kind.assetKind = some kind := by
  cases kind <;> rfl

end DefinitionKind

/-- An asset as the query interface gives it. -/
structure RemoteAsset where
  name : String
  id : Option String
  content : Json

namespace RemoteAsset

/-- A name that is not blank. -/
def usableName? (value : Option Json) : Option String := do
  let name ← (← value).text?
  if Text.isAbsent name then none else some name

/-- A definition, if it has a name. -/
def ofDefinition? (kind : DefinitionKind) (content : Json) : Option RemoteAsset := do
  let name ← usableName? (content.field? kind.nameKey)
  some { name, id := content.textField? "id", content }

/-- A custom group, if it has a name. -/
def ofCustomGroup? (content : Json) : Option RemoteAsset := do
  let name ← usableName? ((← content.field? "resourceKey").field? "name")
  some { name, id := content.textField? "id", content }

end RemoteAsset

/-- An asset in a listing of its kind. -/
structure Listing where
  id : Option String
  name : String
  deriving DecidableEq

/-- A policy in a listing. -/
structure PolicySummary where
  id : String
  name : String
  deriving DecidableEq

end OpsContent
