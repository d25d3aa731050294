import OpsContent.Descriptor
import OpsContent.Export.Commands
import OpsContent.Export.Queries
import OpsContent.Stats

/-!
# Exporting what a descriptor asks for

The kinds are exported one after another, and the first that fails ends the export.
-/

namespace OpsContent.Export

variable {ρ : Type}

/-- Export the assets of a kind. There is a count unless nothing could be asked for. -/
def exportKind (context : Context ρ) (kind : AssetKind) (patterns : List String) :
    Sync ρ (Option Nat) :=
  match kind with
  | .view => some <$> exportListed context .view context.query.listViews stageView patterns
  | .dashboard => some <$> exportDashboards context patterns
  | .report => some <$> exportListed context .report context.query.listReports stageReport patterns
  | .alertDefinition => some <$> exportDefinitions context .alert patterns
  | .symptomDefinition => some <$> exportDefinitions context .symptom patterns
  | .recommendation => some <$> exportDefinitions context .recommendation patterns
  | .policy => some <$> exportPolicies context patterns
  | .customGroup => exportCustomGroups context patterns
  | .superMetric =>
    some <$> exportListed context .superMetric context.query.listSuperMetrics stageSuperMetric
      patterns
  | .metricConfig => exportMetricConfigs context patterns

/-- Export the kinds that a descriptor mentions, and count their assets. -/
def exportKinds (context : Context ρ) (descriptor : Descriptor) :
    ExportStats → List AssetKind → Sync ρ ExportStats
  | stats, [] => pure stats
  | stats, kind :: rest => do
      match descriptor.patterns kind with
      | none => exportKinds context descriptor stats rest
      | some patterns =>
        match ← exportKind context kind patterns with
        | some count => exportKinds context descriptor (stats.add kind count) rest
        | none => exportKinds context descriptor stats rest

/-- Export everything that a descriptor asks for. -/
def exportAll (context : Context ρ) (descriptor : Descriptor) : Sync ρ ExportStats :=
  exportKinds context descriptor {} AssetKind.all

end OpsContent.Export
