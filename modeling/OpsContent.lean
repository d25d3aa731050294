import OpsContent.Main
import OpsContent.Proofs.BuiltArchives
import OpsContent.Proofs.ChannelRoundTrip
import OpsContent.Proofs.ChannelSessions
import OpsContent.Proofs.DefinitionNames
import OpsContent.Proofs.DryImports
import OpsContent.Proofs.ExportConfinement
import OpsContent.Proofs.ExportSelection
import OpsContent.Proofs.InterruptedCopies
import OpsContent.Proofs.LayeredSettings
import OpsContent.Proofs.MatchedAssets
import OpsContent.Proofs.MergedLines
import OpsContent.Proofs.PackageNames
import OpsContent.Proofs.PushStages
import OpsContent.Proofs.QueryRoundTrip
import OpsContent.Proofs.SelectedLines
import OpsContent.Proofs.SelectedNames
import OpsContent.Proofs.SharingCalls
import OpsContent.Proofs.PolicySidecars
import OpsContent.Proofs.SharingEdits
import OpsContent.Proofs.ShellSessions
import OpsContent.Proofs.ShellWords
import OpsContent.Proofs.Substitution
import OpsContent.Proofs.TreeOverlays
import OpsContent.Proofs.ViewGrammar
