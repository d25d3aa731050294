import OpsContent.Proofs.ExportEscapes
import OpsContent.Proofs.NotedServers

/-!
# Copies that break off

The last step of an export copies what is staged over the project, node after node.  The first node
without a place ends it, and the nodes before it stay.  So an export that fails there leaves the
project as it was exactly if it has met nothing new.
-/

namespace OpsContent.Synchronizer

open OpsContent.Path Disk

variable {ρ : Type}

end OpsContent.Synchronizer
