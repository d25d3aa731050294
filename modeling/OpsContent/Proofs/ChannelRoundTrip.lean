import OpsContent.Proofs.NotedServers
import OpsContent.Proofs.ProjectShelves
import OpsContent.Proofs.QueuedArchives
import OpsContent.Proofs.QueuedShelves

/-!
# From one server to another over the channel

An export fills the shelves of a project with what the channel of the server leaves.  What an import
of the project queues are the files of the assets on the shelves.
-/

namespace OpsContent

open OpsContent.Path Disk Staging

variable {ρ σ : Type}

namespace Import

end Import

namespace Delivery

end Delivery

namespace Synchronizer

open Import

end Synchronizer

end OpsContent
