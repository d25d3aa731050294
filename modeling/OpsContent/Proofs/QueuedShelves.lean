import OpsContent.Proofs.LocalAssets
import OpsContent.Proofs.QueuedFiles

/-!
# Queued shelves

What an import queues for a package with shelves are the files of the assets on them, each asset in
a file of its own that carries its content.
-/

namespace OpsContent

open OpsContent.Path Disk Staging

variable {ρ : Type}

namespace Import

variable {context : Context ρ} {pending : ρ → List Ssh.Pending} {disk : Disk} {kind : ChannelKind}
  {name : String} {assets : String → Option Bytes}

theorem sourceNames_eq (context : Context ρ) (disk : Disk) (kind : ChannelKind) :
    sourceNames context disk kind = disk.assetNames context.staging kind.assetKind := by
  cases kind <;> rfl

section

variable {assets : ChannelKind → String → Option Bytes} {world after : World ρ}
  (named : world.disk.NamedBelow (world.disk.place context.staging))
  (shelves : ∀ kind, Shelf kind.assetKind.shelving (context.directory kind.assetKind) (assets kind)
    world.disk)
  (notEmpty : ∀ kind name, (assets kind name).isSome → name ≠ "")

include named shelves notEmpty

end

end Import

end OpsContent
