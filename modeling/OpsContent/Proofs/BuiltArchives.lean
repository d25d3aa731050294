import Mathlib.Data.List.Forall2
import OpsContent.Proofs.QueuedArchives

/-!
# Building archives

An archive that is built holds the content of its source and, of each property file beside it, the
texts that belong to the source.  A build that fails leaves the disk as it is.
-/

namespace OpsContent

open OpsContent.Path Disk List

variable {ρ α : Type} {disk : Disk} {directory path : Path} {content : Bytes} {key : String}
  {β : Type}

namespace Staging

variable {layout : Layout}

section

variable {name : String} {entries : List (String × Bytes)} {world after : World ρ}
  {cause : SyncError} (stands : world.disk.isDirectory directory) (entry : IsEntry name)

include stands entry

end

end Staging

namespace Import

open Staging

/-- The resource files of an asset. -/
def textsOf : ChannelKind → Path → String → Path
  | .report, directory, name => (directory.join name).join "resources"
  | _, directory, _ => directory.join "resources"

/-- What the keys of the texts of a source start with. -/
def keyOf (disk : Disk) : ChannelKind → Path → Except SyncError String
  | .view, source => ("view." ++ ·) <$> viewId disk source
  | .dashboard, source => .ok source.baseName
  | _, source => .ok (source.fileName?.getD "")

/-- An archive stands beside its source, a view or dashboard is gone, and the rest is as before. -/
structure Replaced (kind : ChannelKind) (directory : Path) (name : String) (bytes : Bytes)
    (before after : Disk) : Prop where
  archived : after.readFile (directory.join (queuedName kind name)) = .ok bytes
  gone : kind ≠ .report → after.pathExists (directory.join name) = false
  others : ∀ location, location ≠ before.place directory ++ [queuedName kind name] →
    kind = .report ∨ location ≠ before.place directory ++ [name] →
      after.get? location = before.get? location

section

variable {kind : ChannelKind} {layout : Layout} {directory : Path} {name : String}
  {before between after : World ρ} {content : Bytes} {texts : List (String × Bytes)}
  (stands : before.disk.isDirectory directory) (entry : IsEntry name)

include stands entry

end

section

variable {kind : ChannelKind} {layout : Layout} {directory : Path} {name : String}
  {disk after : Disk} {bytes : Bytes}

theorem queuedName_ne_resources (isArchive : kind = .view ∨ kind = .dashboard) :
    queuedName kind name ≠ "resources" := by
  intro same
  have last := congrArg (fun text => text.toList.getLast?) same
  rcases isArchive with rfl | rfl <;> simp [queuedName] at last

/-- The texts beside a source stay. -/
theorem Replaced.texts (replaced : Replaced kind directory name bytes disk after)
    (entry : IsEntry name) (isArchived : layoutOf kind = some layout)
    (held : disk.readFile (contentFile kind (directory.join name)) = .ok content)
    (stands : disk.isDirectory (textsOf kind directory name)) (rest : Location) :
    after.get? (disk.place (textsOf kind directory name) ++ rest) =
      disk.get? (disk.place (textsOf kind directory name) ++ rest) := by
  have resources : IsEntry "resources" := by decide
  by_cases isReport : kind = .report
  · subst isReport
    refine replaced.others _ (fun same => ?_) (.inl rfl)
    rw [textsOf, place_join _ _ resources, place_join _ _ entry, append_assoc,
      append_assoc] at same
    have lengths := congrArg List.length (append_cancel_left same)
    simp at lengths
  · have isArchive : kind = .view ∨ kind = .dashboard := by
      cases kind <;> simp_all [layoutOf]
    have place : disk.place (textsOf kind directory name) = disk.place directory ++ ["resources"] := by
      rcases isArchive with rfl | rfl <;> exact place_join disk directory resources
    have isSource : disk.get? (disk.place directory ++ [name]) = some (.file content) := by
      rw [← place_join disk directory entry]
      rcases isArchive with rfl | rfl <;> exact get?_of_node? (readFile_eq_ok_iff.1 held)
    rw [isDirectory_iff, place] at stands
    rw [place, append_assoc]
    refine replaced.others _ (fun same => ?_) (.inr fun same => ?_)
    · exact queuedName_ne_resources isArchive (List.cons.inj (append_cancel_left same)).1.symm
    · have isName : "resources" = name := (List.cons.inj (append_cancel_left same)).1
      rw [isName, isSource] at stands
      cases stands.2.2

end

section

variable {kind : ChannelKind} {layout : Layout} {directory : Path} {name : String}
  {before after : World ρ} (isArchived : layoutOf kind = some layout) (ends : directory.EndsInName)
  (stands : before.disk.isDirectory directory) (named : before.disk.WellNamed) (entry : IsEntry name)

include isArchived ends stands named entry

end

end Import

end OpsContent
