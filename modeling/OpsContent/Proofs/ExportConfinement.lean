import OpsContent.Proofs.ExportEscapes

/-!
# Exports are confined to the project

Whatever an export comes to, it changes nothing outside of the project, as long as the names it
asks for stay inside the workspace.  Names are joined to directories unchecked, so that a name
which climbs further takes the export elsewhere.
-/

namespace OpsContent

open OpsContent.Path Staging Disk

variable {ρ : Type}

namespace World

variable {world : World ρ} {parent project : Path} {stem : String} {base : Disk}

section

variable (made : world.Made parent stem base)

theorem Made.mem_top : world.nextName stem ∈ made.zone.top := by
  simp [made.top_zone]

theorem Made.isEntry_of_listed (elsewhere : world.nextName stem ∉ project.pieces)
    {staged disk : Disk} (holds : made.zone.Holds staged)
    (grows : Disk.GrowsBelow project staged disk) {source : Path}
    (encloses : made.zone.Encloses 0 source) {names : List String}
    (listed : disk.listNames source = .ok names) : ∀ name ∈ names, IsEntry name := by
  intro name member
  have notCurrent : world.nextName stem ∉ staged.current := by
    rw [holds.current]
    exact made.opens.current ▸ made.current
  obtain ⟨rest, -, -, placed⟩ := encloses.reached (grows.current.trans holds.current)
  have stands := isSome_of_mem_listNames listed member
  rw [placed, List.append_assoc] at stands
  have inTop := made.mem_top
  rcases grows.appears _ stands with stood | onWay | ⟨more, entries, whole⟩
  · exact holds.entries _ stood name (by simp)
  · exact absurd (by simp [inTop]) (notMem_of_onWay notCurrent elsewhere onWay)
  · rcases List.eq_nil_or_concat more with rfl | ⟨fewer, last, rfl⟩
    · rw [List.append_nil] at whole
      have onWay := onWay_place staged project
      rw [← whole] at onWay
      exact absurd (by simp [inTop]) (notMem_of_onWay notCurrent elsewhere onWay)
    · have same : name = last := by
        have ends := congrArg List.getLast? whole
        simpa using ends
      exact entries name (by simp [same])

theorem Made.copyRules (elsewhere : world.nextName stem ∉ project.pieces) {staged : Disk}
    (holds : made.zone.Holds staged) :
    Disk.CopyRules (Disk.GrowsBelow project staged) fun source destination =>
      made.zone.Encloses 0 source ∧ Disk.LeadsBelow project destination := by
  refine (growthRules project staged).copyRules ?_
  intro source disk names reads grows listed name member
  have proper := made.isEntry_of_listed elsewhere holds grows reads listed name member
  exact ⟨proper, reads.join proper.staysWithin⟩

/-- When the workspace is removed from a disk on which the project has grown, nothing but the
project and the ways to it and to the workspace has changed. -/
theorem Made.removeBelow_of_grows {staged disk : Disk} (holds : made.zone.Holds staged)
    (grows : Disk.GrowsBelow project staged disk) :
    Disk.OpensOutside (world.disk.place project)
      (fun location => world.disk.OnWay parent location ∨ world.disk.OnWay project location)
      world.disk (disk.removeBelow made.zone.top) := by
  intro location outside
  have current : staged.current = world.disk.current :=
    holds.current.trans made.opens.current
  rw [← place_congr current] at outside
  refine made.opens_removeBelow holds ?_
  rcases grows.outside location outside with same | ⟨onWay, new⟩
  · exact .inl same
  · exact .inr ⟨onWay_congr current onWay, new⟩

end

/-- Work that keeps to its scratch directory and then makes a project grow changes nothing
elsewhere. -/
theorem Fresh.opensOutside_withScratch {α : Type} {work : Path → Sync ρ α}
    (fresh : world.Fresh parent stem) (entry : IsEntry (world.nextName stem))
    (kept : ∀ base (made : world.Made parent stem base), ∃ staged, made.zone.Holds staged ∧
      Disk.GrowsBelow project staged
        (work (parent.join (world.nextName stem)) (world.drawn base)).2.disk) :
    Disk.OpensOutside (world.disk.place project)
      (fun location => world.disk.OnWay parent location ∨ world.disk.OnWay project location)
      world.disk (withScratch parent stem work world).2.disk := by
  rw [withScratch_apply]
  cases making : makeDirectories (parent.join (world.nextName stem)) world.disk with
  | mk outcome base =>
    cases outcome with
    | error cause =>
      exact (makeDirectories_error making).outside _ fun location above =>
        Or.inl (onWay_of_above entry above)
    | ok _ =>
      have made : world.Made parent stem base := ⟨fresh, entry, making⟩
      obtain ⟨staged, holds, grows⟩ := kept base made
      have stands := isDirectory_of_directories grows.current
        (fun location _ => grows.directories location) holds.isDirectory_root
      have removed := made.removeScratch_zone (grows.current.trans holds.current) stands
      dsimp only
      rw [removed]
      exact made.removeBelow_of_grows holds grows

end World

namespace Synchronizer

theorem grows_of_copy {world : World ρ} {parent project : Path} {stem : String} {base : Disk}
    (made : world.Made parent stem base)
    (elsewhere : world.nextName stem ∉ project.pieces) {staged : World ρ}
    (holds : made.zone.Holds staged.disk) (stats : ExportStats) :
    Disk.GrowsBelow project staged.disk ((do
      World.files (copyTree (stagingIn (parent.join (world.nextName stem))) project)
      pure { stats with written := true } : Sync ρ ExportStats) staged).2.disk := by
  have staging : made.zone.Encloses 1 (stagingIn (parent.join (world.nextName stem))) :=
    made.zone.encloses_root.joinEntry (by decide)
  have copied := (made.copyRules elsewhere holds).keeps_copyTree
    ⟨staging.mono (Nat.zero_le 1), Or.inl rfl⟩ staged.disk
    (Disk.GrowsBelow.refl project staged.disk)
  rw [exceptBind_apply]
  unfold World.files World.onDisk
  cases ran : copyTree (stagingIn (parent.join (world.nextName stem))) project staged.disk with
  | mk outcome after =>
    rw [ran] at copied
    cases outcome with
    | error cause => exact copied
    | ok _ => exact copied

/-- An export is confined if the names it asks for do not lead out of the workspace.  Whatever it
comes to, nothing has changed outside of the project but directories on the way to it and to the
scratch directories, and after a dry run nothing at all but the latter.  No wider condition on
names will do: a dry run that succeeds for a single definition, written to where nothing stood, is
confined only if its name stays inside. -/
theorem exportPackage_confined (synchronizer : Synchronizer ρ) (package : Package)
    (descriptor : Descriptor) (world : World ρ) (confined : synchronizer.channel.Confined)
    (fresh : world.Fresh synchronizer.scratch "vrsync-export") :
    (descriptor.NamesFit synchronizer.query →
      world.nextName "vrsync-export" ∉ package.path.pieces →
      (∀ dryRun, Disk.OpensOutside (world.disk.place package.path)
        (fun location => world.disk.OnWay synchronizer.scratch location ∨
          world.disk.OnWay package.path location)
        world.disk (synchronizer.exportPackage package descriptor dryRun world).2.disk) ∧
      Disk.OpensOnly (world.disk.OnWay synchronizer.scratch) world.disk
        (synchronizer.exportPackage package descriptor true world).2.disk) ∧
    ∀ name stats, world.nextName "vrsync-export" ∉ (ofText (name ++ ".json")).pieces →
      world.disk.get? (world.disk.place (symptomFile
        (synchronizer.scratch.join (world.nextName "vrsync-export")) name)) = none →
      ((synchronizer.offering name).exportPackage package symptomDescriptor true world).1 =
        .ok stats →
      (Disk.OpensOnly (world.disk.OnWay synchronizer.scratch) world.disk
          ((synchronizer.offering name).exportPackage package symptomDescriptor true world).2.disk ↔
        AssetKind.symptomDefinition.Fits name) := by
  refine ⟨?_, fun name stats => opensOnly_offering_iff confined fresh⟩
  intro fit elsewhere
  have entry := fresh.isEntry (by decide) (by decide)
  have rehearsed : Disk.OpensOnly (world.disk.OnWay synchronizer.scratch) world.disk
      (synchronizer.exportPackage package descriptor true world).2.disk := by
    rw [exportPackage_dryRun]
    exact opensOnly_staged confined fit fresh
  refine ⟨?_, rehearsed⟩
  intro dryRun
  cases dryRun with
  | true => exact rehearsed.outside _ fun location => Or.inl
  | false =>
    apply fresh.opensOutside_withScratch entry
    intro base made
    have worked : made.zone.Within (synchronizer.stagePackage package descriptor
        (synchronizer.scratch.join (world.nextName "vrsync-export")) (world.drawn base)).2 :=
      keeps_stagePackage confined fit made.zone _ made.within
    rw [exceptBind_apply]
    cases ran : synchronizer.stagePackage package descriptor
        (synchronizer.scratch.join (world.nextName "vrsync-export")) (world.drawn base) with
    | mk outcome staged =>
      rw [ran] at worked
      refine ⟨staged.disk, worked.disk, ?_⟩
      cases outcome with
      | error cause => exact Disk.GrowsBelow.refl _ _
      | ok stats => exact grows_of_copy made elsewhere worked.disk stats

/-- A name may climb out of the staging directory, if it does not climb out of the workspace. -/
theorem exportPackage_confined_offering :
    AssetKind.symptomDefinition.Fits "../../memory" ∧
      Disk.OpensOutside (bareWorld.disk.place bareProject.path)
        (fun location => bareWorld.disk.OnWay damagedServer.scratch location ∨
          bareWorld.disk.OnWay bareProject.path location)
        bareWorld.disk ((damagedServer.offering "../../memory").exportPackage bareProject
          symptomDescriptor false bareWorld).2.disk ∧
      ¬ AssetKind.symptomDefinition.Fits "../../../memory" ∧
      ¬ Disk.OpensOnly (bareWorld.disk.OnWay damagedServer.scratch) bareWorld.disk
        ((damagedServer.offering "../../../memory").exportPackage bareProject symptomDescriptor
          true bareWorld).2.disk := by
  have fits : AssetKind.symptomDefinition.Fits "../../memory" := by decide
  have tooFar : ¬ AssetKind.symptomDefinition.Fits "../../../memory" := by decide
  have fresh := fresh_bareWorld damagedServer.scratch (by decide)
  have sameChannel : (damagedServer.offering "../../memory").channel.Confined :=
    confined_damagedServer
  have inside := (exportPackage_confined (damagedServer.offering "../../memory") bareProject
    symptomDescriptor bareWorld sameChannel fresh).1 (namesFit_offering fits) (by decide)
  have needed := (exportPackage_confined damagedServer bareProject symptomDescriptor bareWorld
    confined_damagedServer fresh).2 "../../../memory"
      (({} : ExportStats).add .symptomDefinition 1) (by decide) (by decide)
      (by decide +kernel)
  exact ⟨fits, inside.1 false, tooFar, fun opens => tooFar (needed.1 opens)⟩

/-- A name that climbs one level further is written next to the workspace, and one that climbs
two levels further to the root, even on a dry run. -/
theorem exportPackage_dryRun_escapes :
    ((damagedServer.offering "../../../escaped").exportPackage bareProject symptomDescriptor true
        bareWorld).2.disk.get? ["tmp", "escaped.json"] = some (.file (Bytes.ofText "null")) ∧
      Disk.isBelow (bareWorld.disk.place bareProject.path) ["escaped.json"] = false ∧
      bareWorld.disk.get? ["escaped.json"] = none ∧
      ((damagedServer.offering "../../../../escaped").exportPackage bareProject symptomDescriptor
        true bareWorld).2.disk.get? ["escaped.json"] = some (.file (Bytes.ofText "null")) := by
  decide +kernel

end Synchronizer

end OpsContent
