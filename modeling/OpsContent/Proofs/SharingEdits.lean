import OpsContent.Proofs.SidecarPlaces

/-!
# Sharing metadata outlives exports

A project that has sharing metadata keeps it.  No export seeds it anew, and nothing else is staged
at its place, unless a dashboard is asked for by the very name that leads there.
-/

namespace OpsContent

open OpsContent.Path Staging Export Disk Sharing Slot

variable {ρ α : Type}
variable {base : Disk} {content : Bytes} {result : ExportStats} {name : String}

/-- The way to the file in a project. -/
def Sharing.way : List String :=
  [AssetKind.dashboard.directory, Sharing.fileName]

/-- The dashboard whose file would be the metadata. -/
def Sharing.dashboardName : String := "dashboardSharingMetadata.vrops"

theorem Sharing.append_eq_fileName (same : name ++ ".json" = fileName) :
    name = dashboardName := by
  apply String.toList_inj.1
  have texts := congrArg String.toList same
  have whole : fileName = dashboardName ++ ".json" := by decide
  rw [whole, String.toList_append, String.toList_append] at texts
  exact List.append_cancel_right texts

/-! ## Workspaces without sharing metadata -/

def Sharing.sidecar : Sidecar :=
  ⟨.dashboard, fileName⟩

theorem Sharing.apart_sidecar : sidecar.Apart where
  fetched kind notDashboard := by
    cases kind with
    | dashboard => exact absurd rfl notDashboard
    | _ => decide
  queried kind isQueried name file _ := by
    have other : kind ≠ sidecar.owner := by
      rintro rfl
      cases isQueried
    exact ⟨Sidecar.differs_of_ne other _, Sidecar.differs_of_ne other _⟩

namespace Synchronizer

variable {synchronizer : Synchronizer ρ} {package : Package} {descriptor : Descriptor} {zone : Zone}

variable (fills : synchronizer.channel.Fills)
  (names : synchronizer.query.Serves fun _ name => IsPlain name)
  (patterns : ∀ kind patterns, descriptor.patterns kind = some patterns →
    ∀ pattern ∈ patterns, IsPlain pattern)
  (unasked : ∀ patterns, descriptor.patterns .dashboard = some patterns →
    dashboardName ∉ patterns)

include fills names patterns unasked

theorem keeps_exportAll (present : ∀ world : World ρ, (vacant sidecar zone).Stands world →
      world.disk.pathExists (path package.path)) :
    Keeps (vacant sidecar zone).Stands
      (exportAll (synchronizer.exportContext package zone.root) descriptor) := by
  have upholds : Upholds descriptor (synchronizer.exportContext package zone.root) _ _ _ :=
    (vacant sidecar zone).upholds apart_sidecar fills names
  refine upholds.exportKinds (fun asked isAsked name member =>
    (patterns .metricConfig asked isAsked name (List.mem_of_mem_filter member)).isEntry)
    (fun _ asked isAsked => ?_)
    (fun _ _ => keeps_files (keeps_replaceFile (by decide)
      (by decide : sidecar.Differs .policy PolicyMetadata.fileName)
      (by decide : sidecar.Differs .policy (PolicyMetadata.fileName ++ ".tmp")) _)) {}
  rw [exportDashboards_eq]
  refine .andThen (upholds.fetchDashboards fun name member description => ?_) fun count => ?_
  · have inPatterns := List.mem_of_mem_filter member
    refine keeps_exportOne fills (fun scratch fromScratch => ?_) description
    refine keeps_stageDashboard (patterns .dashboard asked isAsked name inPatterns).isEntry
      fromScratch (fun same => ?_) (by decide : sidecar.Differs .dashboard "resources")
    have isName := append_eq_fileName (List.cons.inj (List.cons.inj same).2).1
    exact unasked asked isAsked (isName ▸ inPatterns)
  · -- the project has sharing metadata, so that none is seeded
    intro world unseeded
    obtain ⟨log, ran⟩ :=
      seedSharing_apply (synchronizer.exportContext package zone.root) asked count world
    have idle : (seedIfAbsent (synchronizer.exportContext package zone.root).staging
        (synchronizer.exportContext package zone.root).package.path (literals asked)
        world.disk).2 = world.disk :=
      congrArg Prod.snd (seedIfAbsent_of_exists (present world unseeded) (literals asked))
    rw [ran, idle]
    exact ⟨unseeded.disk, unseeded.tags⟩

theorem unseeded_of_staged {world staged : World ρ}
    (made : world.Made synchronizer.scratch "vrsync-export" base)
    (present : ∀ later : World ρ, (vacant sidecar made.zone).Stands later →
      later.disk.pathExists (path package.path))
    (staging : synchronizer.stagePackage package descriptor (synchronizer.workspace world)
      (world.drawn base) = (.ok result, staged)) :
    (vacant sidecar made.zone).Stands staged ∧
      staged.disk.isDirectory (stagingIn (synchronizer.workspace world)) := by
  obtain ⟨_, opened, opening, exporting⟩ := exceptBind_ok staging
  obtain ⟨started, stood⟩ := stands_vacant sidecar made.within made.isEmptyDirectory opening
  have kept := (keeps_exportAll fills names patterns unasked present).ran started exporting
  have entry : IsEntry "vrops-export" := by decide
  exact ⟨kept, kept.disk.isDirectory started.disk.holds.current
    (List.forall_mem_singleton.2 entry) (List.prefix_refl _) stood⟩

end Synchronizer

/-! ## Exports of a project with sharing metadata -/

namespace Disk

variable {source destination project : Path} {done : List (List String)}
  {onWay : Location → Prop} {staged before after : Disk}

theorem Overlaid.touchesBelow (overlaid : Overlaid source destination done onWay staged before after)
    (off : ∀ rest, before.get? (before.place destination ++ rest) = none →
      ¬ onWay (before.place destination ++ rest)) :
    TouchesBelow destination (· ∈ done) before after := by
  have elsewhere : ∀ rest, rest ∉ done → after.get? (before.place destination ++ rest) =
      before.get? (before.place destination ++ rest) := by
    intro rest notDone
    rcases overlaid.elsewhere (before.place destination ++ rest) (fun way member same =>
      notDone (List.append_cancel_left same ▸ member)) with same | ⟨free, -, on⟩
    · exact same
    · exact absurd on (off rest free)
  refine ⟨overlaid.current, fun _ => overlaid.stands, elsewhere, fun rest stands => ?_⟩
  by_cases member : rest ∈ done
  · obtain ⟨entries, node, found, -, reached⟩ := overlaid.reached rest member
    have directory := (overlaid.sorts rest member .directory stands).1 rfl
    rw [get?_of_listed? entries found] at directory
    have here := get?_of_node? reached
    rw [place_extend _ _ entries, place_congr overlaid.current] at here
    rw [here, directory]
  · rw [elsewhere rest member, stands]

theorem TouchesBelow.readFile_sharing {touched : Location → Prop}
    (touches : TouchesBelow project touched before after)
    (stands : before.isDirectory project) (free : ¬ touched way)
    (held : before.readFile (path project) = .ok content) :
    after.readFile (path project) = .ok content := by
  rw [readFile_eq_ok_iff] at held ⊢
  have kind : IsEntry AssetKind.dashboard.directory := by decide
  have dashboards : before.isDirectory (project.join AssetKind.dashboard.directory) :=
    isDirectory_of_node?_join (by decide) (pieces_join_ne_blank project kind) held
  have same : after.node? (project.extend Sharing.way) = before.node? (project.extend Sharing.way) := by
    apply touches.node?_extend stands (by decide)
    intro beginning notEmpty isPrefix
    have early : beginning <+: [AssetKind.dashboard.directory] ++ [fileName] := isPrefix
    rcases List.prefix_concat_iff.1 early with whole | earlier
    · exact .inl (whole ▸ free)
    · obtain rfl : beginning = [AssetKind.dashboard.directory] := by
        rcases List.prefix_cons_iff.1 earlier with empty | ⟨rest, rfl, last⟩
        · exact absurd empty notEmpty
        · rw [List.prefix_nil.1 last]
      rw [← place_join _ _ kind]
      exact .inr (isDirectory_iff.1 dashboards).2.2
  exact same.trans held

end Disk

namespace Synchronizer

variable {synchronizer : Synchronizer ρ} {package : Package} {descriptor : Descriptor}
  {dryRun : Bool} {world : World ρ} {staged : World ρ}

/-- An export whose outcome is left open: it may be a dry one, it may fail, and it may ask for
anything but the dashboard that would take the place of the sharing metadata.  The workspace is new,
and not in the project. -/
structure SparesSharing (synchronizer : Synchronizer ρ) (package : Package)
    (descriptor : Descriptor) (dryRun : Bool) (world : World ρ) : Prop where
  fills : synchronizer.channel.Fills
  names : synchronizer.query.Serves fun _ name => IsPlain name
  patterns : ∀ kind patterns, descriptor.patterns kind = some patterns →
    ∀ pattern ∈ patterns, IsPlain pattern
  fresh : world.Fresh synchronizer.scratch "vrsync-export"
  passes : world.disk.PassesBy package.path synchronizer.scratch
  notBlank : package.path.pieces ≠ [""]
  unasked : ∀ patterns, descriptor.patterns .dashboard = some patterns →
    Sharing.dashboardName ∈ patterns → dryRun = true ∨ ∃ cause,
      (synchronizer.staged package descriptor world).1 = .error cause

theorem not_brought_way {made : world.Made synchronizer.scratch "vrsync-export" base}
    (unseeded : (vacant sidecar made.zone).Stands staged) {project : Path} {after : Disk} :
    ¬ Brought (stagingIn (synchronizer.workspace world)) project staged.disk after way := by
  rintro ⟨entries, node, found, -⟩
  have here := get?_of_listed? entries found
  have place : staged.disk.place (stagingIn (synchronizer.workspace world)) =
      made.zone.top ++ ["vrops-export"] := by
    rw [stagingIn, place_join _ _ (by decide), place_congr unseeded.disk.holds.current]
    rfl
  rw [place, List.append_assoc] at here
  have absent : staged.disk.get? (made.zone.top ++ (["vrops-export"] ++ way)) = none :=
    unseeded.disk.kept
  exact absurd (absent.symm.trans here) (by simp)

theorem SparesSharing.readFile_of_staged
    (spares : synchronizer.SparesSharing package descriptor false world)
    (succeeds : (synchronizer.staged package descriptor world).1 = .ok stats)
    (stands : world.disk.isDirectory package.path)
    (making : makeDirectories (synchronizer.workspace world) world.disk = (.ok (), base))
    (staging : synchronizer.stagePackage package descriptor (synchronizer.workspace world)
      (world.drawn base) = (.ok result, staged))
    (held : world.disk.readFile (path package.path) = .ok content) :
    (synchronizer.exportPackage package descriptor false world).2.disk.readFile
      (path package.path) = .ok content := by
  obtain ⟨fills, names, patterns, fresh, passes, -, unasked⟩ := spares
  have made := fresh.made making
  have others : ∀ patterns, descriptor.patterns .dashboard = some patterns →
      dashboardName ∉ patterns := by
    intro asked isAsked member
    rcases unasked asked isAsked member with dry | ⟨cause, failed⟩
    · cases dry
    · rw [succeeds] at failed
      cases failed
  -- the workspace is beside the project, whose metadata keeps the staging from seeding any
  have present : ∀ later : World ρ, (vacant sidecar made.zone).Stands later →
      later.disk.pathExists (path package.path) := by
    intro later unseeded
    have touches := (made.touchesBelow stands passes).trans
      (unseeded.within.disk.touchesBelow (made.beside stands passes))
    have kept := readFile_eq_ok_iff.1 (touches.readFile_sharing stands id held)
    rw [pathExists, kept]
    rfl
  obtain ⟨unseeded, isTree⟩ :=
    unseeded_of_staged fills names patterns others made present staging
  obtain ⟨overlaid, -⟩ :=
    overlaid_exportPackage made stands passes staging unseeded.within isTree
  have touches := overlaid.touchesBelow <| by
    intro rest free onWay
    have outside := passes.outside_of_onWay stands onWay free
    rw [isBelow_append] at outside
    cases outside
  exact touches.readFile_sharing stands (fun laid => not_brought_way unseeded
    (overlaid.reached _ laid)) held

theorem SparesSharing.readFile_exportPackage
    (spares : synchronizer.SparesSharing package descriptor dryRun world)
    (held : world.disk.readFile (path package.path) = .ok content) :
    (synchronizer.exportPackage package descriptor dryRun world).2.disk.readFile
      (path package.path) = .ok content := by
  have found : world.disk.node? (package.path.extend Sharing.way) = some (.file content) :=
    readFile_eq_ok_iff.1 held
  have stands : world.disk.isDirectory package.path :=
    isDirectory_of_node?_extend (by decide) (by decide) spares.notBlank found
  have restored : (synchronizer.staged package descriptor world).2.disk.readFile
      (path package.path) = .ok content :=
    ((opensOnly_staged spares.fills.toConfined
      (Descriptor.namesFit_of_isPlain spares.names spares.patterns)
      spares.fresh).touchesBelow spares.passes).readFile_sharing stands id held
  cases dryRun with
  | true =>
    rw [exportPackage_dryRun]
    exact restored
  | false =>
    rcases synchronizer.exportPackage_beside_dryRun package descriptor world with
      ⟨-, -, same⟩ | ⟨stats, done, -⟩
    · rw [same]
      exact restored
    · obtain ⟨base, staged, made, staging, -⟩ := withScratch_ok (Prod.ext done rfl)
      exact spares.readFile_of_staged done stands made staging held

/-- One more export of a project. -/
def ExportsOnce (project : Path) (world after : World ρ) : Prop :=
  ∃ (synchronizer : Synchronizer ρ) (package : Package) (descriptor : Descriptor) (dryRun : Bool),
    package.path = project ∧ synchronizer.SparesSharing package descriptor dryRun world ∧
      after = (synchronizer.exportPackage package descriptor dryRun world).2

/-- Sharing metadata that was edited by hand survives every export.  Whatever servers the project is
exported from, however often and with whatever outcomes, the file keeps its bytes.  Only a dashboard
whose name leads to the file itself must not be staged. -/
theorem sharingEdits_survive {project : Path} {content : Bytes} {world after : World ρ}
    (held : world.disk.readFile (Sharing.path project) = .ok content)
    (exports : Relation.ReflTransGen (ExportsOnce project) world after) :
    after.disk.readFile (Sharing.path project) = .ok content := by
  induction exports with
  | refl => exact held
  | tail _ once kept =>
    obtain ⟨synchronizer, package, descriptor, dryRun, rfl, spares, rfl⟩ := once
    exact spares.readFile_exportPackage kept

/-! ## A project with edited sharing metadata -/

def editedSharing : Bytes :=
  Bytes.ofText "\x7b\"share\":\x7b\"Ops\":[\"admins\"]\x7d,\"unshare\":\x7b\x7d\x7d"

/-- A project with that metadata. -/
def editedWorld : World Scripted.Memory where
  disk := { current := [], nodes := [(["work"], .directory),
    (["work", AssetKind.dashboard.directory], .directory),
    (["work", AssetKind.dashboard.directory, Sharing.fileName], .file editedSharing)] }
  site := { tags := fun _ => "0", remote := {} }

/-- A server that exports two dashboards. -/
def dashboardServer : Synchronizer Scripted.Memory where
  query := Scripted.Answers.query {}
  channel := Scripted.Behaviour.channel { exports := [
    ("dashboard:Ops", [("Ops.zip", some (Zip.write [("dashboard/dashboard.json", [49])]))]),
    ("dashboard:" ++ Sharing.dashboardName, [(Sharing.dashboardName ++ ".zip",
      some (Zip.write [("dashboard/dashboard.json", [50])]))])] }
  scratch := ⟨true, ["tmp"]⟩

def dashboardDescriptor (name : String) : Descriptor := Descriptor.set {} .dashboard [name]

theorem exportsOnce_dashboardServer : ExportsOnce bareProject.path editedWorld
    (dashboardServer.exportPackage bareProject (dashboardDescriptor "Ops") false editedWorld).2 := by
  have fills : dashboardServer.channel.Fills :=
    Scripted.Behaviour.fills _ (Scripted.staysWithin_of_isEntry (by decide))
  have fresh : editedWorld.Fresh dashboardServer.scratch "vrsync-export" :=
    .of_nodes (fun _ => (by decide : '/' ∉ "0".toList)) (by decide) (by decide)
      (by decide)
  have passes : editedWorld.disk.PassesBy bareProject.path dashboardServer.scratch :=
    passesBy_iff.2 (by decide)
  refine ⟨dashboardServer, bareProject, _, false, rfl,
    ⟨fills, ?_, ?_, fresh, passes, by decide, ?_⟩, rfl⟩
  · exact Scripted.Answers.serves _ (by decide) (by decide) (by decide) (by simp) (by simp) (by simp)
  · exact Descriptor.forall_asked (by decide)
  · rintro patterns ⟨⟩ member
    exact absurd member (by decide)

/-- The metadata survives the export, and the dashboard has come beside it. -/
theorem sharingEdits_survive_dashboardServer :
    editedWorld.disk.readFile (Sharing.path bareProject.path) = .ok editedSharing ∧
      (dashboardServer.exportPackage bareProject (dashboardDescriptor "Ops") false
        editedWorld).2.disk.readFile ⟨true, ["work", "dashboards", "Ops.json"]⟩ = .ok [49] ∧
      (dashboardServer.exportPackage bareProject (dashboardDescriptor "Ops") false
        editedWorld).2.disk.readFile (Sharing.path bareProject.path) = .ok editedSharing := by
  have held : editedWorld.disk.readFile (Sharing.path bareProject.path) = .ok editedSharing := by
    decide
  exact ⟨held, by decide +kernel, sharingEdits_survive held (.single exportsOnce_dashboardServer)⟩

/-- The dashboard whose name leads to the metadata takes its place. -/
theorem sharingEdits_overwritten :
    editedWorld.disk.readFile (Sharing.path bareProject.path) = .ok editedSharing ∧
      IsPlain Sharing.dashboardName ∧
      (dashboardServer.exportPackage bareProject (dashboardDescriptor Sharing.dashboardName) false
        editedWorld).1 = .ok { assets := [("dashboard", 1)], written := true } ∧
      (dashboardServer.exportPackage bareProject (dashboardDescriptor Sharing.dashboardName) false
        editedWorld).2.disk.readFile (Sharing.path bareProject.path) = .ok [50] := by
  decide +kernel

end Synchronizer

end OpsContent
