import OpsContent.Proofs.DependentDefinitions

/-!
# Dry imports

A dry import is the beginning of an import: the package is unpacked and its files are queued, and
then the channel is cleaned up.  So it makes no call that has an effect on the server, and an import
from the same state does exactly what the dry one did before it does anything else.
-/

namespace OpsContent

variable {ρ α : Type}

/-! ## Queueing, and what comes behind it -/

namespace Import

theorem enqueueEach_dryRun (context : Context ρ) (dryRun : Bool) (kind : ChannelKind)
    (stats : ImportStats) (values : List Path) :
    enqueueEach { context with dryRun } kind (build kind) stats values =
      enqueueEach context kind (build kind) stats values := by
  induction values generalizing stats with
  | nil => rfl
  | cons source rest ih => exact bind_congr fun file => bind_congr fun stats => ih stats

theorem enqueueKinds_dryRun (context : Context ρ) (dryRun : Bool) (stats : ImportStats)
    (kinds : List ChannelKind) :
    enqueueKinds { context with dryRun } stats kinds = enqueueKinds context stats kinds := by
  induction kinds generalizing stats with
  | nil => rfl
  | cons kind rest ih =>
    refine bind_congr fun disk => ?_
    rw [enqueueEach_dryRun context dryRun kind stats]
    exact bind_congr fun stats => ih stats

/-! ## Statistics -/

/-- Files were queued, and nothing else was done. -/
structure OnlyQueued (stats : ImportStats) : Prop where
  submitted : stats.submitted = false
  pushed : stats.pushed = []
  shared : stats.shared = 0
  unshared : stats.unshared = 0

variable {context : Context ρ}

theorem queued_deliver (stats : ImportStats) :
    Yields (deliver context stats) (·.queued = stats.queued) :=
  KeptByDelivery.deliver ⟨fun _ same => same, fun _ _ _ same => same, fun _ _ same => same,
    fun _ _ same => same⟩ rfl

end Import

/-! ## Calls -/

def Call.isQueueing : Call → Bool
  | .enqueue .. => true
  | _ => false

/-- The calls made since are good. -/
def Traced.Adds (before : List Call) (good : Call → Prop) (traced : Traced ρ) : Prop :=
  ∃ made, traced.calls = before ++ made ∧ ∀ call ∈ made, good call

namespace Traced

variable {before : List Call} {good : Call → Prop}

theorem adds_refl (traced : Traced ρ) (good : Call → Prop) : traced.Adds traced.calls good :=
  ⟨[], (List.append_nil _).symm, by simp⟩

theorem keeps_answer_good {call : Call} (isGood : good call) (step : StateM (Site ρ) α) :
    Keeps (World.Has (Adds before good)) (World.onSite (answer call step)) := by
  rintro world ⟨made, calls, holds⟩
  refine ⟨made ++ [call], ?_, fun other member => ?_⟩
  · change world.site.remote.calls ++ [call] = _
    rw [calls, List.append_assoc]
  · rcases List.mem_append.1 member with early | last
    · exact holds other early
    · rw [List.mem_singleton.1 last]
      exact isGood

theorem calls_tidy (channel : Channel ρ) (world : World (Traced ρ)) :
    ((Traced.channel channel).tidy world).2.site.remote.calls =
      world.site.remote.calls ++ [.cleanup] := by
  let cleaned (traced : Traced ρ) : Prop :=
    traced.calls = world.site.remote.calls ++ [.cleanup]
  have leads : Leads (fun between => between = world) (World.Has cleaned)
      (World.onSite (Traced.channel channel).cleanup) := by
    rintro _ rfl
    rfl
  exact Leads.tidy (World.Has.ignoresLog cleaned) leads world rfl

end Traced

namespace Import

variable (context : Context ρ) (before : List Call)

theorem keeps_enqueueKinds_traced (stats : ImportStats) (kinds : List ChannelKind) :
    Keeps (World.Has (Traced.Adds before (Call.isQueueing ·)))
      (enqueueKinds context.traced stats kinds) := by
  refine keeps_enqueueKinds (World.Has.ignoresLog _)
    (fun world kind _ source _ => ⟨?_, fun disk => ?_⟩) stats kinds
  · exact (SparesServer.build kind source).keeps
  · exact Traced.keeps_answer_good (by rfl) _

theorem keeps_deliver_traced (stats : ImportStats) :
    Keeps (World.Has (Traced.Adds before (Call.isQueueing · = false)))
      (deliver context.traced stats) := by
  let adds (traced : Traced ρ) : Prop := traced.Adds before (Call.isQueueing · = false)
  have ignores : IgnoresLog (World.Has adds) := World.Has.ignoresLog _
  have answered : ∀ {call : Call} {β : Type} (step : StateM (Site ρ) β),
      call.isQueueing = false → Keeps (World.Has adds) (World.onSite (Traced.answer call step)) :=
    fun step other => Traced.keeps_answer_good other step
  have frames : context.traced.channel.Frames (World.Has adds) (World.Has adds) (World.Has adds)
      (World.Has adds) := .of_keeps (answered _ rfl) (answered _ rfl)
  refine .andThen ?_ fun stats => ?_
  · exact leads_submit ignores ignores (fun _ holds => holds) (fun _ => frames)
      (fun world => answered context.channel.importFiles rfl world) stats
  refine .andThen ?_ fun stats => ?_
  · exact keeps_pushDefinitions ignores (fun _ _ _ => answered _ rfl) stats
  refine .andThen ?_ fun stats => ?_
  · exact keeps_pushPolicies ignores (fun _ _ _ => answered _ rfl) stats
  refine .andThen ?_ fun stats => ?_
  · exact keeps_pushGroups ignores (fun _ _ _ => answered _ rfl) stats
  exact keeps_applySharing ignores ignores frames (fun _ => answered _ rfl)
    (fun _ _ => answered _ rfl) (fun _ _ => answered _ rfl) stats

end Import

/-! ## Imports of packages -/

namespace Synchronizer

open Staging Disk Import

/-- The beginning of an import: the package is unpacked and its files are queued. -/
def queuePackage (synchronizer : Synchronizer ρ) (package : Package) : Sync ρ ImportStats := do
  let staging ← synchronizer.unpackPackage package
  Import.enqueueKinds (synchronizer.importContext package false staging) {} ChannelKind.all

theorem sparesServer_unpackPackage (synchronizer : Synchronizer ρ) (package : Package) :
    SparesServer (synchronizer.unpackPackage package) := by
  refine .of_keeps fun server => ?_
  have files : ∀ {β : Type} (steps : DiskAction β),
      Keeps (World.Has (· = server)) (World.files steps) :=
    fun steps world same => (SparesServer.files steps world).trans same
  refine .andThen (files _) fun _ => ?_
  refine .andThen (fun _ same => same) fun name => ?_
  refine .andThen (files _) fun _ => ?_
  refine .andThen (fun world same => ?_) fun _ => .succeed _
  exact (SparesServer.unpack _ _ world).trans same

variable {synchronizer : Synchronizer ρ} {package : Package}

theorem importPackage_of_unpackPackage_error {cause : SyncError} {world failed : World ρ}
    (done : synchronizer.unpackPackage package world = (.error cause, failed)) :
    ∃ after, after.site.remote = world.site.remote ∧
      ∀ dryRun, synchronizer.importPackage package dryRun world = (.error cause, after) := by
  have spared : failed.site.remote = world.site.remote := by
    have same := synchronizer.sparesServer_unpackPackage package world
    rwa [done] at same
  obtain failing | ⟨_, opened, opening, done⟩ := exceptBind_error done
  · exact ⟨failed, spared, fun _ => exceptBind_of_error failing⟩
  obtain failing | ⟨name, drawn, drawing, done⟩ := exceptBind_error done
  · cases failing
  obtain failing | ⟨_, based, making, done⟩ := exceptBind_error done
  · refine ⟨failed, spared, fun dryRun => ?_⟩
    rw [importPackage, exceptBind_of_ok opening, withScratch, exceptBind_of_ok drawing,
      exceptBind_of_error failing]
  obtain failing | ⟨_, last, _, done⟩ := exceptBind_error done
  · refine ⟨(removeScratch ((synchronizer.scratch.join "vrops-import").join name) failed).2,
      (remote_removeScratch _ _).trans spared, fun dryRun => ?_⟩
    rw [importPackage, exceptBind_of_ok opening, withScratch, exceptBind_of_ok drawing,
      exceptBind_of_ok making, World.concluding, exceptBind_of_error failing]
    rfl
  · cases done

section

variable {staging : Path} {world unpacked between : World ρ}
  (done : synchronizer.unpackPackage package world = (.ok staging, unpacked))

include done

theorem importPackage_of_importAll {dryRun : Bool} {outcome : Except SyncError ImportStats}
    (imported : importAll (synchronizer.importContext package dryRun staging) unpacked =
      (outcome, between)) :
    synchronizer.importPackage package dryRun world =
      (outcome, (removeScratch staging (synchronizer.channel.tidy between).2).2) := by
  rw [importPackage_of_unpackPackage done, World.concluding, imported]
  rfl

theorem importPackage_of_queueing_error {cause : SyncError}
    (queueing : enqueueKinds (synchronizer.importContext package false staging) {}
      ChannelKind.all unpacked = (.error cause, between)) (dryRun : Bool) :
    synchronizer.importPackage package dryRun world =
      (.error cause, (removeScratch staging (synchronizer.channel.tidy between).2).2) := by
  apply importPackage_of_importAll done
  rw [importAll_eq_deliver]
  apply exceptBind_of_error
  rw [← queueing]
  exact congrFun (enqueueKinds_dryRun (synchronizer.importContext package false staging)
    dryRun {} ChannelKind.all) unpacked

/-- A dry import stops where the other delivers. -/
theorem importPackage_of_queueing {stats : ImportStats}
    (queueing : enqueueKinds (synchronizer.importContext package false staging) {}
      ChannelKind.all unpacked = (.ok stats, between)) :
    synchronizer.importPackage package true world =
        (.ok stats, (removeScratch staging (synchronizer.channel.tidy between).2).2) ∧
      ∀ outcome last,
        deliver (synchronizer.importContext package false staging) stats between =
            (outcome, last) →
          synchronizer.importPackage package false world =
            (outcome, (removeScratch staging (synchronizer.channel.tidy last).2).2) := by
  constructor
  · apply importPackage_of_importAll done
    rw [importAll_eq_deliver]
    refine exceptBind_of_ok (Eq.trans ?_ queueing)
    exact congrFun (enqueueKinds_dryRun (synchronizer.importContext package false staging)
      true {} ChannelKind.all) unpacked
  · intro outcome last delivered
    apply importPackage_of_importAll done
    rw [importAll_eq_deliver, exceptBind_of_ok queueing]
    exact delivered

end

/-- A dry import has no effect on the server and predicts the import.  For every package, server
and channel, an import makes the calls that queue its files and then other calls.  A dry one makes
the same calls to queue files, with the same paths and contents, and then at most cleans up the
channel.  Its outcome is that of queueing: it counts nothing else, an error of queueing is the error
of the import, and an import that succeeds has queued what the dry one says. -/
theorem importPackage_dryRun_predicts (synchronizer : Synchronizer ρ) (package : Package)
    (world : World (Traced ρ)) :
    let before := world.site.remote.calls
    let queued := synchronizer.traced.queuePackage package world
    let dry := synchronizer.traced.importPackage package true world
    let real := synchronizer.traced.importPackage package false world
    (∃ queueing ending later : List Call,
      queued.2.site.remote.calls = before ++ queueing ∧
      dry.2.site.remote.calls = before ++ queueing ++ ending ∧
      real.2.site.remote.calls = before ++ queueing ++ later ∧
      (∀ call ∈ queueing, call.isQueueing = true) ∧ (ending = [] ∨ ending = [.cleanup]) ∧
      ∀ call ∈ later, call.isQueueing = false) ∧
    dry.1 = queued.1 ∧
    (∀ cause, queued.1 = .error cause → real = dry) ∧
    ∀ stats, queued.1 = .ok stats → Import.OnlyQueued stats ∧
      ∀ result, real.1 = .ok result → result.queued = stats.queued := by
  intro before queued dry real
  have spared := synchronizer.traced.sparesServer_unpackPackage package world
  cases unpacking : synchronizer.traced.unpackPackage package world with
  | mk outcome unpacked =>
  rw [unpacking] at spared
  cases outcome with
  | error cause =>
    obtain ⟨after, same, failed⟩ := importPackage_of_unpackPackage_error unpacking
    have isQueued : queued = (.error cause, unpacked) := exceptBind_of_error unpacking
    have isDry : dry = (.error cause, after) := failed true
    have isReal : real = (.error cause, after) := failed false
    have calls : after.site.remote.calls = before := congrArg Traced.calls same
    rw [isQueued, isDry, isReal]
    refine ⟨⟨[], [], [], ?_, ?_, ?_, ?_⟩, rfl, fun _ _ => rfl, fun stats done => ?_⟩
    · simpa using congrArg Traced.calls spared
    · simpa using calls
    · simpa using calls
    · simp
    · cases done
  | ok staging =>
    let context := synchronizer.importContext package false staging
    have start : unpacked.site.remote.calls = before := congrArg Traced.calls spared
    have queueingOnly := Import.keeps_enqueueKinds_traced context before {} ChannelKind.all
      unpacked (start ▸ unpacked.site.remote.adds_refl _)
    cases queueing : Import.enqueueKinds context.traced {} ChannelKind.all unpacked with
    | mk outcome between =>
    rw [queueing] at queueingOnly
    obtain ⟨calls, made, areQueueing⟩ := queueingOnly
    have isQueued : queued = (outcome, between) := (exceptBind_of_ok unpacking).trans queueing
    have ended : (removeScratch staging (synchronizer.traced.channel.tidy
        between).2).2.site.remote.calls = before ++ calls ++ [.cleanup] := by
      rw [remote_removeScratch, ← made]
      exact Traced.calls_tidy synchronizer.channel between
    rw [isQueued]
    cases outcome with
    | error cause =>
      have same := importPackage_of_queueing_error unpacking queueing
      have isDry : dry = _ := same true
      have isReal : real = _ := same false
      rw [isDry, isReal]
      refine ⟨⟨calls, [.cleanup], [.cleanup], made, ended, ended, areQueueing, Or.inr rfl, ?_⟩,
        rfl, fun _ _ => rfl, fun stats done => by cases done⟩
      simp [Call.isQueueing]
    | ok stats =>
      obtain ⟨isDry, isReal⟩ := importPackage_of_queueing unpacking queueing
      have isDry : dry = _ := isDry
      have others := Import.keeps_deliver_traced context (before ++ calls) stats between
        (made ▸ between.site.remote.adds_refl _)
      cases delivering : Import.deliver context.traced stats between with
      | mk result last =>
      rw [delivering] at others
      obtain ⟨more, whole, areOthers⟩ := others
      have isReal : real = _ := isReal result last delivering
      have calledAll : (removeScratch staging (synchronizer.traced.channel.tidy
          last).2).2.site.remote.calls = before ++ calls ++ (more ++ [.cleanup]) := by
        rw [remote_removeScratch, ← List.append_assoc, ← whole]
        exact Traced.calls_tidy synchronizer.channel last
      rw [isDry, isReal]
      refine ⟨⟨calls, [.cleanup], more ++ [.cleanup], made, ended, calledAll, areQueueing,
        Or.inr rfl, ?_⟩, rfl, ?_, ?_⟩
      · intro call member
        rcases List.mem_append.1 member with early | isLast
        · exact areOthers call early
        · rw [List.mem_singleton.1 isLast]
          rfl
      · intro cause failed
        cases failed
      · rintro _ ⟨⟩
        refine ⟨Import.yields_enqueueKinds (fun _ _ _ only =>
          ⟨only.submitted, only.pushed, only.shared, only.unshared⟩) ⟨rfl, rfl, rfl, rfl⟩ _ _ _ _
          queueing, ?_⟩
        rintro _ rfl
        exact Import.queued_deliver stats _ _ _ delivering

end Synchronizer

end OpsContent
