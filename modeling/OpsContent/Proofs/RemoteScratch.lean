import OpsContent.Proofs.ServerSteps
import OpsContent.Remote.Recorder

/-!
# Scratch data on the server

Over a secure shell a connection makes a scratch directory on the server, and cleaning up removes
it only while the channel is connected.  An import cleans up when its sessions are closed, so
no import that has connected removes the directory.
-/

/-! ## Calls over a secure shell -/

namespace OpsContent.Ssh

variable {ρ : Type}

theorem importScript_eq (directory : String) {pending : List Pending} (queued : pending ≠ []) :
    ∃ rest, importScript directory pending = tool ++ rest := by
  cases pending with
  | nil => exact absurd rfl queued
  | cons first others =>
    obtain ⟨command, begins⟩ : ∃ rest,
        importCommand first.kind (remoteFile directory first) = tool ++ rest := by
      simp only [importCommand, String.append_assoc]
      exact ⟨_, rfl⟩
    rw [importScript, List.map_cons, begins]
    cases others with
    | nil => exact ⟨command, String.intercalate_singleton⟩
    | cons second rest =>
      rw [String.intercalate_cons_of_ne_nil (by simp)]
      exact ⟨_, by rw [String.append_assoc, String.append_assoc]⟩

/-- The property of a channel is kept by every program that a call of an import runs. -/
structure KeptByPrograms (address : Address) (launcher : Launcher ρ) (property : State ρ → Prop) :
    Prop where
  directories : ∀ operation words, Keeps (Site.Has property)
    (run launcher operation (address.command ("mkdir -p " ++ words)))
  uploads : ∀ operation files place, Keeps (Site.Has property)
    (run launcher operation (address.upload files place))
  tools : ∀ operation words, Keeps (Site.Has property)
    (run launcher operation (address.command (tool ++ words)))

theorem keeps_ensureConnected (property : State ρ → Prop) (operation : String) :
    Keeps (Site.Has property) (ensureConnected operation) := by
  refine .andThen (fun _ holds => holds) fun current => ?_
  split
  · exact .fail _
  · exact .succeed ()

namespace KeptByPrograms

variable {address : Address} {launcher : Launcher ρ} {property : State ρ → Prop}
  (kept : KeptByPrograms address launcher property)

include kept

theorem uploadAll (place : String) (pending : List Pending) (kinds : List ChannelKind) :
    Keeps (Site.Has property) (Ssh.uploadAll address launcher place pending kinds) := by
  induction kinds with
  | nil => exact .succeed ()
  | cons kind rest ih => exact .andThen (kept.uploads _ _ _) fun _ => ih

theorem importFiles : Keeps (Site.Has property) (Ssh.importFiles address launcher) := by
  refine .andThen (keeps_ensureConnected property _) fun _ => ?_
  refine .andThen (fun _ holds => holds) fun current => ?_
  dsimp only
  split
  next queued =>
    have notEmpty : current.pending ≠ [] := by simpa using queued
    obtain ⟨rest, script⟩ := importScript_eq current.directory notEmpty
    refine .andThen (kept.directories _ _) fun _ => ?_
    refine .andThen (kept.uploadAll _ _ _) fun _ => ?_
    rw [script]
    exact .andThen (kept.tools _ rest) fun _ => .succeed ()
  · exact .succeed ()

theorem sharing (action name : String) (groups : List String) :
    Keeps (Site.Has property) (Ssh.sharing address launcher action name groups) := by
  refine .andThen (keeps_ensureConnected property _) fun _ => ?_
  simp only [sharingCommand, String.append_assoc]
  exact .andThen (kept.tools _ _) fun _ => .succeed ()

end KeptByPrograms

end OpsContent.Ssh

namespace OpsContent

namespace Ssh

variable {ρ α : Type} {invocation : Invocation}

/-! ## Recorded programs -/

/-- A launcher that keeps what is noted of its programs and their outcomes. -/
def noting {ε : Type} (entry : Invocation → Outcome → ε) (launcher : Launcher ρ) :
    Launcher (Recorded ε ρ) := fun invocation recorded =>
  let (outcome, server) := launcher invocation recorded.server
  (outcome, { record := recorded.record ++ [entry invocation outcome], server })

/-- A launcher that records the programs. -/
def recording (launcher : Launcher ρ) : Launcher (Recorded Invocation ρ) :=
  noting (fun invocation _ => invocation) launcher

def behind : Part (State (Recorded Invocation ρ)) ρ where
  get := fun state => state.server.server
  set := fun server state => { state with server := { state.server with server } }

/-- The command that makes the directory on the server. -/
def creation (address : Address) (directory : String) : Invocation :=
  address.command ("mkdir -p " ++ Shell.quote directory)

/-- The command that removes it. -/
def removal (address : Address) (directory : String) : Invocation :=
  address.command ("rm -rf " ++ Shell.quote directory)

/-! ## No other program removes the directory -/

theorem command_ne_removal (address : Address) (directory : String) {text : String} {first : Char}
    (starts : text.toList.head? = some first) (other : first ≠ 'r') :
    address.command text ≠ removal address directory := by
  intro same
  have arguments := congrArg Invocation.arguments same
  simp only [Address.command, removal, List.append_cancel_left_eq, List.cons.injEq, true_and,
    and_true] at arguments
  rw [arguments, String.toList_append] at starts
  exact other (Option.some.inj starts).symm

theorem upload_ne_removal (address : Address) (directory : String) (files : List Path)
    (place : String) : address.upload files place ≠ removal address directory := by
  intro same
  have program : "scp" = "ssh" := congrArg Invocation.program same
  exact absurd program (by decide)

theorem creation_ne_removal (address : Address) (directory other : String) :
    creation address other ≠ removal address directory :=
  command_ne_removal address directory (by rw [String.toList_append]; rfl)
    (by decide : 'm' ≠ 'r')

theorem tool_ne_removal (address : Address) (directory rest : String) :
    address.command (tool ++ rest) ≠ removal address directory :=
  command_ne_removal address directory (by rw [String.toList_append]; rfl)
    (by decide : '/' ≠ 'r')

/-! ## What is launched -/

/-- The channel still uses the scratch directory, the record goes on from the given one, and what
was launched since is good for a channel that is connected or not. -/
def Ran (directory : String) (before : List Invocation) (good : Bool → List Invocation → Prop)
    (state : State (Recorded Invocation ρ)) : Prop :=
  state.directory = directory ∧
    ∃ more, state.server.record = before ++ more ∧ good state.connected more

variable {address : Address} {launcher : Launcher ρ} {directory : String}
  {before : List Invocation} {good better : Bool → List Invocation → Prop}

theorem leads_launch
    (implies : ∀ connected more, good connected more →
      better connected more ∧ better connected (more ++ [invocation])) :
    Leads (Site.Has (Ran directory before good)) (Site.Has (Ran directory before better))
      (launch (recording launcher) invocation) := by
  rintro site ⟨same, more, launched, holds⟩
  obtain ⟨asBefore, withIt⟩ := implies _ _ holds
  unfold launch
  split
  · refine ⟨same, more ++ [invocation], ?_, withIt⟩
    change site.remote.server.record ++ [invocation] = _
    rw [launched, List.append_assoc]
  · exact ⟨same, more, launched, asBefore⟩

theorem leads_run (operation : String)
    (implies : ∀ connected more, good connected more →
      better connected more ∧ better connected (more ++ [invocation])) :
    Leads (Site.Has (Ran directory before good)) (Site.Has (Ran directory before better))
      (run (recording launcher) operation invocation) := by
  refine .andThen (leads_launch implies) (fun _ holds => holds) fun outcome => ?_
  split
  · exact Keeps.succeed _
  · exact Keeps.fail _

def Unremoved (address : Address) (directory : String) (_ : Bool) (more : List Invocation) : Prop :=
  removal address directory ∉ more

theorem Unremoved.concat {connected : Bool} {more : List Invocation}
    (unremoved : Unremoved address directory connected more)
    (other : invocation ≠ removal address directory) :
    Unremoved address directory connected (more ++ [invocation]) := by
  simp only [Unremoved, List.mem_append, List.mem_singleton, not_or]
  exact ⟨unremoved, other.symm⟩

theorem keeps_run (operation : String) (other : invocation ≠ removal address directory) :
    Keeps (Site.Has (Ran directory before (Unremoved address directory)))
      (run (recording launcher) operation invocation) :=
  leads_run operation fun _ _ unremoved => ⟨unremoved, unremoved.concat other⟩

theorem keptByPrograms : KeptByPrograms address (recording launcher)
    (Ran directory before (Unremoved address directory)) where
  directories operation words := keeps_run operation
    (command_ne_removal address directory (by rw [String.toList_append]; rfl)
      (by decide : 'm' ≠ 'r'))
  uploads operation files place := keeps_run operation
    (upload_ne_removal address directory files place)
  tools operation words := keeps_run operation (tool_ne_removal address directory words)

/-- Between sessions nothing has removed the directory, and a channel that is still connected was
so from the beginning and has launched nothing. -/
def Idle (address : Address) (directory : String) (wasConnected connected : Bool)
    (more : List Invocation) : Prop :=
  Unremoved address directory connected more ∧
    (connected = true → wasConnected = true ∧ more = [])

/-- At the end the directory is removed only by a channel that was connected from the beginning,
and nothing else was launched.  A channel that is still connected launched nothing else either. -/
structure Final (address : Address) (directory : String) (wasConnected connected : Bool)
    (more : List Invocation) : Prop where
  removed : removal address directory ∈ more →
    wasConnected = true ∧ more = [removal address directory]
  stillConnected : connected = true → more ⊆ [removal address directory]

variable {wasConnected : Bool}

theorem Ran.mono {state : State (Recorded Invocation ρ)} (ran : Ran directory before good state)
    (implies : ∀ connected more, good connected more → better connected more) :
    Ran directory before better state :=
  ⟨ran.1, ran.2.imp fun _ both => ⟨both.1, implies _ _ both.2⟩⟩

/-! ## The calls of an import -/

theorem connect_idle {site after : Site (State (Recorded Invocation ρ))}
    {outcome : Except ChannelError Unit}
    (ran : connect address (recording launcher) site = (outcome, after))
    (idle : Ran directory before (Idle address directory wasConnected) site.remote) :
    Ran directory before (Unremoved address directory) after.remote ∧
      (∀ cause, outcome = .error cause →
        Ran directory before (Idle address directory wasConnected) after.remote) := by
  have unremoved := idle.mono fun _ _ both => both.1
  unfold connect at ran
  rw [exceptBind_of_ok (show state site = (.ok site.remote, site) from rfl)] at ran
  split at ran
  next notConnected =>
    let closed (connected : Bool) (more : List Invocation) : Prop :=
      connected = false ∧ Unremoved address directory connected more
    have started : Ran directory before closed site.remote := by
      obtain ⟨same, more, launched, holds⟩ := idle
      exact ⟨same, more, launched, by simpa using notConnected, holds.1⟩
    have invocation : address.command ("mkdir -p " ++ Shell.quote site.remote.directory) =
        creation address directory := by rw [idle.1]; rfl
    rw [invocation] at ran
    have reached : Site.Has (Ran directory before closed)
        (run (recording launcher) "connect" (creation address directory) site).2 := by
      refine leads_run "connect" (fun connected more holds => ?_) site started
      exact ⟨holds, holds.1, holds.2.concat (creation_ne_removal address directory directory)⟩
    cases done : run (recording launcher) "connect" (creation address directory) site with
    | mk result between =>
      rw [done] at reached
      rw [exceptBind_apply, done] at ran
      cases result with
      | error cause =>
        cases ran
        refine ⟨reached.mono fun _ _ holds => holds.2, fun _ _ => reached.mono ?_⟩
        intro connected more holds
        refine ⟨holds.2, fun still => ?_⟩
        rw [holds.1] at still
        cases still
      | ok _ =>
        cases ran
        refine ⟨?_, fun cause failed => by cases failed⟩
        obtain ⟨same, more, launched, holds⟩ := reached
        exact ⟨same, more, launched, holds.2⟩
  · cases ran
    exact ⟨unremoved, fun cause failed => by cases failed⟩

theorem leads_cleanup :
    Leads (Site.Has (Ran directory before (Idle address directory wasConnected)))
      (Site.Has (Ran directory before (Final address directory wasConnected)))
      (cleanup address (recording launcher)) := by
  rintro site ⟨same, more, launched, unremoved, since⟩
  let forgetful : Site (State (Recorded Invocation ρ)) :=
    { site with remote := { site.remote with pending := [] } }
  change Ran _ _ _ ((if forgetful.remote.connected then _ else _ : StateM _ _) forgetful).2.remote
  split
  next connected =>
    obtain ⟨was, rfl⟩ := since connected
    let untouched (_ : Bool) (more : List Invocation) : Prop := more = []
    have start : Site.Has (Ran directory before untouched) forgetful := ⟨same, [], launched, rfl⟩
    have removed : Site.Has (Ran directory before (Final address directory wasConnected))
        (run (recording launcher) "cleanup" (removal address directory) forgetful).2 := by
      refine leads_run "cleanup" ?_ forgetful start
      rintro _ _ rfl
      exact ⟨⟨by simp, by simp⟩, ⟨fun _ => ⟨was, rfl⟩, fun _ => by simp⟩⟩
    have invocation : address.command ("rm -rf " ++ Shell.quote forgetful.remote.directory) =
        removal address directory := by rw [← same]; rfl
    rw [invocation]
    cases done : run (recording launcher) "cleanup" (removal address directory) forgetful with
    | mk result after =>
      rw [done] at removed
      rw [bind_of_eq done]
      cases result with
      | ok _ => exact removed
      | error cause => exact removed
  next disconnected =>
    exact ⟨same, more, launched, fun found => absurd found unremoved,
      fun connected => absurd connected disconnected⟩

end Ssh

open Ssh

variable {ρ : Type}

/-- Synchronizing over a secure shell whose programs are recorded, with a query interface to the
same server. -/
def Synchronizer.overShell (query : Query ρ) (address : Address) (launcher : Launcher ρ)
    (scratch : Path) : Synchronizer (State (Recorded Invocation ρ)) where
  query := behind.query query
  channel := Ssh.channel address (recording launcher)
  scratch := scratch

namespace Synchronizer

variable {query : Query ρ} {address : Address} {launcher : Launcher ρ} {scratch : Path}

theorem keeps_importAll_overShell {directory : String} {before : List Invocation}
    {wasConnected : Bool} (package : Package) (dryRun : Bool) (staging : Path) :
    Keeps (World.Has (Ran directory before (Idle address directory wasConnected)))
      (Import.importAll
        ((overShell query address launcher scratch).importContext package dryRun staging)) := by
  have maintains : ∀ good : Bool → List Invocation → Prop,
      (behind.query query).Maintains (Ran directory before good) :=
    fun good => Part.maintains Empty.elim (fun index => index.elim) fun _ _ holds => holds
  have frames : (Ssh.channel address (recording launcher)).Frames
      (World.Has (Ran directory before (Idle address directory wasConnected)))
      (World.Has (Ran directory before (Unremoved address directory)))
      (World.Has (Ran directory before (Unremoved address directory)))
      (World.Has (Ran directory before (Idle address directory wasConnected))) := by
    refine ⟨fun world idle site ran => (connect_idle ran idle).1,
      fun world idle cause site ran => (connect_idle ran idle).2 cause rfl, ?_⟩
    rintro world ⟨same, more, launched, unremoved⟩
    exact ⟨same, more, launched, unremoved, fun closed => by cases closed⟩
  refine Import.leads_importAll_of_calls (fun _ holds => holds) (fun kind name disk site holds => ?_)
    frames keptByPrograms.importFiles (maintains _) (maintains _) frames
    (keptByPrograms.sharing "share") (keptByPrograms.sharing "unshare")
  change Ran _ _ _ (Ssh.enqueue kind _ disk site).2.remote
  unfold Ssh.enqueue
  split <;> exact holds

/-- Once an import has connected, its scratch directory on the server is there to stay.  For every
package and server, dry or not, and whatever the outcome: the directory is removed only by one
that found the channel connected and launches nothing else, and an import that makes the
directory neither removes it nor leaves the channel in a state in which cleaning up would. -/
theorem importPackage_abandons_remoteScratch (query : Query ρ) (address : Address)
    (launcher : Launcher ρ) (scratch : Path) (package : Package) (dryRun : Bool)
    (world : World (State (Recorded Invocation ρ))) :
    let directory := world.site.remote.directory
    let after :=
      ((overShell query address launcher scratch).importPackage package dryRun world).2.site.remote
    ∃ more, after.server.record = world.site.remote.server.record ++ more ∧
      (removal address directory ∈ more →
        world.site.remote.connected = true ∧ more = [removal address directory]) ∧
      (creation address directory ∈ more →
        removal address directory ∉ more ∧ after.connected = false) := by
  intro directory after
  have finished : World.Has (Ran directory world.site.remote.server.record
        (Final address directory world.site.remote.connected))
      ((overShell query address launcher scratch).importPackage package dryRun world).2 := by
    refine leads_importPackage ?_ (fun tag => keeps_importAll_overShell package dryRun _)
      leads_cleanup world ⟨rfl, [], (List.append_nil _).symm, by simp [Unremoved], fun still =>
        ⟨still, rfl⟩⟩
    rintro state ran
    refine ran.mono fun connected more idle => ⟨fun found => absurd found idle.1, fun still => ?_⟩
    rw [(idle.2 still).2]
    simp
  obtain ⟨-, more, launched, final⟩ := finished
  have apart := creation_ne_removal address directory directory
  refine ⟨more, launched, final.removed, fun created => ⟨fun removed => ?_, ?_⟩⟩
  · rw [(final.removed removed).2] at created
    exact apart (List.mem_singleton.1 created)
  · by_contra still
    exact apart (List.mem_singleton.1 (final.stillConnected (Bool.of_not_eq_false still) created))

/-! ## A super metric -/

def obligingShell : Synchronizer (State (Recorded Invocation Unit)) :=
  overShell ({} : Scripted.Answers).query { host := "ops", user := "root", port := 22 }
    (fun _ => pure {}) ⟨true, ["tmp"]⟩

/-- A project with a super metric, and a fresh channel. -/
def superMetricProject : World (State (Recorded Invocation Unit)) where
  disk := { current := [], nodes :=
    [(["work"], .directory), (["work", "supermetrics"], .directory),
      (["work", "supermetrics", "disk.json"], .file (Bytes.ofText "1"))] }
  site :=
    { tags := fun _ => "0"
      remote := { directory := "/tmp/vrsync-0", server := { server := () } } }

/-- The import of a super metric succeeds, has made the scratch directory on the server and has
not removed it. -/
theorem importPackage_keeps_directory :
    (obligingShell.importPackage bareProject false superMetricProject).1 =
        .ok { queued := [("superMetric", 1)], pushed := [("policy", 0)], submitted := true } ∧
      creation { host := "ops", user := "root", port := 22 } "/tmp/vrsync-0" ∈
        (obligingShell.importPackage bareProject false
          superMetricProject).2.site.remote.server.record ∧
      removal { host := "ops", user := "root", port := 22 } "/tmp/vrsync-0" ∉
        (obligingShell.importPackage bareProject false
          superMetricProject).2.site.remote.server.record := by
  decide +kernel

end Synchronizer

end OpsContent
