import Mathlib.Data.List.Forall2
import OpsContent.Proofs.RemotePaths
import OpsContent.Proofs.RemoteScratch

/-!
# Calls of a secure shell in any order

A channel over a secure shell is used in any order of its calls, whatever its programs do.  The
calls that were made tell its state: whether it is connected and which files are pending.  So
commands run only behind a connection, and a line of commands that imports files names exactly what
the copies before it have uploaded.
-/

namespace OpsContent.Ssh

variable {ρ σ α : Type} {pending : List Pending} {address : Address} {directory : String}

/-! ## Launched programs -/

/-- A program that was launched, and what became of it. -/
structure Launched where
  invocation : Invocation
  outcome : Outcome

variable {preparation : Launched} {copies launched : List Launched}

/-- A launcher that keeps the programs with their outcomes. -/
def logging (launcher : Launcher ρ) : Launcher (Recorded Launched ρ) :=
  noting Launched.mk launcher

/-- The channel without its server. -/
def State.bare (state : State ρ) : State Unit :=
  { state with server := () }

/-- What the step launches fits how it ends, and the channel is as it was. -/
abbrev Runs (view : σ → State (Recorded Launched ρ)) (state : σ) (step : StateM σ α)
    (fits : List Launched → α → Prop) : Prop :=
  LogsKeeping (fun state => (view state).bare) (fun state => (view state).server.record) ([·]) state
    step fits

/-- How a program ends that has to succeed. -/
inductive Ended (invocation : Invocation) : List Launched → Except ChannelError Outcome → Prop where
  | unstarted (cause : ChannelError) : Ended invocation [] (.error cause)
  | failed (outcome : Outcome) (cause : ChannelError) :
      Ended invocation [⟨invocation, outcome⟩] (.error cause)
  | done (outcome : Outcome) (succeeded : outcome.ending = .exit 0) :
      Ended invocation [⟨invocation, outcome⟩] (.ok outcome)

theorem ending_of_failure?_eq_none {program : String} {outcome : Outcome}
    (succeeded : outcome.failure? program = none) : outcome.ending = .exit 0 := by
  unfold Outcome.failure? at succeeded
  dsimp only at succeeded
  split at succeeded <;> simp_all

variable (launcher : Launcher ρ)

/-- A program is not launched if its words cannot be handed over. -/
theorem runs_launch (invocation : Invocation) (site : Site (State (Recorded Launched ρ))) :
    Runs Site.remote site (launch (logging launcher) invocation) fun launched outcome =>
      launched = [] ∧ outcome.ending ≠ .exit 0 ∨ launched = [⟨invocation, outcome⟩] := by
  unfold launch
  split
  next passable => exact ⟨rfl, [⟨invocation, _⟩], rfl, .inr rfl⟩
  · exact .silent rfl rfl (.inl ⟨rfl, fun same => by cases same⟩)

theorem runs_run (operation : String) (invocation : Invocation)
    (site : Site (State (Recorded Launched ρ))) :
    Runs Site.remote site (run (logging launcher) operation invocation) (Ended invocation) := by
  obtain ⟨kept, launched, logged, shown⟩ := runs_launch launcher invocation site
  have started : (World.always (launch (logging launcher) invocation) :
      ChannelAction (State (Recorded Launched ρ)) Outcome) site =
        (.ok (launch (logging launcher) invocation site).1,
          (launch (logging launcher) invocation site).2) := rfl
  cases said : (launch (logging launcher) invocation site).1.failure? invocation.program with
  | none =>
    have ran : run (logging launcher) operation invocation site =
        (.ok (launch (logging launcher) invocation site).1,
          (launch (logging launcher) invocation site).2) := by
      rw [run, exceptBind_of_ok started, said]
      rfl
    refine ⟨?_, launched, ?_, ?_⟩ <;> rw [ran]
    · exact kept
    · exact logged
    · have ended := ending_of_failure?_eq_none said
      obtain ⟨-, notEnded⟩ | rfl := shown
      · exact absurd ended notEnded
      · exact .done _ ended
  | some cause =>
    have ran : run (logging launcher) operation invocation site =
        (.error ⟨operation, cause⟩, (launch (logging launcher) invocation site).2) := by
      rw [run, exceptBind_of_ok started, said]
      rfl
    refine ⟨?_, launched, ?_, ?_⟩ <;> rw [ran]
    · exact kept
    · exact logged
    · obtain ⟨rfl, -⟩ | rfl := shown
      · exact .unstarted _
      · exact .failed _ _

/-- A step that leaves the channel alone. -/
theorem runs_beside {ε β : Type} {view : σ → State (Recorded Launched ρ)} {state : σ}
    {step : StateM σ α} {next : α → ExceptT ε (StateM σ) β}
    {fits : List Launched → Except ε β → Prop} (same : view (step state).2 = view state)
    (rest : ∀ value, Runs view (step state).2 (next value) fits) :
    Runs view state (World.always step >>= next : ExceptT ε (StateM σ) β) fits :=
  .afterOk rfl (congrArg State.bare same) (congrArg (·.server.record) same) (rest _)

theorem site_onDisk (step : StateM Disk α) (world : World ρ) :
    (World.onDisk step world).2.site = world.site :=
  rfl

/-! ## Uploads -/

/-- A successful copy of files into the directory of their kind. -/
def Copied (address : Address) (directory : String) (upload : ChannelKind × List Path)
    (run : Launched) : Prop :=
  run.invocation = address.upload upload.2 (folder directory upload.1) ∧
    run.outcome.ending = .exit 0

/-- The files of each kind. -/
def batches (pending : List Pending) (kinds : List ChannelKind) :
    List (ChannelKind × List Path) :=
  kinds.map fun kind => (kind, (pending.filter (·.kind == kind)).map (·.file))

/-- What some uploads copy, as it was queued. -/
def contents (uploads : List (ChannelKind × List Path)) : List Pending :=
  uploads.flatMap fun upload => upload.2.map (Pending.mk upload.1)

/-- The kinds of which a file is pending. -/
def pendingKinds (pending : List Pending) : List ChannelKind :=
  ChannelKind.all.filter fun kind => pending.any (·.kind == kind)

/-- Uploads run copies only, and if they succeed they run all of them. -/
def Uploaded (address : Address) (directory : String) (pending : List Pending)
    (kinds : List ChannelKind) (launched : List Launched) (outcome : Except ChannelError Unit) :
    Prop :=
  (∀ run ∈ launched, run.invocation.program = "scp") ∧
    (outcome = .ok () → List.Forall₂ (Copied address directory) (batches pending kinds) launched)

theorem runs_uploadAll (address : Address) (directory : String) (pending : List Pending)
    (kinds : List ChannelKind) (site : Site (State (Recorded Launched ρ))) :
    Runs Site.remote site (uploadAll address (logging launcher) directory pending kinds)
      (Uploaded address directory pending kinds) := by
  induction kinds generalizing site with
  | nil => exact .succeed ⟨by simp, fun _ => .nil⟩
  | cons kind rest ih =>
    refine (runs_run launcher _ _ site).andThen ?_ ?_
    · intro launched cause ended
      refine ⟨?_, fun succeeded => by cases succeeded⟩
      cases ended <;> simp [Address.upload]
    · intro launched value ended _
      refine (ih _).mono fun more outcome uploaded => ?_
      cases ended with
      | done last ended =>
        refine ⟨?_, fun succeeded => .cons ⟨rfl, ended⟩ (uploaded.2 succeeded)⟩
        simpa [Address.upload] using uploaded.1

/-- The files of some kinds, kind by kind, are the files of these kinds. -/
theorem perm_contents_batches (pending : List Pending) {kinds : List ChannelKind}
    (different : kinds.Nodup) :
    (contents (batches pending kinds)).Perm (pending.filter (·.kind ∈ kinds)) := by
  induction kinds with
  | nil => simp [batches, contents]
  | cons kind rest ih =>
    obtain ⟨new, others⟩ := List.nodup_cons.1 different
    have whole := List.filter_append_perm (·.kind == kind)
      (pending.filter (·.kind ∈ kind :: rest))
    have here : (pending.filter (·.kind ∈ kind :: rest)).filter (·.kind == kind) =
        ((pending.filter (·.kind == kind)).map (·.file)).map (Pending.mk kind) := by
      have same : ∀ entry ∈ pending.filter (·.kind == kind),
          (Pending.mk kind ∘ (·.file)) entry = entry := by
        intro entry member
        have sameKind : entry.kind = kind := by simpa using (List.mem_filter.1 member).2
        rw [← sameKind]
        rfl
      rw [List.map_map, List.map_congr_left same, List.map_id', List.filter_filter]
      apply List.filter_congr
      intro entry _
      by_cases sameKind : entry.kind = kind <;> simp [sameKind]
    have later : (pending.filter (·.kind ∈ kind :: rest)).filter (!·.kind == kind) =
        pending.filter (·.kind ∈ rest) := by
      rw [List.filter_filter]
      apply List.filter_congr
      intro entry _
      by_cases sameKind : entry.kind = kind <;> simp [sameKind, new]
    rw [here, later] at whole
    exact ((ih others).append_left _).trans whole

/-- Every pending file is of one of the pending kinds. -/
theorem perm_contents_pending (pending : List Pending) :
    (contents (batches pending (pendingKinds pending))).Perm pending := by
  have different : ChannelKind.all.Nodup := by decide
  have whole := perm_contents_batches pending (different.filter fun kind =>
    pending.any (·.kind == kind))
  have all : pending.filter (·.kind ∈ pendingKinds pending) = pending := by
    rw [List.filter_eq_self]
    intro entry member
    have listed : entry.kind ∈ ChannelKind.all := by cases entry.kind <;> decide
    simpa [pendingKinds, listed] using ⟨entry, member, rfl⟩
  exact (congrArg _ all).mp whole

/-- The programs of an import: directories are made, every pending file is copied once into the
directory of its kind, and one line of commands imports them all. -/
def Consigned (address : Address) (directory : String) (pending : List Pending)
    (launched : List Launched) : Prop :=
  ∃ preparation uploads copies script, launched = preparation :: (copies ++ [script]) ∧
    script.invocation = address.command (importScript directory pending) ∧
    List.Forall₂ (Copied address directory) uploads copies ∧ (contents uploads).Perm pending

/-- What a submission launches: behind the first program the only command is the line that imports
the files, and this line is reached if the submission succeeds. -/
def Submitted (address : Address) (directory : String) (pending : List Pending)
    (launched : List Launched) (succeeded : Bool) : Prop :=
  (∃ run ∈ launched.tail, run.invocation.program = "ssh") ∨ (succeeded = true ∧ pending ≠ []) →
    Consigned address directory pending launched

/-- A submission that was broken off before has run nothing but copies behind the first
program. -/
theorem submitted_of_copies (copy : ∀ run ∈ copies, run.invocation.program = "scp") :
    Submitted address directory pending ([preparation] ++ copies) false := by
  rintro (⟨run, member, command⟩ | ⟨succeeded, -⟩)
  · have program := (copy run member).symm.trans command
    exact absurd program (by decide)
  · cases succeeded

theorem consigned_of_copied
    (copied : List.Forall₂ (Copied address directory) (batches pending (pendingKinds pending))
      copies) (outcome : Outcome) :
    Consigned address directory pending ([preparation] ++
      (copies ++ [⟨address.command (importScript directory pending), outcome⟩])) :=
  ⟨preparation, _, copies, _, rfl, rfl, copied, perm_contents_pending pending⟩

/-! ## Calls -/

section

variable {site : Site (State ρ)}

theorem ensureConnected_of_connected (operation : String)
    (connected : site.remote.connected = true) :
    ensureConnected operation site = (.ok (), site) := by
  have seen : (state : ChannelAction (State ρ) _) site = (.ok site.remote, site) := rfl
  unfold ensureConnected
  rw [exceptBind_of_ok seen, connected]
  rfl

theorem ensureConnected_of_closed (operation : String) (closed : site.remote.connected = false) :
    ∃ cause, ensureConnected operation site = (.error cause, site) := by
  have seen : (state : ChannelAction (State ρ) _) site = (.ok site.remote, site) := rfl
  unfold ensureConnected
  rw [exceptBind_of_ok seen, closed]
  exact ⟨_, rfl⟩

end

/-- What an import of files launches. -/
theorem runs_importFiles (address : Address) (site : Site (State (Recorded Launched ρ))) :
    Runs Site.remote site (importFiles address (logging launcher)) fun launched outcome =>
      (launched ≠ [] → site.remote.connected = true) ∧
        Submitted address site.remote.directory site.remote.pending launched outcome.isOk := by
  unfold importFiles
  cases opened : site.remote.connected with
  | false =>
    obtain ⟨cause, failed⟩ := ensureConnected_of_closed "import" opened
    exact .ofError failed ⟨by simp, by simp [Submitted, Except.isOk, Except.toBool]⟩
  | true =>
    refine .afterOk (ensureConnected_of_connected _ opened) rfl rfl (.afterOk rfl rfl rfl ?_)
    dsimp only
    split
    · refine (runs_run launcher _ _ site).andThen ?_ ?_
      · intro launched cause ended
        refine ⟨fun _ => rfl, ?_⟩
        cases ended with
        | unstarted => simp [Submitted, Except.isOk, Except.toBool]
        | failed outcome => exact submitted_of_copies (by simp)
      · intro prepared value ended _
        cases ended
        refine (runs_uploadAll launcher _ _ _ _ _).andThen ?_ ?_
        · intro copies cause uploaded
          exact ⟨fun _ => rfl, submitted_of_copies uploaded.1⟩
        · intro copies _ uploaded _
          have copied := uploaded.2 rfl
          refine (runs_run launcher _ _ _).andThen ?_ ?_
          · intro launched cause ended
            refine ⟨fun _ => rfl, ?_⟩
            cases ended with
            | unstarted =>
              rw [List.append_nil]
              exact submitted_of_copies uploaded.1
            | failed outcome => exact fun _ => consigned_of_copied copied outcome
          · intro launched outcome ended _
            cases ended
            refine .succeed ⟨fun _ => rfl, fun _ => ?_⟩
            rw [List.append_nil]
            exact consigned_of_copied copied outcome
    next nothing =>
      have empty : site.remote.pending = [] := by simpa using nothing
      exact .succeed ⟨fun _ => rfl, by simp [Submitted, empty]⟩

theorem runs_sharing (address : Address) (action name : String) (groups : List String)
    (site : Site (State (Recorded Launched ρ))) :
    Runs Site.remote site (sharing address (logging launcher) action name groups)
      fun launched _ => launched ≠ [] → site.remote.connected = true := by
  unfold sharing
  cases opened : site.remote.connected with
  | false =>
    obtain ⟨cause, failed⟩ := ensureConnected_of_closed (action ++ " dashboard '" ++ name ++ "'")
      opened
    exact .ofError failed (by simp)
  | true =>
    refine .afterOk (ensureConnected_of_connected _ opened) rfl rfl ?_
    refine (runs_run launcher _ _ site).andThen (fun _ _ _ _ => rfl) fun _ _ _ _ => ?_
    exact .succeed fun _ => rfl

theorem runs_fetch (address : Address) (operation files : String) (place : Path)
    (world : World (State (Recorded Launched ρ))) :
    Runs (·.site.remote) world (fetch address (logging launcher) operation files place)
      fun _ _ => True := by
  unfold fetch
  obtain ⟨kept, launched, logged, -⟩ :=
    runs_launch launcher (address.download files place) world.site
  have copied : Runs (·.site.remote) world (World.always (World.onSite
      (launch (logging launcher) (address.download files place))) :
        Action (State (Recorded Launched ρ)) ChannelError Outcome) fun _ _ => True :=
    ⟨kept, launched, logged, trivial⟩
  refine copied.andThen (fun _ _ _ => trivial) fun _ outcome _ _ => ?_
  refine runs_beside (congrArg Site.remote (site_onDisk _ _)) fun _ => ?_
  split
  · exact .succeed trivial
  · exact .fail trivial

theorem runs_exportAsset (address : Address) (kind : ChannelKind) (name : String) (place : Path)
    (world : World (State (Recorded Launched ρ))) :
    Runs (·.site.remote) world (exportAsset address (logging launcher) kind name place)
      fun launched _ => launched ≠ [] → world.site.remote.connected = true := by
  unfold exportAsset
  cases opened : world.site.remote.connected with
  | false =>
    obtain ⟨cause, failed⟩ := ensureConnected_of_closed ("export " ++ kind.words) opened
    have refusal : (World.onSite (ensureConnected ("export " ++ kind.words)) :
        StateM (World (State (Recorded Launched ρ))) _) world = (.error cause, world) := by
      rw [World.onSite, failed]
    exact .ofError refusal (by simp)
  | true =>
    have ensured : (World.onSite (ensureConnected ("export " ++ kind.words)) :
        StateM (World (State (Recorded Launched ρ))) _) world = (.ok (), world) := by
      rw [World.onSite, ensureConnected_of_connected _ opened]
    refine .afterOk ensured rfl rfl (.afterOk rfl rfl rfl (runs_beside rfl fun unique => ?_))
    have ran : ∀ (between : World (State (Recorded Launched ρ))) operation invocation,
        Runs (·.site.remote) between (World.onSite (run (logging launcher) operation invocation) :
          Action (State (Recorded Launched ρ)) ChannelError Outcome) fun _ _ => True := by
      intro between operation invocation
      obtain ⟨kept, launched, logged, -⟩ := runs_run launcher operation invocation between.site
      exact ⟨kept, launched, logged, trivial⟩
    refine (ran _ _ _).andThen (fun _ _ _ _ => rfl) fun _ _ _ _ => ?_
    refine runs_beside (congrArg Site.remote (site_onDisk _ _)) fun made => ?_
    split
    · exact .fail fun _ => rfl
    · exact (runs_fetch launcher _ _ _ _ _).mono fun _ _ _ _ => rfl

/-- Connecting changes nothing but the connection. -/
theorem connect_spec (address : Address) (site : Site (State (Recorded Launched ρ))) :
    (connect address (logging launcher) site).2.remote.bare = { site.remote.bare with
      connected := site.remote.connected || (connect address (logging launcher) site).1.isOk } := by
  unfold connect
  rw [exceptBind_of_ok (show (state : ChannelAction (State (Recorded Launched ρ)) _) site =
    (.ok site.remote, site) from rfl)]
  split
  next closed =>
    have wasClosed : site.remote.connected = false := by simpa using closed
    have kept := (runs_run launcher "connect"
      (address.command ("mkdir -p " ++ Shell.quote site.remote.directory)) site).kept
    cases ran : run (logging launcher) "connect"
        (address.command ("mkdir -p " ++ Shell.quote site.remote.directory)) site with
    | mk outcome after =>
      rw [ran] at kept
      cases outcome with
      | error cause =>
        rw [exceptBind_of_error ran, kept, wasClosed]
        exact congrArg (fun connected => { site.remote.bare with connected }) wasClosed
      | ok value =>
        rw [exceptBind_of_ok ran, wasClosed]
        exact congrArg (fun bare : State Unit => { bare with connected := true }) kept
  next opened =>
    have wasOpened : site.remote.connected = true := by simpa using opened
    rw [wasOpened]
    exact congrArg (fun connected => { site.remote.bare with connected }) wasOpened

/-- Cleaning up forgets the queue and keeps the connection. -/
theorem cleanup_spec (address : Address) (site : Site (State (Recorded Launched ρ))) :
    (cleanup address (logging launcher) site).2.remote.bare =
      { site.remote.bare with pending := [] } := by
  let forgetful : Site (State (Recorded Launched ρ)) :=
    { site with remote := { site.remote with pending := [] } }
  change ((if forgetful.remote.connected then _ else _ : StateM _ _) forgetful).2.remote.bare =
    forgetful.remote.bare
  split
  · have kept := (runs_run launcher "cleanup"
      (address.command ("rm -rf " ++ Shell.quote forgetful.remote.directory)) forgetful).kept
    cases ran : run (logging launcher) "cleanup"
        (address.command ("rm -rf " ++ Shell.quote forgetful.remote.directory)) forgetful with
    | mk outcome after =>
      rw [ran] at kept
      rw [bind_of_eq ran]
      cases outcome <;> exact kept
  · rfl

/-! ## Calls in any order -/

/-- A call of the channel.  A call that looks at the disk comes with the disk of that moment, since
anything may have happened there between two calls. -/
inductive ShellCall where
  | connect
  | close
  | exportAsset (kind : ChannelKind) (name : String) (directory : Path) (disk : Disk)
  | enqueue (kind : ChannelKind) (file : String) (disk : Disk) (grounded : disk.Grounded)
  | importFiles
  | share (name : String) (groups : List String)
  | unshare (name : String) (groups : List String)
  | cleanup

variable {call : ShellCall} {succeeded : Bool}

namespace ShellCall

/-- Calls that run commands for exports, imports and sharing. -/
def isCommand : ShellCall → Bool
  | .exportAsset .. | .importFiles | .share .. | .unshare .. => true
  | _ => false

def isConnect : ShellCall → Bool
  | .connect => true
  | _ => false

def isClose : ShellCall → Bool
  | .close => true
  | _ => false

def isCleanup : ShellCall → Bool
  | .cleanup => true
  | _ => false

/-- The file that the call queues if it succeeds. -/
def queued? : ShellCall → Bool → Option Pending
  | .enqueue kind file _ _, true => some ⟨kind, Path.ofText file⟩
  | _, _ => none

/-- A step that may fail, as one that says whether it succeeded. -/
def accepted (step : ChannelAction σ Unit) : StateM (Site σ) Bool := fun site =>
  let (outcome, after) := step site
  (outcome.isOk, after)

/-- Make the call and say whether it succeeded. -/
def attempt (channel : Channel σ) : ShellCall → StateM (Site σ) Bool
  | .connect => accepted channel.connect
  | .close => do
      channel.close
      pure true
  | .exportAsset kind name directory disk => fun site =>
    let (outcome, after) := channel.exportAsset kind name directory { disk, site }
    (outcome.isOk, after.site)
  | .enqueue kind file disk _ => accepted (channel.enqueue kind (Path.ofText file) disk)
  | .importFiles => accepted channel.importFiles
  | .share name groups => accepted (channel.share name groups)
  | .unshare name groups => accepted (channel.unshare name groups)
  | .cleanup => do
      channel.cleanup
      pure true

theorem queued?_false (call : ShellCall) : call.queued? false = none := by
  cases call <;> rfl

theorem isClose_eq_false_iff : call.isClose = false ↔ call ≠ .close := by
  cases call <;> simp [isClose]

theorem isConnect_iff : call.isConnect = true ↔ call = .connect := by
  cases call <;> simp [isConnect]

/-- What the call makes of the channel. -/
def next (call : ShellCall) (succeeded : Bool) (state : State Unit) : State Unit :=
  { state with
    connected := !call.isClose && (state.connected || (call.isConnect && succeeded))
    pending := if call.isCleanup then [] else state.pending ++ (call.queued? succeeded).toList }

theorem next_of_isCommand (command : call.isCommand = true) (succeeded : Bool)
    (state : State Unit) : call.next succeeded state = state := by
  cases call <;> cases command <;>
    simp [next, isClose, isConnect, isCleanup, queued?]

end ShellCall

/-- A call that was made, with the programs that it launched and what was pending behind it. -/
structure Step where
  call : ShellCall
  succeeded : Bool
  launched : List Launched
  pending : List Pending

variable {steps : List Step}

/-- There was a successful connect, and no close behind it. -/
def Connected (steps : List Step) : Prop :=
  ∃ before step between, steps = before ++ step :: between ∧ step.call = .connect ∧
    step.succeeded = true ∧ ∀ other ∈ between, other.call ≠ .close

/-- The files that were queued since the last cleanup. -/
def queuedSince (steps : List Step) : List Pending :=
  (steps.rtakeWhile (!·.call.isCleanup)).filterMap fun step => step.call.queued? step.succeeded

/-- The calls that were made, and what came of them. -/
structure History (ρ : Type) where
  steps : List Step := []
  site : Site (State (Recorded Launched ρ))

/-- The site with no program launched yet. -/
def unlogged (site : Site (State (Recorded Launched ρ))) : Site (State (Recorded Launched ρ)) :=
  { site with remote :=
    { site.remote with server := { site.remote.server with record := [] } } }

namespace History

/-- A channel that was not used yet, with its directory on the server. -/
def opening (directory : String) (site : Site ρ) : History ρ where
  site :=
    { log := site.log, tags := site.tags, drawn := site.drawn,
      remote := { directory, server := { server := site.remote } } }

/-- Make one more call. -/
def perform (address : Address) (launcher : Launcher ρ) (history : History ρ) (call : ShellCall) :
    History ρ :=
  let (succeeded, after) :=
    call.attempt (channel address (logging launcher)) (unlogged history.site)
  let step := ⟨call, succeeded, after.remote.server.record, after.remote.pending⟩
  { steps := history.steps ++ [step], site := after }

/-- Make calls one after another. -/
def performAll (address : Address) (launcher : Launcher ρ) (history : History ρ)
    (calls : List ShellCall) : History ρ :=
  calls.foldl (perform address launcher) history

end History

/-! ## What one call does -/

/-- What a call does to the channel, and what it may launch. -/
structure Done (address : Address) (call : ShellCall) (succeeded : Bool)
    (before after : State (Recorded Launched ρ)) : Prop where
  next : after.bare = call.next succeeded before.bare
  cleaned : call.isCleanup = true → succeeded = true
  named : ∀ entry, call.queued? succeeded = some entry → entry.file.EndsInName
  commanded : call.isCommand = true → after.server.record ≠ [] → before.connected = true
  submitted : call = .importFiles →
    Submitted address before.directory before.pending after.server.record succeeded

/-- A command leaves the channel as it was. -/
theorem Done.of_command {before after : State (Recorded Launched ρ)}
    (command : call.isCommand = true) (fresh : before.server.record = [])
    (kept : after.bare = before.bare)
    (logged : after.server.record = before.server.record ++ launched.flatMap ([·]))
    (connected : launched ≠ [] → before.connected = true)
    (submitted : call = .importFiles →
      Submitted address before.directory before.pending launched succeeded) :
    Done address call succeeded before after := by
  have all : after.server.record = launched := by
    rw [logged, fresh, List.nil_append, List.flatMap_singleton']
  refine ⟨?_, fun cleans => ?_, fun entry queued => ?_, fun _ => all.symm ▸ connected,
    all.symm ▸ submitted⟩
  · rw [kept, ShellCall.next_of_isCommand command]
  · cases call <;> cases command <;> cases cleans
  · cases call <;> cases command <;> cases queued

/-- For a call that is no command there is nothing to say of what it launches. -/
theorem Done.of_other {before after : State (Recorded Launched ρ)}
    (other : call.isCommand = false) (next : after.bare = call.next succeeded before.bare)
    (cleaned : call.isCleanup = true → succeeded = true)
    (named : ∀ entry, call.queued? succeeded = some entry → entry.file.EndsInName) :
    Done address call succeeded before after := by
  refine ⟨next, cleaned, named, fun command => ?_, fun isImport => ?_⟩
  · rw [other] at command
    cases command
  · rw [isImport] at other
    cases other

/-- Only a file is queued, so its path ends in a name. -/
theorem done_enqueue (address : Address) (kind : ChannelKind) (file : String) {disk : Disk}
    (grounded : disk.Grounded) (site : Site (State (Recorded Launched ρ))) :
    Done address (.enqueue kind file disk grounded)
      (ShellCall.accepted (enqueue kind (Path.ofText file) disk) site).1 site.remote
      (ShellCall.accepted (enqueue kind (Path.ofText file) disk) site).2.remote := by
  cases isFile : disk.isFile (Path.ofText file) with
  | false =>
    have refused : ShellCall.accepted (enqueue kind (Path.ofText file) disk) site =
        (false, site) := by
      unfold ShellCall.accepted enqueue
      rw [isFile]
      rfl
    rw [refused]
    refine .of_other rfl ?_ (fun no => by cases no) fun entry found => by cases found
    simp [ShellCall.next, ShellCall.isClose, ShellCall.isConnect, ShellCall.isCleanup,
      ShellCall.queued?]
  | true =>
    have queued : ShellCall.accepted (enqueue kind (Path.ofText file) disk) site =
        (true, { site with remote :=
          { site.remote with pending := site.remote.pending ++ [⟨kind, Path.ofText file⟩] } }) := by
      unfold ShellCall.accepted enqueue
      rw [isFile]
      rfl
    rw [queued]
    refine .of_other rfl ?_ (fun _ => rfl) fun entry found => ?_
    · simp [State.bare, ShellCall.next, ShellCall.isClose, ShellCall.isConnect,
        ShellCall.isCleanup, ShellCall.queued?]
    · cases found
      exact Disk.endsInName_of_isFile grounded isFile

theorem done_attempt (address : Address) (call : ShellCall)
    {site : Site (State (Recorded Launched ρ))} (fresh : site.remote.server.record = []) :
    Done address call (call.attempt (channel address (logging launcher)) site).1 site.remote
      (call.attempt (channel address (logging launcher)) site).2.remote := by
  have unqueued : ∀ entry : Pending, none = some entry → entry.file.EndsInName :=
    fun entry found => by cases found
  cases call with
  | connect =>
    refine .of_other rfl ((connect_spec launcher address site).trans ?_) (fun no => by cases no)
      unqueued
    simp [ShellCall.next, ShellCall.isClose, ShellCall.isConnect, ShellCall.isCleanup,
      ShellCall.queued?]
    rfl
  | close =>
    refine .of_other rfl ?_ (fun no => by cases no) unqueued
    simp [ShellCall.next, ShellCall.isClose, ShellCall.isCleanup, ShellCall.queued?]
    rfl
  | enqueue kind file disk grounded => exact done_enqueue address kind file grounded site
  | cleanup =>
    refine .of_other rfl ((cleanup_spec launcher address site).trans ?_) (fun _ => rfl) unqueued
    simp [ShellCall.next, ShellCall.isClose, ShellCall.isConnect, ShellCall.isCleanup]
  | exportAsset kind name directory disk =>
    obtain ⟨kept, launched, logged, connected⟩ :=
      runs_exportAsset launcher address kind name directory { disk, site }
    exact .of_command rfl fresh kept logged connected fun other => by cases other
  | importFiles =>
    obtain ⟨kept, launched, logged, connected, submitted⟩ := runs_importFiles launcher address site
    exact .of_command rfl fresh kept logged connected fun _ => submitted
  | share name groups =>
    obtain ⟨kept, launched, logged, connected⟩ :=
      runs_sharing launcher address "share" name groups site
    exact .of_command rfl fresh kept logged connected fun other => by cases other
  | unshare name groups =>
    obtain ⟨kept, launched, logged, connected⟩ :=
      runs_sharing launcher address "unshare" name groups site
    exact .of_command rfl fresh kept logged connected fun other => by cases other

/-! ## What a history of calls shows -/

theorem queuedSince_concat (steps : List Step) (step : Step) :
    queuedSince (steps ++ [step]) =
      if step.call.isCleanup then []
      else queuedSince steps ++ (step.call.queued? step.succeeded).toList := by
  unfold queuedSince
  rw [List.rtakeWhile_concat]
  cases step.call.isCleanup with
  | true => rfl
  | false => cases found : step.call.queued? step.succeeded <;> simp [found]

/-- The channel stays connected until it is closed. -/
theorem Connected.concat {step : Step} (connected : Connected steps)
    (unclosed : step.call ≠ .close) : Connected (steps ++ [step]) := by
  obtain ⟨before, connect, between, rfl, isConnect, succeeded, others⟩ := connected
  refine ⟨before, connect, between ++ [step], by simp, isConnect, succeeded, ?_⟩
  intro other member
  rcases List.mem_append.1 member with early | last
  · exact others other early
  · rw [List.mem_singleton.1 last]
    exact unclosed

theorem connected_concat {step : Step} (isConnect : step.call = .connect)
    (succeeded : step.succeeded = true) : Connected (steps ++ [step]) :=
  ⟨steps, step, [], rfl, isConnect, succeeded, by simp⟩

/-- The programs of an import that has reached its line of commands.  Every file is imported from
where it was copied, and kinds and names tell the places apart. -/
structure Delivered (address : Address) (directory : String) (pending : List Pending)
    (launched : List Launched) : Prop where
  consigned : Consigned address directory pending launched
  named : ∀ entry ∈ pending,
    remoteFile directory entry = landing (folder directory entry.kind) entry.file
  distinct : ∀ first ∈ pending, ∀ second ∈ pending,
    first.kind ≠ second.kind ∨ first.file.fileName? ≠ second.file.fileName? →
      remoteFile directory first ≠ remoteFile directory second

/-- The call is in keeping with the calls before it. -/
structure InKeeping (address : Address) (directory : String) (earlier : List Step) (step : Step) :
    Prop where
  commanded : step.call.isCommand = true → step.launched ≠ [] → Connected earlier
  pending : step.pending = queuedSince (earlier ++ [step])
  unchanged : step.succeeded = false → step.pending = queuedSince earlier
  delivered : step.call = .importFiles →
    (∃ run ∈ step.launched.tail, run.invocation.program = "ssh") ∨
        (step.succeeded = true ∧ queuedSince earlier ≠ []) →
      Delivered address directory (queuedSince earlier) step.launched

/-- The state of the channel is the one that the calls tell, and every call was in keeping with
those before it. -/
structure Consistent (address : Address) (directory : String) (history : History ρ) : Prop where
  scratch : history.site.remote.directory = directory
  connected : history.site.remote.connected = true → Connected history.steps
  pending : history.site.remote.pending = queuedSince history.steps
  named : ∀ entry ∈ queuedSince history.steps, entry.file.EndsInName
  inKeeping : ∀ earlier step later, history.steps = earlier ++ step :: later →
    InKeeping address directory earlier step

/-- Files whose paths end in names arrive under them. -/
theorem Consigned.delivered (consigned : Consigned address directory pending launched)
    (named : ∀ entry ∈ pending, entry.file.EndsInName) :
    Delivered address directory pending launched where
  consigned := consigned
  named entry member := (landing_folder directory (named entry member)).symm
  distinct first member second memberToo different same := by
    have alike := (remoteFile_inj (named first member) (named second memberToo)).1 same
    rcases different with kinds | names
    · exact kinds alike.1
    · exact names alike.2

variable {history : History ρ}

/-- What a call does is in keeping with the calls that tell the state before it. -/
theorem Consistent.inKeeping_of_done (consistent : Consistent address directory history)
    {after : State (Recorded Launched ρ)}
    (done : Done address call succeeded (unlogged history.site).remote after) :
    InKeeping address directory history.steps
      ⟨call, succeeded, after.server.record, after.pending⟩ := by
  have pending : after.pending = if call.isCleanup then []
      else queuedSince history.steps ++ (call.queued? succeeded).toList := by
    rw [← consistent.pending]
    exact congrArg State.pending done.next
  refine ⟨fun command launched => ?_, ?_, fun failed => ?_, fun isImport reached => ?_⟩
  · exact consistent.connected (done.commanded command launched)
  · rw [queuedSince_concat]
    exact pending
  · change succeeded = false at failed
    subst failed
    have kept : call.isCleanup = false := by
      cases cleans : call.isCleanup with
      | false => rfl
      | true => exact (done.cleaned cleans).symm
    rw [pending, kept, ShellCall.queued?_false]
    exact List.append_nil _
  · rw [← consistent.scratch, ← consistent.pending]
    rw [← consistent.pending] at reached
    refine (done.submitted isImport reached).delivered ?_
    rw [show (unlogged history.site).remote.pending = _ from consistent.pending]
    exact consistent.named

theorem Consistent.perform (consistent : Consistent address directory history)
    (call : ShellCall) : Consistent address directory (history.perform address launcher call) := by
  have done := done_attempt launcher address call
    (show (unlogged history.site).remote.server.record = [] from rfl)
  unfold History.perform
  cases attempted : call.attempt (channel address (logging launcher)) (unlogged history.site) with
  | mk succeeded after =>
    rw [attempted] at done
    have inKeeping := consistent.inKeeping_of_done done
    refine ⟨(congrArg State.directory done.next).trans consistent.scratch, fun opened => ?_,
      inKeeping.pending, fun entry member => ?_, fun earlier step later whole => ?_⟩
    · have stays := (congrArg State.connected done.next).symm.trans opened
      simp only [ShellCall.next, Bool.and_eq_true, Bool.not_eq_true',
        ShellCall.isClose_eq_false_iff, Bool.or_eq_true, ShellCall.isConnect_iff] at stays
      obtain ⟨unclosed, was | ⟨isConnect, connected⟩⟩ := stays
      · exact (consistent.connected was).concat unclosed
      · exact connected_concat isConnect connected
    · rw [queuedSince_concat] at member
      split at member
      · cases member
      · rcases List.mem_append.1 member with early | last
        · exact consistent.named entry early
        · exact done.named entry (Option.mem_toList.1 last)
    · rcases List.eq_nil_or_concat later with rfl | ⟨between, last, rfl⟩
      · obtain ⟨rfl, same⟩ := List.append_inj' whole rfl
        cases same
        exact inKeeping
      · rw [List.concat_eq_append, ← List.cons_append, ← List.append_assoc] at whole
        exact consistent.inKeeping earlier step between (List.append_inj' whole rfl).1

theorem Consistent.performAll (consistent : Consistent address directory history)
    (calls : List ShellCall) :
    Consistent address directory (history.performAll address launcher calls) := by
  induction calls generalizing history with
  | nil => exact consistent
  | cons call rest ih => exact ih (consistent.perform launcher call)

end OpsContent.Ssh
