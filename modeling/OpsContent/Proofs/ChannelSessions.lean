import OpsContent.Proofs.QueuedBatches

/-!
# Sessions of the command channel

A channel is connected for a session and closed behind it.  A small automaton follows the calls of
a channel and tells whether a session is open: exports and imports move it from outside of a
session to outside of a session, wherever they fail, and every call is one it has a move for.
-/

namespace OpsContent

variable {ρ α : Type}

/-! ## Calls of a channel -/

/-- A call of a channel.  Of the answers only that to a connect is kept. -/
inductive ChannelCall where
  | connect (accepted : Bool)
  | close
  | exportAsset (kind : ChannelKind) (name : String) (directory : Path)
  | enqueue (kind : ChannelKind) (file : Path)
  | importFiles
  | share (name : String) (groups : List String)
  | unshare (name : String) (groups : List String)
  | cleanup
  deriving DecidableEq

namespace ChannelCall

variable {calls : List ChannelCall}

def isConnect : ChannelCall → Bool
  | .connect _ => true
  | _ => false

/-- Does the call need a connection? -/
def isCommand : ChannelCall → Bool
  | .exportAsset .. | .importFiles | .share .. | .unshare .. => true
  | _ => false

/-- Whether a session is open behind a call, if the call is in its place. -/
def advance : Bool → ChannelCall → Option Bool
  | false, .connect accepted => some accepted
  | false, .enqueue .. | false, .cleanup => some false
  | true, .close => some false
  | true, .exportAsset .. | true, .importFiles | true, .share .. | true, .unshare .. => some true
  | _, _ => none

/-- Follow calls from one state of the connection. -/
def advanceAll : Bool → List ChannelCall → Option Bool
  | opened, [] => some opened
  | opened, call :: rest => (advance opened call).bind (advanceAll · rest)

/-- How often the channel is closed before it connects again. -/
def closes (calls : List ChannelCall) : Nat :=
  (calls.takeWhile fun call => !call.isConnect).count .close

/-- Every successful connect is followed by exactly one close before the next connect and before
the end, a failed one by none, and every command lies in a session: behind a successful connect,
with nothing but commands in between, and before its close. -/
structure WellBracketed (calls : List ChannelCall) : Prop where
  unopened : closes calls = 0
  connected : ∀ earlier later, calls = earlier ++ .connect true :: later → closes later = 1
  refused : ∀ earlier later, calls = earlier ++ .connect false :: later → closes later = 0
  command : ∀ earlier call later, calls = earlier ++ call :: later → call.isCommand = true →
    closes later = 1 ∧ ∃ before session, earlier = before ++ .connect true :: session ∧
      ∀ other ∈ session, other.isCommand = true

theorem advanceAll_append (opened : Bool) (first rest : List ChannelCall) :
    advanceAll opened (first ++ rest) = (advanceAll opened first).bind (advanceAll · rest) := by
  induction first generalizing opened with
  | nil => rfl
  | cons call first ih =>
    rw [List.cons_append, advanceAll, advanceAll, Option.bind_assoc]
    simp only [ih]

theorem advanceAll_concat {opened between after : Bool} {call : ChannelCall}
    (reached : advanceAll opened calls = some between) (moved : advance between call = some after) :
    advanceAll opened (calls ++ [call]) = some after := by
  simp [advanceAll_append, reached, advanceAll, moved]

theorem closes_of_advanceAll {opened : Bool} (ended : advanceAll opened calls = some false) :
    closes calls = opened.toNat := by
  induction calls generalizing opened with
  | nil =>
    cases ended
    rfl
  | cons call rest ih =>
    obtain ⟨next, moved, later⟩ := Option.bind_eq_some_iff.1 ended
    have followed := ih later
    cases opened <;> cases call <;> cases moved <;> simp_all [closes, isConnect]

theorem exists_session_of_advanceAll (reached : advanceAll false calls = some true) :
    ∃ before session, calls = before ++ .connect true :: session ∧
      ∀ other ∈ session, other.isCommand := by
  induction calls using List.reverseRecOn with
  | nil => cases reached
  | append_singleton calls last ih =>
    rw [advanceAll_append] at reached
    obtain ⟨opened, earlier, ended⟩ := Option.bind_eq_some_iff.1 reached
    obtain ⟨_, moved, ⟨⟩⟩ := Option.bind_eq_some_iff.1 ended
    cases opened with
    | false =>
      cases last <;> cases moved
      exact ⟨calls, [], rfl, by simp⟩
    | true =>
      have command : last.isCommand := by
        cases last <;> cases moved <;> rfl
      obtain ⟨before, session, rfl, commands⟩ := ih earlier
      refine ⟨before, session ++ [last], by simp, fun other member => ?_⟩
      rcases List.mem_append.1 member with early | isLast
      · exact commands other early
      · rw [List.mem_singleton.1 isLast]
        exact command

/-- Calls that the automaton takes from outside of a session to outside of a session are well
bracketed. -/
theorem wellBracketed_of_advanceAll (ended : advanceAll false calls = some false) :
    WellBracketed calls := by
  have split : ∀ earlier call later, calls = earlier ++ call :: later →
      ∃ opened next, advanceAll false earlier = some opened ∧ advance opened call = some next ∧
        closes later = next.toNat := by
    rintro earlier call later rfl
    rw [advanceAll_append] at ended
    obtain ⟨opened, reached, rest⟩ := Option.bind_eq_some_iff.1 ended
    obtain ⟨next, moved, left⟩ := Option.bind_eq_some_iff.1 rest
    exact ⟨opened, next, reached, moved, closes_of_advanceAll left⟩
  refine ⟨closes_of_advanceAll ended, fun earlier later whole => ?_,
    fun earlier later whole => ?_, fun earlier call later whole command => ?_⟩
  · obtain ⟨opened, next, -, moved, closed⟩ := split _ _ _ whole
    cases opened <;> cases moved
    exact closed
  · obtain ⟨opened, next, -, moved, closed⟩ := split _ _ _ whole
    cases opened <;> cases moved
    exact closed
  · obtain ⟨opened, next, reached, moved, closed⟩ := split _ _ _ whole
    cases opened with
    | false => cases call <;> cases command <;> cases moved
    | true =>
      have stays : next := by cases call <;> cases command <;> cases moved <;> rfl
      rw [stays] at closed
      exact ⟨closed, exists_session_of_advanceAll reached⟩

end ChannelCall

/-! ## Recording the calls -/

namespace ChannelCall

open Recorded

/-- A channel whose calls are recorded. -/
def channel (channel : Channel ρ) : Channel (Recorded ChannelCall ρ) where
  describe := fun recorded => channel.describe recorded.server
  queued := fun recorded => channel.queued recorded.server
  connect := noting (fun outcome => .connect outcome.toBool) channel.connect
  close := noting (fun _ => .close) channel.close
  exportAsset := fun kind name directory =>
    notingOnWorld (.exportAsset kind name directory) (channel.exportAsset kind name directory)
  enqueue := fun kind file disk =>
    noting (fun _ => .enqueue kind file) (channel.enqueue kind file disk)
  importFiles := noting (fun _ => .importFiles) channel.importFiles
  share := fun name groups => noting (fun _ => .share name groups) (channel.share name groups)
  unshare := fun name groups => noting (fun _ => .unshare name groups) (channel.unshare name groups)
  cleanup := noting (fun _ => .cleanup) channel.cleanup

def Stands (before : List ChannelCall) (opened : Bool) (recorded : Recorded ChannelCall ρ) : Prop :=
  ∃ calls, recorded.record = before ++ calls ∧ advanceAll false calls = some opened

variable {before : List ChannelCall} {opened next : Bool}

theorem Stands.add {site : Site (Recorded ChannelCall ρ)}
    (stands : Site.Has (Stands before opened) site) {call : ChannelCall} (moved : advance opened call = some next) :
    Site.Has (Stands before next) (add call site) := by
  obtain ⟨calls, whole, reached⟩ := stands
  refine ⟨calls ++ [call], ?_, advanceAll_concat reached moved⟩
  change site.remote.record ++ [call] = _
  rw [whole, List.append_assoc]

theorem leads_noting (call : α → ChannelCall) (step : StateM (Site ρ) α)
    (moved : ∀ value, advance opened (call value) = some next) :
    Leads (Site.Has (Stands before opened)) (Site.Has (Stands before next)) (noting call step) :=
  fun _ stands => Stands.add stands (moved _)

theorem leads_onSite_noting (call : α → ChannelCall) (step : StateM (Site ρ) α)
    (moved : ∀ value, advance opened (call value) = some next) :
    Leads (World.Has (Stands before opened)) (World.Has (Stands before next))
      (World.onSite (noting call step)) :=
  fun world => leads_noting call step moved world.site

theorem keeps_inside (step : StateM (Site ρ) α) :
    Keeps (Site.Has (Stands before opened)) (inside.onSite step) :=
  fun _ stands => stands

theorem maintains_query (query : Query ρ) :
    (inside.query query).Maintains (Stands before opened) :=
  Part.maintains Empty.elim (fun index => index.elim) fun _ => keeps_inside _

variable (base : Channel ρ)

theorem frames_channel :
    (channel base).Frames (World.Has (Stands before false)) (World.Has (Stands before true))
      (World.Has (Stands before true)) (World.Has (Stands before false)) := by
  have connect : ∀ (world : World (Recorded ChannelCall ρ)) outcome site,
      (channel base).connect world.site = (outcome, site) →
        World.Has (Stands before false) world → Site.Has (Stands before outcome.toBool) site := by
    intro world outcome site ran stands
    have answered : (base.connect (inside.narrow world.site)).1 = outcome := congrArg Prod.fst ran
    have recorded : add _ _ = site := congrArg Prod.snd ran
    rw [← recorded, ← answered]
    exact Stands.add (keeps_inside base.connect world.site stands) rfl
  refine ⟨fun world stands site ran => connect world _ site ran stands,
    fun world stands cause site ran => connect world _ site ran stands, ?_⟩
  exact leads_onSite_noting (fun _ => .close) base.close fun _ => rfl

theorem keeps_exportAsset (kind : ChannelKind) (name : String) (directory : Path) :
    Keeps (World.Has (Stands before true)) ((channel base).exportAsset kind name directory) :=
  fun _ stands => Stands.add stands rfl

end ChannelCall

/-! ## Exports and imports -/

namespace Synchronizer

open ChannelCall Recorded

variable {world : World (Recorded ChannelCall ρ)}

/-- The calls of the channel are recorded. -/
def recorded (synchronizer : Synchronizer ρ) : Synchronizer (Recorded ChannelCall ρ) where
  query := inside.query synchronizer.query
  channel := ChannelCall.channel synchronizer.channel
  scratch := synchronizer.scratch

variable {before : List ChannelCall} (synchronizer : Synchronizer ρ)

theorem keeps_exportPackage_recorded (package : Package) (descriptor : Descriptor)
    (dryRun : Bool) :
    Keeps (World.Has (Stands before false))
      (synchronizer.recorded.exportPackage package descriptor dryRun) :=
  keeps_exportPackage (maintains_query synchronizer.query).toListsWith
    (frames_channel synchronizer.channel) (keeps_exportAsset synchronizer.channel) package
    descriptor dryRun

theorem keeps_importAll_recorded (package : Package) (dryRun : Bool) (staging : Path) :
    Keeps (World.Has (Stands before false))
      (Import.importAll (synchronizer.recorded.importContext package dryRun staging)) := by
  have frames := @frames_channel ρ before synchronizer.channel
  refine Import.leads_importAll_of_calls (fun _ holds => holds) (fun kind name disk => ?_) frames ?_
    (maintains_query _) (maintains_query _) frames (fun name groups => ?_) fun name groups => ?_
  · exact leads_noting (fun _ => .enqueue kind _) (synchronizer.channel.enqueue kind _ disk)
      fun _ => rfl
  · exact leads_noting (fun _ => .importFiles) synchronizer.channel.importFiles fun _ => rfl
  · exact leads_noting (fun _ => .share name groups) (synchronizer.channel.share name groups)
      fun _ => rfl
  · exact leads_noting (fun _ => .unshare name groups) (synchronizer.channel.unshare name groups)
      fun _ => rfl

theorem keeps_importPackage_recorded (package : Package) (dryRun : Bool) :
    Keeps (World.Has (Stands before false))
      (synchronizer.recorded.importPackage package dryRun) :=
  leads_importPackage (fun _ stands => stands)
    (fun _ => synchronizer.keeps_importAll_recorded package dryRun _)
    (leads_noting (fun _ => .cleanup) synchronizer.channel.cleanup fun _ => rfl)

/-- Sessions are well bracketed.  Whatever the server answers and whatever fails, every export and
every import adds well-bracketed calls to those of the channel, so that no session outlasts the
call that opened it, and so does every sequence of them. -/
theorem sessions_wellBracketed (synchronizer : Synchronizer ρ)
    (world : World (Recorded ChannelCall ρ)) :
    (∀ operation, ∃ calls,
      (synchronizer.recorded.perform operation world).site.remote.record =
        world.site.remote.record ++ calls ∧ WellBracketed calls) ∧
    ∀ operations, ∃ calls,
      (synchronizer.recorded.performAll operations world).site.remote.record =
        world.site.remote.record ++ calls ∧ WellBracketed calls := by
  have start : World.Has (Stands world.site.remote.record false) world :=
    ⟨[], by rw [List.append_nil], rfl⟩
  have all : ∀ operations, World.Has (Stands world.site.remote.record false)
      (synchronizer.recorded.performAll operations world) := fun operations =>
    @leads_performAll _ _ (fun _ => World.Has (Stands world.site.remote.record false))
      (fun _ _ _ _ => id)
      (fun _ => synchronizer.keeps_exportPackage_recorded)
      (fun _ => synchronizer.keeps_importPackage_recorded) [] world start operations
  refine ⟨fun operation => ?_, fun operations => ?_⟩
  · obtain ⟨calls, whole, ended⟩ := all [operation]
    exact ⟨calls, whole, wellBracketed_of_advanceAll ended⟩
  · obtain ⟨calls, whole, ended⟩ := all operations
    exact ⟨calls, whole, wellBracketed_of_advanceAll ended⟩

end Synchronizer

end OpsContent
