import OpsContent.Batch
import OpsContent.Remote.Channel
import OpsContent.Remote.Query
import OpsContent.Remote.Recorder

/-!
# What steps keep

A step keeps a property of the state if the property holds after it whenever it held before,
whether the step failed or not.  A property that the basic steps keep is kept by everything that
is made of them, so that an invariant of a whole export is proved one operation at a time.
-/

namespace OpsContent

variable {σ ε α β : Type} {invariant : σ → Prop} {step : ExceptT ε (StateM σ) α}
  {next : α → ExceptT ε (StateM σ) β} {state : σ} {after between : σ} {value first : α}
  {outcome : Except ε α} {cause : ε}

/-- The property holds after the step if it held before. -/
def Keeps (invariant : σ → Prop) (step : StateM σ α) : Prop :=
  ∀ state, invariant state → invariant (step state).2

/-- What a step keeps still holds once it has run. -/
theorem Keeps.ran {step : StateM σ α} (kept : Keeps invariant step) (holds : invariant state)
    (ran : step state = (value, after)) : invariant after := by
  have held := kept state holds
  rwa [ran] at held

/-- If the step succeeds, its value meets the condition. -/
def Yields (step : ExceptT ε (StateM σ) α) (condition : α → Prop) : Prop :=
  ∀ state value after, step state = (.ok value, after) → condition value

/-- The server has the property. -/
def World.Has {ρ : Type} (property : ρ → Prop) (world : World ρ) : Prop :=
  property world.site.remote

theorem eq_mk_of_fst_eq {pair : α × β} (isFirst : pair.1 = first) : pair = (first, pair.2) := by
  rw [← isFirst]

theorem bind_eq_ok {next : α → Except ε β} {value : β} (done : outcome >>= next = .ok value) :
    ∃ first, outcome = .ok first ∧ next first = .ok value := by
  cases outcome with
  | error cause => cases done
  | ok first => exact ⟨first, rfl, done⟩

theorem exceptBind_apply (step : ExceptT ε (StateM σ) α) (next : α → ExceptT ε (StateM σ) β)
    (state : σ) :
    (step >>= next) state =
      match step state with
      | (.ok value, after) => next value after
      | (.error cause, after) => (.error cause, after) := by
  change (ExceptT.bind step next) state = _
  simp only [ExceptT.bind, ExceptT.mk, bind, StateT.bind]
  rcases step state with ⟨outcome, after⟩
  cases outcome <;> rfl

/-- What succeeds has succeeded in both steps. -/
theorem exceptBind_ok {value : β} (done : (step >>= next) state = (.ok value, after)) :
    ∃ first between, step state = (.ok first, between) ∧
      next first between = (.ok value, after) := by
  rw [exceptBind_apply] at done
  split at done
  next first between ran => exact ⟨first, between, ran, done⟩
  · cases done

/-- Behind a success comes the next step. -/
theorem exceptBind_of_ok (ran : step state = (.ok first, between)) :
    (step >>= next) state = next first between := by
  rw [exceptBind_apply, ran]

theorem exceptBind_of_error (ran : step state = (.error cause, after)) :
    (step >>= next) state = (.error cause, after) := by
  rw [exceptBind_apply, ran]

theorem exceptBind_error (failed : (step >>= next) state = (.error cause, after)) :
    step state = (.error cause, after) ∨ ∃ first between, step state = (.ok first, between) ∧
      next first between = (.error cause, after) := by
  cases ran : step state with
  | mk outcome between =>
    cases outcome with
    | error first =>
      rw [exceptBind_of_error ran] at failed
      cases failed
      exact Or.inl rfl
    | ok first =>
      rw [exceptBind_of_ok ran] at failed
      exact Or.inr ⟨first, between, rfl, failed⟩

theorem bind_of_eq {step : StateM σ α} {next : α → StateM σ β} (ran : step state = (value, between)) :
    (step >>= next) state = next value between := by
  change next (step state).1 (step state).2 = _
  rw [ran]

theorem always_ok {step : StateM σ α}
    (done : (World.always step : ExceptT ε (StateM σ) α) state = (.ok value, after)) :
    step state = (value, after) := by
  cases done
  rfl

/-- An outcome that is settled changes nothing. -/
theorem settle_ok
    (done : (World.settle outcome : ExceptT ε (StateM σ) α) state = (.ok value, after)) :
    outcome = .ok value ∧ after = state := by
  cases done
  exact ⟨rfl, rfl⟩

theorem look_ok {ρ : Type} {world after : World ρ} {disk : Disk}
    (done : (World.look : Action ρ ε Disk) world = (.ok disk, after)) :
    disk = world.disk ∧ after = world := by
  cases done
  exact ⟨rfl, rfl⟩

/-- A look at the disk hands it on. -/
theorem lookBind_eq {ρ : Type} {world : World ρ} {next : Disk → Action ρ ε β}
    {result : Except ε β × World ρ} (done : (World.look >>= next) world = result) :
    next world.disk world = result :=
  done

theorem settleBind_ok {value : β} (done : (World.settle outcome >>= next) state = (.ok value, after)) :
    ∃ first, outcome = .ok first ∧ next first state = (.ok value, after) := by
  cases outcome with
  | error cause => cases done
  | ok first => exact ⟨first, rfl, done⟩

theorem World.readDisk_eq {ρ : Type} (world : World ρ) :
    World.readDisk world = (world.disk, world) :=
  rfl

theorem pure_ok {result : α}
    (done : (pure value : ExceptT ε (StateM σ) α) state = (.ok result, after)) :
    result = value ∧ after = state := by
  cases done
  exact ⟨rfl, rfl⟩

theorem Yields.andThen {condition : β → Prop} (rest : ∀ value, Yields (next value) condition) :
    Yields (step >>= next) condition := by
  intro state value after ran
  obtain ⟨found, between, -, later⟩ := exceptBind_ok ran
  exact rest found between value after later

namespace Keeps

variable {step : ExceptT ε (StateM σ) α} {next : α → ExceptT ε (StateM σ) β}

protected theorem pure (value : α) : Keeps invariant (pure value : StateM σ α) :=
  fun _ holds => holds

protected theorem bind {step : StateM σ α} {next : α → StateM σ β}
    (first : Keeps invariant step) (rest : ∀ value, Keeps invariant (next value)) :
    Keeps invariant (step >>= next) :=
  fun state holds => rest (step state).1 (step state).2 (first state holds)

theorem succeed (value : α) : Keeps invariant (pure value : ExceptT ε (StateM σ) α) :=
  fun _ holds => holds

theorem fail (cause : ε) : Keeps invariant (throw cause : ExceptT ε (StateM σ) α) :=
  fun _ holds => holds

theorem andThen_at (first : invariant (step state).2)
    (rest : ∀ value after, step state = (.ok value, after) → invariant after →
      invariant (next value after).2) : invariant ((step >>= next) state).2 := by
  rw [exceptBind_apply]
  cases ran : step state with
  | mk outcome after =>
    rw [ran] at first
    cases outcome with
    | error cause => exact first
    | ok value => exact rest value after ran first

theorem andThenWith {condition : α → Prop} (first : Keeps invariant step)
    (yields : Yields step condition)
    (rest : ∀ value, condition value → Keeps invariant (next value)) :
    Keeps invariant (step >>= next : ExceptT ε (StateM σ) β) := by
  intro state holds
  apply andThen_at (first state holds)
  intro value after ran holdsAfter
  exact rest value (yields state value after ran) after holdsAfter

theorem andThen (first : Keeps invariant step) (rest : ∀ value, Keeps invariant (next value)) :
    Keeps invariant (step >>= next : ExceptT ε (StateM σ) β) :=
  andThenWith first (fun _ _ _ _ => trivial : Yields step fun _ => True) fun value _ => rest value

theorem map (kept : Keeps invariant step) (change : α → β) :
    Keeps invariant (change <$> step : ExceptT ε (StateM σ) β) := by
  rw [← bind_pure_comp]
  exact kept.andThen fun _ => succeed _

/-- What counts is the state that a step leaves. -/
theorem of_same {step : StateM σ α} {other : StateM σ β} (kept : Keeps invariant step)
    (same : ∀ state, (other state).2 = (step state).2) : Keeps invariant other := by
  intro state holds
  rw [same state]
  exact kept state holds

theorem settle (outcome : Except ε α) :
    Keeps invariant (World.settle outcome : ExceptT ε (StateM σ) α) :=
  fun _ holds => holds

theorem get : Keeps invariant (get : ExceptT ε (StateM σ) σ) :=
  fun _ holds => holds

theorem forM {work : α → ExceptT ε (StateM σ) Unit} (values : List α)
    (kept : ∀ value ∈ values, Keeps invariant (work value)) :
    Keeps invariant (values.forM work : ExceptT ε (StateM σ) Unit) := by
  induction values with
  | nil => exact succeed ()
  | cons value rest ih =>
    apply andThen (kept value (by simp))
    intro _
    exact ih (List.forall_mem_cons.1 kept).2

end Keeps

/-! ## Steps with a log -/

section

variable {σ ε α β γ δ : Type} {view : σ → List δ} {note : γ → List δ} {state : σ}
  {fits : List γ → α → Prop}

/-- The step adds to the log what is noted of some events, which fit what it comes to. -/
def Logs (view : σ → List δ) (note : γ → List δ) (state : σ) (step : StateM σ α)
    (fits : List γ → α → Prop) : Prop :=
  ∃ added, view (step state).2 = view state ++ added.flatMap note ∧ fits added (step state).1

namespace Logs

theorem silent {step : StateM σ α} (same : view (step state).2 = view state)
    (holds : fits [] (step state).1) : Logs view note state step fits :=
  ⟨[], by rw [same, List.flatMap_nil, List.append_nil], holds⟩

protected theorem bind {step : StateM σ α} {next : α → StateM σ β} {fits : List γ → α → Prop}
    {fitsAll : List γ → β → Prop} (first : Logs view note state step fits)
    (rest : ∀ added value, fits added value →
      Logs view note (step state).2 (next value) fun more => fitsAll (added ++ more)) :
    Logs view note state (step >>= next) fitsAll := by
  obtain ⟨added, logged, holds⟩ := first
  obtain ⟨more, loggedMore, holdsAll⟩ := rest added _ holds
  refine ⟨added ++ more, ?_, holdsAll⟩
  rw [List.flatMap_append, ← List.append_assoc, ← logged]
  exact loggedMore

theorem behind {step : StateM σ α} {next : α → StateM σ β} {fits : List γ → β → Prop}
    (same : view (step state).2 = view state)
    (rest : Logs view note (step state).2 (next (step state).1) fits) :
    Logs view note state (step >>= next) fits := by
  obtain ⟨added, logged, holds⟩ := rest
  exact ⟨added, by rw [← same]; exact logged, holds⟩

theorem afterOk {step : ExceptT ε (StateM σ) α} {next : α → ExceptT ε (StateM σ) β} {between : σ}
    {value : α} {fits : List γ → Except ε β → Prop} (ran : step state = (.ok value, between))
    (same : view between = view state) (rest : Logs view note between (next value) fits) :
    Logs view note state (step >>= next : ExceptT ε (StateM σ) β) fits := by
  unfold Logs at rest ⊢
  rwa [exceptBind_of_ok ran, ← same]

theorem andThen {step : ExceptT ε (StateM σ) α} {next : α → ExceptT ε (StateM σ) β}
    {fits : List γ → Except ε α → Prop} {fitsAll : List γ → Except ε β → Prop}
    (first : Logs view note state step fits)
    (failed : ∀ added cause, fits added (.error cause) → fitsAll added (.error cause))
    (rest : ∀ added value, fits added (.ok value) →
      Logs view note (step state).2 (next value) fun more => fitsAll (added ++ more)) :
    Logs view note state (step >>= next : ExceptT ε (StateM σ) β) fitsAll := by
  have all : Logs view note state (step >>= ExceptT.bindCont next : StateM σ (Except ε β))
      fitsAll := by
    refine first.bind fun added outcome holds => ?_
    cases outcome with
    | ok value => exact rest added value holds
    | error cause =>
      refine .silent rfl ?_
      rw [List.append_nil]
      exact failed added cause holds
  exact all

theorem always {step : StateM σ α} (logs : Logs view note state step fits) :
    Logs view note state (World.always step : ExceptT ε (StateM σ) α) fun added outcome =>
      ∃ value, outcome = .ok value ∧ fits added value := by
  obtain ⟨added, logged, holds⟩ := logs
  exact ⟨added, logged, _, rfl, holds⟩

theorem mono {step : StateM σ α} {weaker : List γ → α → Prop}
    (logs : Logs view note state step fits)
    (imp : ∀ added value, fits added value → weaker added value) :
    Logs view note state step weaker := by
  obtain ⟨added, logged, holds⟩ := logs
  exact ⟨added, logged, imp added _ holds⟩

end Logs

variable {φ : Type} {frame : σ → φ}

/-- A step with a log that leaves what the frame shows of the state. -/
structure LogsKeeping (frame : σ → φ) (view : σ → List δ) (note : γ → List δ) (state : σ)
    (step : StateM σ α) (fits : List γ → α → Prop) : Prop where
  kept : frame (step state).2 = frame state
  logs : Logs view note state step fits

namespace LogsKeeping

theorem silent {step : StateM σ α} (kept : frame (step state).2 = frame state)
    (same : view (step state).2 = view state) (holds : fits [] (step state).1) :
    LogsKeeping frame view note state step fits :=
  ⟨kept, .silent same holds⟩

theorem succeed {value : α} {fits : List γ → Except ε α → Prop} (holds : fits [] (.ok value)) :
    LogsKeeping frame view note state (pure value : ExceptT ε (StateM σ) α) fits :=
  .silent rfl rfl holds

theorem fail {cause : ε} {fits : List γ → Except ε α → Prop} (holds : fits [] (.error cause)) :
    LogsKeeping frame view note state (throw cause : ExceptT ε (StateM σ) α) fits :=
  .silent rfl rfl holds

theorem mono {step : StateM σ α} {weaker : List γ → α → Prop}
    (keeping : LogsKeeping frame view note state step fits)
    (imp : ∀ added value, fits added value → weaker added value) :
    LogsKeeping frame view note state step weaker :=
  ⟨keeping.kept, keeping.logs.mono imp⟩

protected theorem bind {step : StateM σ α} {next : α → StateM σ β} {fitsAll : List γ → β → Prop}
    (first : LogsKeeping frame view note state step fits)
    (rest : ∀ added value, fits added value → frame (step state).2 = frame state →
      LogsKeeping frame view note (step state).2 (next value) fun more => fitsAll (added ++ more)) :
    LogsKeeping frame view note state (step >>= next) fitsAll := by
  obtain ⟨kept, added, logged, holds⟩ := first
  refine ⟨(rest added _ holds kept).kept.trans kept, Logs.bind ⟨added, logged, holds⟩ ?_⟩
  exact fun added value fits => (rest added value fits kept).logs

/-- Behind a failure nothing is done. -/
theorem andThen {step : ExceptT ε (StateM σ) α} {next : α → ExceptT ε (StateM σ) β}
    {fits : List γ → Except ε α → Prop} {fitsAll : List γ → Except ε β → Prop}
    (first : LogsKeeping frame view note state step fits)
    (failed : ∀ added cause, fits added (.error cause) → fitsAll added (.error cause))
    (rest : ∀ added value, fits added (.ok value) → frame (step state).2 = frame state →
      LogsKeeping frame view note (step state).2 (next value) fun more => fitsAll (added ++ more)) :
    LogsKeeping frame view note state (step >>= next : ExceptT ε (StateM σ) β) fitsAll := by
  have all : LogsKeeping frame view note state
      (step >>= ExceptT.bindCont next : StateM σ (Except ε β)) fitsAll := by
    refine first.bind fun added outcome holds kept => ?_
    cases outcome with
    | ok value => exact rest added value holds kept
    | error cause =>
      refine .silent rfl rfl ?_
      rw [List.append_nil]
      exact failed added cause holds
  exact all

theorem afterOk {step : ExceptT ε (StateM σ) α} {next : α → ExceptT ε (StateM σ) β} {between : σ}
    {value : α} {fits : List γ → Except ε β → Prop} (ran : step state = (.ok value, between))
    (kept : frame between = frame state) (same : view between = view state)
    (rest : LogsKeeping frame view note between (next value) fits) :
    LogsKeeping frame view note state (step >>= next : ExceptT ε (StateM σ) β) fits := by
  refine ⟨?_, .afterOk ran same rest.logs⟩
  rw [exceptBind_of_ok ran, ← kept]
  exact rest.kept

theorem ofError {step : ExceptT ε (StateM σ) α} {next : α → ExceptT ε (StateM σ) β} {cause : ε}
    {fits : List γ → Except ε β → Prop} (failed : step state = (.error cause, state))
    (holds : fits [] (.error cause)) :
    LogsKeeping frame view note state (step >>= next : ExceptT ε (StateM σ) β) fits := by
  apply silent <;> rw [exceptBind_of_error failed]
  exact holds

end LogsKeeping

end

namespace Recorded

variable {ε ρ α : Type} (world : World (Recorded ε ρ))

theorem logs_ask (entry : Except RemoteError α → ε) (step : QueryAction ρ α) :
    LogsKeeping World.disk (·.site.remote.record) ([·]) world (Query.ask (noting entry step))
      fun made outcome => ∃ answer, made = [entry answer] ∧
        outcome = answer.mapError SyncError.remote := by
  cases ran : step (inside.narrow world.site) with
  | mk answer after =>
    have asked : Query.ask (noting entry step) world = (answer.mapError SyncError.remote,
        { world with site := add (entry answer) (inside.widen world.site.remote after) }) := by
      unfold Query.ask World.onSite noting Part.onSite
      rw [ran]
      cases answer <;> rfl
    refine ⟨?_, [entry answer], ?_, answer, rfl, ?_⟩ <;> rw [asked]
    rfl

theorem logs_run (package : Package) (description : String) (words : ChannelError → String)
    (entry : Except ChannelError α → ε) (step : ChannelAction ρ α) :
    Logs (·.site.remote.record) ([·]) world
      (Channel.run package description words (World.onSite (noting entry step)))
      fun made outcome => ∃ answer, made = [entry answer] ∧ outcome = answer.mapError fun cause =>
        SyncError.connection package.fullName description (words cause) := by
  unfold Logs Channel.run World.onSite noting Part.onSite
  cases step (inside.narrow world.site) with
  | mk answer after => cases answer <;> exact ⟨_, rfl, _, rfl, rfl⟩

end Recorded

end OpsContent
