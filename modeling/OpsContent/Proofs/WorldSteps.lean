import OpsContent.Proofs.Steps

/-!
# From one property to another

Some steps do not keep a property but lead to another one: a session opens a channel and closes
it, a submission sends what was queued.  What an export or import does to a property of the world
is put together here from what its calls do, for every property that does not look at the log.
-/

namespace OpsContent

/-- The step leads from states with the one property to states with the other, whether it failed
or not. -/
def Leads {σ α : Type} (before after : σ → Prop) (step : StateM σ α) : Prop :=
  ∀ state, before state → after (step state).2

namespace Leads

variable {σ ε α β : Type} {before between after : σ → Prop}

theorem andThen {step : ExceptT ε (StateM σ) α} {next : α → ExceptT ε (StateM σ) β}
    (first : Leads before between step) (failed : ∀ state, between state → after state)
    (rest : ∀ value, Leads between after (next value)) :
    Leads before after (step >>= next : ExceptT ε (StateM σ) β) := by
  intro state holds
  have reached := first state holds
  rw [exceptBind_apply]
  cases ran : step state with
  | mk outcome later =>
    rw [ran] at reached
    cases outcome with
    | error cause => exact failed later reached
    | ok value => exact rest value later reached

theorem concluding {steps : ExceptT ε (StateM σ) α} {last : StateM σ Unit}
    (first : Leads before between steps) (second : Leads between after last) :
    Leads before after (World.concluding steps last) :=
  fun state holds => second _ (first state holds)

end Leads

theorem Yields.andThenWith {σ ε α β : Type} {step : ExceptT ε (StateM σ) α}
    {next : α → ExceptT ε (StateM σ) β} {between : α → Prop} {condition : β → Prop}
    (first : Yields step between) (rest : ∀ value, between value → Yields (next value) condition) :
    Yields (step >>= next) condition := by
  intro state value after ran
  obtain ⟨found, middle, early, later⟩ := exceptBind_ok ran
  exact rest found (first state found middle early) middle value after later

theorem Yields.succeed {σ ε α : Type} {value : α} {condition : α → Prop} (holds : condition value) :
    Yields (pure value : ExceptT ε (StateM σ) α) condition := by
  intro state found after ran
  cases ran
  exact holds

theorem Yields.concluding {σ ε α : Type} {steps : ExceptT ε (StateM σ) α} {last : StateM σ Unit}
    {condition : α → Prop} (yields : Yields steps condition) :
    Yields (World.concluding steps last) condition := by
  intro state value after ran
  unfold World.concluding at ran
  cases worked : steps state with
  | mk outcome between =>
    rw [worked] at ran
    cases ran
    exact yields state value between worked

variable {ρ α : Type}

/-- Messages of the log do not matter to the property. -/
def IgnoresLog (property : World ρ → Prop) : Prop :=
  ∀ severity message, Keeps property (World.onSite (Site.note severity message))

/-- The second world differs from the first at most in its log. -/
def World.Quiet (world after : World ρ) : Prop :=
  ∀ property : World ρ → Prop, IgnoresLog property → property world → property after

namespace Keeps

variable {property : World ρ → Prop}

theorem ask {step : QueryAction ρ α} (kept : Keeps property (World.onSite step)) :
    Keeps property (Query.ask step) := by
  apply kept.of_same
  intro world
  unfold Query.ask
  split <;> simp_all

theorem files {steps : DiskAction α} (kept : Keeps property (World.onDisk steps)) :
    Keeps property (World.files steps : Sync ρ α) := by
  apply kept.of_same
  intro world
  unfold World.files
  split <;> simp_all

/-- One item of a batch keeps what its work keeps. -/
theorem item (ignores : IgnoresLog property) (kind : AssetKind) (name : String)
    {work : Sync ρ Unit} (kept : Keeps property work) :
    Keeps property (Batch.item kind name work) := by
  intro world holds
  have after := kept world holds
  unfold Batch.item
  split
  next ran => rwa [ran] at after
  next cause failed ran =>
    rw [ran] at after
    exact ignores _ _ failed after

theorem each (ignores : IgnoresLog property) (kind : AssetKind) (name : α → String)
    {work : α → Sync ρ Unit} {values : List α}
    (kept : ∀ value ∈ values, Keeps property (work value))
    (report : Batch.Report) : Keeps property (Batch.each kind name work report values) := by
  induction values generalizing report with
  | nil => exact .pure report
  | cons value rest ih =>
    apply Keeps.bind (item ignores kind (name value) (kept value (by simp)))
    intro outcome
    exact ih (List.forall_mem_cons.1 kept).2 _

end Keeps

/-- What connecting and closing do to a session: it is entered from one property and left with
another, and its own steps lead from an open channel to one that can be closed.  A refused
connection leaves no session. -/
structure Channel.Frames (channel : Channel ρ) (before opened ended after : World ρ → Prop) :
    Prop where
  connected : ∀ world, before world → ∀ site,
    channel.connect world.site = (.ok (), site) → opened { world with site }
  refused : ∀ world, before world → ∀ cause site,
    channel.connect world.site = (.error cause, site) → after { world with site }
  closed : Leads ended after (World.onSite channel.close)

theorem Channel.Frames.of_keeps {channel : Channel ρ} {property : World ρ → Prop}
    (connect : Keeps property (World.onSite channel.connect))
    (close : Keeps property (World.onSite channel.close)) :
    channel.Frames property property property property := by
  have connected : ∀ world, property world → ∀ outcome site,
      channel.connect world.site = (outcome, site) → property { world with site } := by
    intro world holds outcome site ran
    have kept := connect world holds
    rwa [World.onSite, ran] at kept
  exact ⟨fun world holds => connected world holds _,
    fun world holds cause => connected world holds _, close⟩

namespace Leads

variable {before opened ended after : World ρ → Prop} {channel : Channel ρ} {package : Package}
  {description : String} {words : ChannelError → String}

theorem run {step : StateM (World ρ) (Except ChannelError α)} (ignores : IgnoresLog after)
    (leads : Leads before after step) :
    Leads before after (Channel.run package description words step) := by
  intro world holds
  have reached := leads world holds
  unfold Channel.run
  split
  next ran => rwa [ran] at reached
  next cause failed ran =>
    rw [ran] at reached
    exact ignores _ _ failed reached

/-- A session leads where its steps and its frame lead. -/
theorem session {steps : Sync ρ α} (ignores : IgnoresLog after)
    (frames : channel.Frames before opened ended after) (worked : Leads opened ended steps) :
    Leads before after (channel.session package description words steps) := by
  intro world holds
  unfold Channel.session
  rw [exceptBind_apply]
  unfold Channel.run World.onSite
  cases ran : channel.connect world.site with
  | mk outcome site =>
    cases outcome with
    | error cause => exact ignores _ _ _ (frames.refused world holds cause site ran)
    | ok _ => exact frames.closed _ (worked _ (frames.connected world holds site ran))

theorem tidy (ignores : IgnoresLog after)
    (cleaned : Leads before after (World.onSite channel.cleanup)) :
    Leads before after channel.tidy := by
  intro world holds
  have warned : Keeps after (do
      if ← channel.hasQueued then
        World.onSite (Site.warn "Channel still has queued commands after cleanup")) := by
    refine .bind (fun _ reached => reached) fun queued => ?_
    split
    · exact ignores _ _
    · exact .pure ()
  exact warned _ (cleaned world holds)

end Leads

end OpsContent
