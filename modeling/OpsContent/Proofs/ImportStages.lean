import OpsContent.Import.Package
import OpsContent.Proofs.Batches
import OpsContent.Proofs.Uploads
import OpsContent.Proofs.WorldSteps

/-!
# The stages of an import

Queueing, submitting, pushing and sharing, each for an arbitrary property of the world.  What a
stage does to the property is decided by the calls it makes of the server and, while queueing, by
the archives it builds.
-/

namespace OpsContent.Import

variable {ρ : Type} {context : Context ρ} {property : World ρ → Prop} {kind : ChannelKind}
  {opened : World ρ → Prop}

/-! ## Queueing -/

theorem yields_build (kind : ChannelKind) (source : Path) :
    Yields (build kind source : Sync ρ Path) (· = queuedFile kind source) := by
  intro world file after done
  cases kind with
  | view => exact (Staging.buildView_ok done).1
  | dashboard => exact (Staging.buildDashboard_ok done).1
  | report => exact (Staging.buildReport_ok done).1
  | superMetric => exact (pure_ok done).1
  | metricConfig => exact (pure_ok done).1

theorem keeps_build {source : Path}
    (written : ∀ entries,
      Keeps property (Staging.writeArchive (queuedFile kind source) entries : Sync ρ Unit))
    (removed : ∀ what, Keeps property (Staging.removeSource source what)) :
    Keeps property (build kind source : Sync ρ Path) := by
  cases kind with
  | view =>
    refine .andThen (fun _ holds => holds) fun disk => ?_
    refine .andThen (.settle _) fun id => ?_
    refine .andThen (.settle _) fun content => ?_
    refine .andThen (.settle _) fun entries => ?_
    refine .andThen (written _) fun _ => ?_
    exact .andThen (removed _) fun _ => .succeed _
  | dashboard =>
    refine .andThen (fun _ holds => holds) fun disk => ?_
    refine .andThen (.settle _) fun content => ?_
    refine .andThen (.settle _) fun entries => ?_
    refine .andThen (written _) fun _ => ?_
    exact .andThen (removed _) fun _ => .succeed _
  | report =>
    refine .andThen (fun _ holds => holds) fun disk => ?_
    refine .andThen (.settle _) fun content => ?_
    refine .andThen (.settle _) fun entries => ?_
    exact .andThen (written _) fun _ => .succeed _
  | superMetric => exact .succeed _
  | metricConfig => exact .succeed _

/-- Building and queueing a source of a kind keep the property. -/
structure Context.Queues (context : Context ρ) (property : World ρ → Prop) (kind : ChannelKind)
    (source : Path) : Prop where
  built : Keeps property (build kind source)
  queued : ∀ disk, Keeps property
    (World.onSite (context.channel.enqueue kind (queuedFile kind source) disk))

theorem keeps_enqueueEach (ignores : IgnoresLog property) {values : List Path}
    (queues : ∀ source ∈ values, context.Queues property kind source) (stats : ImportStats) :
    Keeps property (enqueueEach context kind (build kind) stats values) := by
  induction values generalizing stats with
  | nil => exact .succeed stats
  | cons source rest ih =>
    have later := ih (List.forall_mem_cons.1 queues).2
    obtain ⟨built, queued⟩ := queues source (by simp)
    refine .andThenWith built (yields_build kind source) ?_
    rintro _ rfl
    refine .andThen ?_ later
    refine .andThen (fun _ holds => holds) fun description => ?_
    refine .andThen (fun _ holds => holds) fun disk => ?_
    exact Keeps.andThen (Leads.run ignores (queued disk)) fun _ => Keeps.succeed _

theorem keeps_enqueueKinds (ignores : IgnoresLog property)
    (queues : ∀ world kind, property world → ∀ source ∈ sources context world.disk kind,
      context.Queues property kind source) (stats : ImportStats) (kinds : List ChannelKind) :
    Keeps property (enqueueKinds context stats kinds) := by
  induction kinds generalizing stats with
  | nil => exact .succeed stats
  | cons kind rest ih =>
    intro world holds
    apply Keeps.andThen_at holds
    intro disk after looked holdsAfter
    obtain ⟨rfl, rfl⟩ := look_ok looked
    refine Keeps.andThen ?_ (fun stats => ih stats) after holdsAfter
    exact keeps_enqueueEach ignores (queues after kind holdsAfter) stats

theorem leads_submit {before ended after : World ρ → Prop} (ignoresEnded : IgnoresLog ended)
    (ignores : IgnoresLog after) (idle : ∀ world, before world → after world)
    (frames : context.dryRun = false → context.channel.Frames before opened ended after)
    (sent : Leads opened ended (World.onSite context.channel.importFiles)) (stats : ImportStats) :
    Leads before after (submit context stats) := by
  have same : ∀ world, before world → before world := fun _ holds => holds
  refine .andThen same idle fun queued => ?_
  split
  · exact idle
  next submits =>
    have live : context.dryRun = false := by
      cases dry : context.dryRun with
      | false => rfl
      | true => simp [dry] at submits
    refine .andThen same idle fun description => ?_
    refine .andThen ?_ (fun _ holds => holds) fun _ _ holds => holds
    exact .session ignores (frames live) (.run ignoresEnded sent)

/-! ## Pushing -/

/-- The definitions in files that can be read, by identifier. -/
def readable (disk : Disk) (files : List Path) : List (String × Json) :=
  files.filterMap fun file => (readDefinition disk file).toOption

/-- The failures for files that hold no definition. -/
def unreadable (kind : AssetKind) (disk : Disk) (files : List Path) : List ItemFailure :=
  files.filterMap fun file =>
    Batch.failure? kind file.text ((readDefinition disk file).mapError SyncError.message)

theorem map_readDefinition {kind : AssetKind} {disk : Disk} {files : List Path}
    (clean : unreadable kind disk files = []) :
    files.map (readDefinition disk) = (readable disk files).map .ok := by
  induction files with
  | nil => rfl
  | cons file rest ih =>
    rw [unreadable, List.filterMap_cons] at clean
    rw [readable, List.filterMap_cons, List.map_cons]
    cases read : readDefinition disk file with
    | error cause =>
      rw [read] at clean
      cases clean
    | ok entry =>
      rw [read] at clean
      exact congrArg (.ok entry :: ·) (ih clean)

theorem readDefinitions_fst (kind : AssetKind) (definitions : Definitions) (files : List Path)
    (world : World ρ) :
    (readDefinitions kind definitions files world).1 =
      { table := (readable world.disk files).foldl (fun table entry => table.insert entry.1 entry.2)
          definitions.table,
        failures := definitions.failures ++ unreadable kind world.disk files } := by
  induction files generalizing definitions world with
  | nil =>
    change definitions = { definitions with failures := definitions.failures ++ [] }
    rw [List.append_nil]
  | cons file rest ih =>
    rw [readDefinitions, bind_of_eq (World.readDisk_eq world), readable, unreadable,
      List.filterMap_cons, List.filterMap_cons]
    cases readDefinition world.disk file with
    | ok entry => exact ih _ world
    | error cause =>
      refine (ih _ (Batch.note kind file.text cause.message world).2).trans ?_
      simp only [List.append_assoc]
      rfl

section

variable (ignores : IgnoresLog property)

include ignores

theorem keeps_readDefinitions (kind : AssetKind) (definitions : Definitions) (files : List Path) :
    Keeps property (readDefinitions kind definitions files : StateM (World ρ) Definitions) := by
  induction files generalizing definitions with
  | nil => exact .pure definitions
  | cons file rest ih =>
    refine .bind (fun _ holds => holds) fun disk => ?_
    cases readDefinition disk file with
    | ok found => exact ih _
    | error cause => exact .bind (ignores _ _) fun failure => ih _

omit ignores in
/-- A kind without a directory is passed over.  Otherwise the definitions that can be read are pushed
in one call, and what is told are the other files and then the failure of the call. -/
theorem pushKind_cases (context : Context ρ) (kind : DefinitionKind) (progress : Progress)
    (world : World ρ) :
    let directory := context.directory kind.assetKind
    let files := world.disk.listFiles directory (some "json")
    let table := Table.ofList (readable world.disk files)
    let dependents := progress.dependents.extend kind table
    world.disk.isDirectory directory = false ∧
      pushKind context kind progress world = (progress, world) ∨
    world.disk.isDirectory directory ∧ ∃ between answer pushed after, world.Quiet between ∧
      World.onSite (context.query.importDefinitions kind table dependents) between =
        (answer, pushed) ∧ pushed.Quiet after ∧ pushKind context kind progress world =
          ({ dependents
             stats := if answer.isOk then progress.stats.addPushed kind.assetKind table.length
              else progress.stats
             failures := progress.failures ++ unreadable kind.assetKind world.disk files ++
              (Batch.failure? kind.assetKind kind.assetKind.directory
                (answer.mapError RemoteError.message)).toList }, after) := by
  intro directory files table dependents
  rw [pushKind, bind_of_eq (World.readDisk_eq world)]
  dsimp only
  cases stands : world.disk.isDirectory directory with
  | false => exact .inl ⟨rfl, rfl⟩
  | true =>
    have isRead : readDefinitions kind.assetKind {} files world =
        (⟨table, unreadable kind.assetKind world.disk files⟩, _) :=
      eq_mk_of_fst_eq (readDefinitions_fst _ _ _ world)
    have quiet : world.Quiet (readDefinitions kind.assetKind {} files world).2 :=
      fun _ ignores => keeps_readDefinitions ignores _ _ _ world
    rw [Bool.not_true, if_neg Bool.false_ne_true, bind_of_eq isRead]
    cases ran : World.onSite (context.query.importDefinitions kind table dependents)
        (readDefinitions kind.assetKind {} files world).2 with
    | mk answer pushed =>
      rw [bind_of_eq ran]
      cases answer with
      | ok _ =>
        refine .inr ⟨rfl, _, _, pushed, pushed, quiet, ran, fun _ _ => id, ?_⟩
        simp [Batch.failure?, Except.mapError]
        rfl
      | error cause =>
        exact .inr ⟨rfl, _, _, pushed, _, quiet, ran, fun _ ignores => ignores _ _ pushed, rfl⟩

theorem keeps_pushKinds (pushed : ∀ kind definitions dependents,
      Keeps property (World.onSite (context.query.importDefinitions kind definitions dependents)))
    (progress : Progress) (kinds : List DefinitionKind) :
    Keeps property (pushKinds context progress kinds) := by
  induction kinds generalizing progress with
  | nil => exact .pure progress
  | cons kind rest ih =>
    refine .bind (fun world holds => ?_) fun progress => ih progress
    rcases pushKind_cases context kind progress world with
      ⟨-, done⟩ | ⟨-, between, answer, sent, after, quiet, ran, noted, done⟩
    · rwa [done]
    · obtain rfl : _ = sent := congrArg Prod.snd ran
      rw [done]
      exact noted _ ignores (pushed _ _ _ between (quiet _ ignores holds))

theorem keeps_pushDefinitions (pushed : ∀ kind definitions dependents,
      Keeps property (World.onSite (context.query.importDefinitions kind definitions dependents)))
    (stats : ImportStats) : Keeps property (pushDefinitions context stats) := by
  have kinds := keeps_pushKinds ignores pushed { stats } DefinitionKind.importOrder
  refine .andThen (fun world holds => kinds world holds) fun progress => ?_
  exact .andThen (.settle _) fun _ => .succeed _

theorem keeps_pushPolicies (pushed : ∀ name content overwrite,
      Keeps property (World.onSite (context.query.importPolicy name content overwrite)))
    (stats : ImportStats) : Keeps property (pushPolicies context stats) := by
  refine .andThen (fun _ holds => holds) fun disk => ?_
  refine .andThen (.each ignores .policy Path.baseName ?_ {}) fun report => ?_
  · intro file _
    refine .andThen (fun _ holds => holds) fun disk => ?_
    exact .andThen (.settle _) fun content => .ask (pushed _ _ _)
  · exact .andThen (.settle _) fun _ => .succeed _

theorem keeps_load (root : Path) :
    Keeps property (PolicyMetadata.load root : StateM (World ρ) PolicyMetadata) := by
  refine .bind (fun _ holds => holds) fun disk => ?_
  split
  · dsimp only
    split
    · exact .bind (ignores _ _) fun _ => .pure _
    · exact .pure _
  · split
    · exact .bind (ignores _ _) fun _ => .pure _
    · split
      · exact .pure _
      · exact .bind (ignores _ _) fun _ => .pure _

omit ignores in
/-- Either the policy stands under a name that is replaced, or nothing is changed. -/
theorem resolvePolicy_object (policies : PolicyMetadata) (fields : Table Json) :
    (∃ name id, fields.find? "policy" = some (.string name) ∧ policies.holds name = false ∧
      policies.idOf name = some id ∧ (resolvePolicy policies (.object fields) :
        StateM (Site ρ) Json) = pure (.object (fields.insert "policy" (.string id)))) ∨
    (∀ name, fields.find? "policy" = some (.string name) →
      policies.holds name ∨ policies.idOf name = none) ∧
      ((resolvePolicy policies (.object fields) : StateM (Site ρ) Json) = pure (.object fields) ∨
        ∃ warning, (resolvePolicy policies (.object fields) : StateM (Site ρ) Json) =
          Site.warn warning >>= fun _ => pure (.object fields)) := by
  unfold resolvePolicy
  dsimp only
  cases found : fields.find? "policy" with
  | none => exact .inr ⟨fun _ same => (by cases same), .inl rfl⟩
  | some reference =>
    cases reference with
    | string name =>
      simp only [Option.bind_some, Json.text?]
      by_cases known : policies.holds name
      · rw [if_pos known]
        exact .inr ⟨fun _ same => (by cases same; exact .inl known), .inl rfl⟩
      · rw [if_neg known]
        cases named : policies.idOf name with
        | none => exact .inr ⟨fun _ same => (by cases same; exact .inr named), .inr ⟨_, rfl⟩⟩
        | some id => exact .inl ⟨name, id, rfl, by simpa using known, named, rfl⟩
    | _ => exact .inr ⟨fun _ same => (by cases same), .inl rfl⟩

theorem keeps_resolvePolicy (policies : PolicyMetadata) (payload : Json) :
    Keeps property (World.onSite (resolvePolicy policies payload) : StateM (World ρ) Json) := by
  cases payload with
  | object fields =>
    rcases resolvePolicy_object policies fields with
      ⟨_, _, -, -, -, same⟩ | ⟨-, same | ⟨warning, same⟩⟩
    · exact same ▸ fun _ holds => holds
    · exact same ▸ fun _ holds => holds
    · exact same ▸ ignores _ _
  | _ => exact fun _ holds => holds

theorem keeps_pushGroups (pushed : ∀ name payload policies,
      Keeps property (World.onSite (context.query.importCustomGroup name payload policies)))
    (stats : ImportStats) : Keeps property (pushGroups context stats) := by
  refine .andThen (fun _ holds => holds) fun disk => ?_
  dsimp only
  split
  · exact .succeed stats
  · refine .andThen (keeps_load ignores context.staging) fun policies => ?_
    refine .andThen (.each ignores .customGroup Path.baseName ?_ {}) fun report => ?_
    · intro file _
      refine .andThen (fun _ holds => holds) fun disk => ?_
      refine .andThen (.settle _) fun payload => ?_
      refine .andThen (keeps_resolvePolicy ignores policies payload) fun resolved => ?_
      exact .ask (pushed _ _ _)
    · exact .andThen (.settle _) fun _ => .succeed _

/-! ## Sharing -/

end

theorem keeps_applyTasks (ignores : IgnoresLog opened)
    (found : ∀ names, Keeps opened (World.onSite (context.query.findGroups names)))
    (shared : ∀ name groups, Keeps opened (World.onSite (context.channel.share name groups)))
    (unshared : ∀ name groups, Keeps opened (World.onSite (context.channel.unshare name groups)))
    (description : String) (stats : ImportStats) (tasks : List SharingTask) :
    Keeps opened (applyTasks context description stats tasks) := by
  induction tasks generalizing stats with
  | nil => exact .succeed stats
  | cons task rest ih =>
    refine .andThen ?_ fun stats => ih stats
    refine .andThen (.ask (found _)) fun groups => ?_
    dsimp only
    split
    · exact .fail _
    · refine Keeps.andThen (Leads.run ignores ?_) fun _ => Keeps.succeed _
      split
      · exact shared _ _
      · exact unshared _ _

theorem keeps_applySharing (ignores : IgnoresLog property) (ignoresOpened : IgnoresLog opened)
    (frames : context.channel.Frames property opened opened property)
    (found : ∀ names, Keeps opened (World.onSite (context.query.findGroups names)))
    (shared : ∀ name groups, Keeps opened (World.onSite (context.channel.share name groups)))
    (unshared : ∀ name groups, Keeps opened (World.onSite (context.channel.unshare name groups)))
    (stats : ImportStats) : Keeps property (applySharing context stats) := by
  refine .andThen (fun _ holds => holds) fun disk => ?_
  split
  · exact .succeed stats
  · refine .andThen (.settle _) fun loaded => ?_
    split
    · exact .succeed stats
    · dsimp only
      split
      · exact .succeed stats
      · refine .andThen (fun _ holds => holds) fun description => ?_
        exact Leads.session ignores frames
          (keeps_applyTasks ignoresOpened found shared unshared description stats _)

/-! ## The whole import -/

/-- Each stage is entered only behind a success, so what it starts from has to be good enough for
the end. -/
theorem leads_importAll {before sent after : World ρ → Prop}
    (queued : Keeps before (enqueueKinds context {} ChannelKind.all))
    (submitted : ∀ stats, Leads before sent (submit context stats))
    (pushed : context.dryRun = false → ∀ stats, Leads sent after (pushDefinitions context stats))
    (policies : ∀ stats, Keeps after (pushPolicies context stats))
    (groups : ∀ stats, Keeps after (pushGroups context stats))
    (shared : ∀ stats, Keeps after (applySharing context stats))
    (early : ∀ world, before world → sent world) (late : ∀ world, sent world → after world) :
    Leads before after (importAll context) := by
  refine .andThen queued (fun world holds => late world (early world holds)) fun stats => ?_
  refine .andThen (submitted stats) late fun stats => ?_
  split
  · exact late
  next live =>
    have pushing := pushed (by simpa using live) stats
    refine .andThen pushing (fun _ holds => holds) fun stats => ?_
    refine Keeps.andThen (policies stats) fun stats => ?_
    exact .andThen (groups stats) fun stats => shared stats

/-! ## Statistics -/

/-- What an import does with queued files: it submits them, and pushes and shares the rest. -/
def deliver (context : Context ρ) (stats : ImportStats) : Sync ρ ImportStats := do
  let stats ← submit context stats
  let stats ← pushDefinitions context stats
  let stats ← pushPolicies context stats
  let stats ← pushGroups context stats
  applySharing context stats

/-- An import queues its files and then delivers. -/
theorem importAll_eq_deliver (context : Context ρ) :
    importAll context = enqueueKinds context {} ChannelKind.all >>= fun stats =>
      if context.dryRun then pure stats else deliver context stats := by
  refine bind_congr fun stats => ?_
  cases dry : context.dryRun with
  | false => simp [deliver]
  | true =>
    funext world
    have skipped : submit context stats world = (.ok stats, world) := by
      have asked : (World.always context.channel.hasQueued : Sync ρ Bool) world =
        (.ok (0 < context.channel.queued world.site.remote), world) := rfl
      rw [submit, exceptBind_of_ok asked, dry]
      simp only [Bool.or_true, if_true]
      rfl
    rw [exceptBind_of_ok skipped]
    rfl

variable {kept : ImportStats → Prop} {stats : ImportStats} {progress : Progress}

theorem yields_enqueueEach {build : Path → Sync ρ Path}
    (queued : ∀ stats kind count, kept stats → kept (stats.addQueued kind count))
    (holds : kept stats) (values : List Path) :
    Yields (enqueueEach context kind build stats values) kept := by
  induction values generalizing stats with
  | nil => exact .succeed holds
  | cons source rest ih =>
    refine .andThen fun file => .andThenWith ?_ fun stats => ih
    refine .andThen fun description => .andThen fun disk => .andThen fun _ => ?_
    exact .succeed (queued _ _ _ holds)

theorem yields_enqueueKinds
    (queued : ∀ stats kind count, kept stats → kept (stats.addQueued kind count))
    (holds : kept stats) (kinds : List ChannelKind) :
    Yields (enqueueKinds context stats kinds) kept := by
  induction kinds generalizing stats with
  | nil => exact .succeed holds
  | cons kind rest ih =>
    refine .andThen fun disk => ?_
    exact .andThenWith (yields_enqueueEach queued holds _) fun stats => ih

theorem yields_submit (submitted : ∀ stats, kept stats → kept { stats with submitted := true })
    (holds : kept stats) : Yields (submit context stats) kept := by
  refine .andThen fun queued => ?_
  split
  · exact .succeed holds
  · refine .andThen fun description => .andThen fun _ => ?_
    exact .succeed (submitted _ holds)

theorem yields_applyTasks (shared : ∀ stats count, kept stats → kept { stats with shared := count })
    (unshared : ∀ stats count, kept stats → kept { stats with unshared := count })
    (description : String) (holds : kept stats) (tasks : List SharingTask) :
    Yields (applyTasks context description stats tasks) kept := by
  induction tasks generalizing stats with
  | nil => exact .succeed holds
  | cons task rest ih =>
    refine .andThenWith ?_ fun stats => ih
    refine .andThen fun found => ?_
    dsimp only
    split
    · intro world value after ran
      cases ran
    · refine .andThen fun _ => .succeed ?_
      split
      · exact shared _ _ holds
      · exact unshared _ _ holds

theorem yields_applySharing
    (shared : ∀ stats count, kept stats → kept { stats with shared := count })
    (unshared : ∀ stats count, kept stats → kept { stats with unshared := count })
    (holds : kept stats) : Yields (applySharing context stats) kept := by
  refine .andThen fun disk => ?_
  split
  · exact .succeed holds
  · refine .andThen fun loaded => ?_
    split
    · exact .succeed holds
    · dsimp only
      split
      · exact .succeed holds
      · refine .andThen fun description => .andThen fun _ => ?_
        exact .concluding (yields_applyTasks shared unshared description holds _)

/-- The property of statistics is kept by all that is counted behind the queue. -/
structure KeptByDelivery (kept : ImportStats → Prop) : Prop where
  submitted : ∀ stats, kept stats → kept { stats with submitted := true }
  pushed : ∀ stats kind count, kept stats → kept (stats.addPushed kind count)
  shared : ∀ stats count, kept stats → kept { stats with shared := count }
  unshared : ∀ stats count, kept stats → kept { stats with unshared := count }

namespace KeptByDelivery

variable (delivery : KeptByDelivery kept)

include delivery

theorem pushKind (kind : DefinitionKind) (holds : kept progress.stats) (world : World ρ) :
    kept (Import.pushKind context kind progress world).1.stats := by
  rcases pushKind_cases context kind progress world with
    ⟨-, done⟩ | ⟨-, _, answer, _, _, -, -, -, done⟩
  · rwa [done]
  · rw [done]
    dsimp only
    split
    · exact delivery.pushed _ _ _ holds
    · exact holds

theorem pushKinds (kinds : List DefinitionKind) (holds : kept progress.stats) (world : World ρ) :
    kept (Import.pushKinds context progress kinds world).1.stats := by
  induction kinds generalizing progress world with
  | nil => exact holds
  | cons kind rest ih => exact ih (delivery.pushKind kind holds world) _

theorem pushDefinitions (holds : kept stats) :
    Yields (Import.pushDefinitions context stats) kept := by
  have pushed : Yields (World.always (Import.pushKinds context { stats }
      DefinitionKind.importOrder) : Sync ρ Progress) fun progress => kept progress.stats := by
    intro world progress after ran
    have still : kept (Import.pushKinds context { stats }
        DefinitionKind.importOrder world).1.stats := delivery.pushKinds _ holds world
    rwa [always_ok ran] at still
  refine .andThenWith pushed fun progress still => .andThen fun _ => ?_
  exact .succeed still

theorem pushPolicies (holds : kept stats) : Yields (Import.pushPolicies context stats) kept := by
  refine .andThen fun disk => .andThen fun report => .andThen fun _ => ?_
  exact .succeed (delivery.pushed _ _ _ holds)

theorem pushGroups (holds : kept stats) : Yields (Import.pushGroups context stats) kept := by
  refine .andThen fun disk => ?_
  dsimp only
  split
  · exact .succeed holds
  · refine .andThen fun policies => .andThen fun report => .andThen fun _ => ?_
    exact .succeed (delivery.pushed _ _ _ holds)

theorem deliver (holds : kept stats) : Yields (Import.deliver context stats) kept := by
  refine .andThenWith (yields_submit delivery.submitted holds) fun _ holds => ?_
  refine .andThenWith (delivery.pushDefinitions holds) fun _ holds => ?_
  refine .andThenWith (delivery.pushPolicies holds) fun _ holds => ?_
  refine .andThenWith (delivery.pushGroups holds) fun _ holds => ?_
  exact yields_applySharing delivery.shared delivery.unshared holds

end KeptByDelivery

end OpsContent.Import
