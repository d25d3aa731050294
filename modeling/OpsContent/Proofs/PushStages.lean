import OpsContent.Proofs.DependentDefinitions
import OpsContent.Proofs.PushedGroups

/-!
# Stages of a push

Definitions, policies and custom groups are pushed in stages.  Within a stage everything is
attempted and the failures are told together, and a stage is entered only if those before it had
none.  Every attempt is kept with its answer.
-/

namespace OpsContent

variable {ρ α : Type}

/-! ## Attempts -/

/-- A call that pushes something, with its answer. -/
structure Attempt where
  call : Call
  answer : Except RemoteError Unit

/-- Make a call and keep it with its answer. -/
def Attempt.keep (call : Call) (step : QueryAction ρ Unit) :
    QueryAction (Recorded Attempt ρ) Unit :=
  Recorded.noting (⟨call, ·⟩) step

/-- An import whose attempts to push are kept. -/
def Import.Context.attempting (context : Context ρ) : Context (Recorded Attempt ρ) where
  query := { Recorded.inside.query context.query with
    importDefinitions := fun kind definitions dependents =>
      Attempt.keep (.importDefinitions kind definitions dependents)
        (context.query.importDefinitions kind definitions dependents)
    importCustomGroup := fun name payload policies =>
      Attempt.keep (.importCustomGroup name payload policies)
        (context.query.importCustomGroup name payload policies)
    importPolicy := fun name content overwrite =>
      Attempt.keep (.importPolicy name content overwrite)
        (context.query.importPolicy name content overwrite) }
  channel := Recorded.inside.channel context.channel
  package := context.package
  staging := context.staging
  dryRun := context.dryRun

variable {disk : Disk} {world : World (Recorded Attempt ρ)}

def attempts (world : World (Recorded Attempt ρ)) : List Attempt :=
  world.site.remote.record

/-- A step of an import that leaves the disk and attempts what fits its outcome. -/
abbrev Attempts (world : World (Recorded Attempt ρ)) (step : StateM (World (Recorded Attempt ρ)) α)
    (fits : List Attempt → α → Prop) : Prop :=
  LogsKeeping World.disk attempts ([·]) world step fits

/-- What is attempted and what the disk holds are no part of the log. -/
theorem ignoresLog_attempts (world : World (Recorded Attempt ρ)) :
    IgnoresLog fun after : World (Recorded Attempt ρ) =>
      after.disk = world.disk ∧ attempts after = attempts world :=
  fun _ _ _ holds => holds

namespace Attempts

variable {β : Type} {step : StateM (World (Recorded Attempt ρ)) α}

/-- A look at the disk attempts nothing. -/
theorem look {next : Disk → Sync (Recorded Attempt ρ) β}
    {fits : List Attempt → Except SyncError β → Prop}
    (rest : Attempts world (next world.disk) fits) :
    Attempts world (World.look >>= next : Sync (Recorded Attempt ρ) β) fits :=
  .afterOk rfl rfl rfl rest

theorem settle {outcome : Except SyncError α} {next : α → Sync (Recorded Attempt ρ) β}
    {fits : List Attempt → Except SyncError β → Prop}
    (failed : ∀ cause, outcome = .error cause → fits [] (.error cause))
    (rest : ∀ value, outcome = .ok value → Attempts world (next value) fits) :
    Attempts world (World.settle outcome >>= next : Sync (Recorded Attempt ρ) β) fits := by
  cases outcome with
  | ok value => exact rest value rfl
  | error cause => exact .fail (failed cause rfl)

/-- Steps that only log come before others. -/
theorem always {next : α → Sync (Recorded Attempt ρ) β}
    {fits : List Attempt → Except SyncError β → Prop}
    (keeps : ∀ {property : World (Recorded Attempt ρ) → Prop}, IgnoresLog property →
      Keeps property step)
    (rest : ∀ between : World (Recorded Attempt ρ), between.disk = world.disk →
      Attempts between (next (step world).1) fits) :
    Attempts world (World.always step >>= next : Sync (Recorded Attempt ρ) β) fits := by
  obtain ⟨kept, same⟩ := keeps (ignoresLog_attempts world) world ⟨rfl, rfl⟩
  exact .afterOk rfl kept same (rest (step world).2 kept)

theorem ask (call : Call) (step : QueryAction ρ Unit) :
    Attempts world (Query.ask (Attempt.keep call step)) fun made outcome => ∃ answer,
      made = [⟨call, answer⟩] ∧ outcome = answer.mapError SyncError.remote :=
  Recorded.logs_ask world _ step

end Attempts

namespace Batch

/-- What is told of the values that failed. -/
def failuresOf (kind : AssetKind) (title : α → String) (values : List α)
    (outcomes : List (List Attempt × Except SyncError Unit)) : List ItemFailure :=
  (values.zip outcomes).filterMap fun pair =>
    failure? kind (title pair.1) (pair.2.2.mapError SyncError.message)

theorem attempts_item {kind : AssetKind} {name : String} {work : Sync (Recorded Attempt ρ) Unit}
    {fits : List Attempt → Except SyncError Unit → Prop} (works : Attempts world work fits) :
    Attempts world (item kind name work) fun made result => ∃ outcome, fits made outcome ∧
      result = failure? kind name (outcome.mapError SyncError.message) := by
  refine ⟨?_, Import.logs_item (fun _ _ => rfl) works.logs kind name⟩
  unfold item
  cases ran : work world with
  | mk outcome after =>
    have kept := works.kept
    rw [ran] at kept
    cases outcome <;> exact kept

/-- Every value is worked on, and those that fail are told in their order. -/
theorem attempts_each {kind : AssetKind} {title : α → String}
    {work : α → Sync (Recorded Attempt ρ) Unit} {values : List α}
    {fits : α → List Attempt → Except SyncError Unit → Prop}
    (each : ∀ value ∈ values, ∀ world : World (Recorded Attempt ρ), world.disk = disk →
      Attempts world (work value) (fits value))
    (same : world.disk = disk) (report : Report) :
    Attempts world (Batch.each kind title work report values) fun made final =>
      ∃ outcomes, List.Forall₂ (fun value outcome => fits value outcome.1 outcome.2) values
          outcomes ∧ made = outcomes.flatMap Prod.fst ∧
        final.failures = report.failures ++ failuresOf kind title values outcomes := by
  induction values generalizing world report with
  | nil => exact .silent rfl rfl ⟨[], .nil, rfl, (List.append_nil _).symm⟩
  | cons value rest ih =>
    refine (attempts_item (each value (by simp) world same)).bind ?_
    rintro made _ ⟨outcome, fitting, rfl⟩ kept
    have later := ih (fun other member => each other (by simp [member])) (kept.trans same)
      (report.add (failure? kind (title value) (outcome.mapError SyncError.message)))
    refine later.mono ?_
    rintro more final ⟨outcomes, each, rfl, failures⟩
    refine ⟨(made, outcome) :: outcomes, .cons fitting each, rfl, ?_⟩
    rw [failures, failuresOf, failuresOf, List.zip_cons_cons, List.filterMap_cons]
    cases failure? kind (title value) (outcome.mapError SyncError.message) <;> simp [Report.add]

end Batch

/-! ## What is pushed -/

namespace Import

variable (context : Context ρ)

/-- The files of a kind. -/
def filesOf (context : Context ρ) (disk : Disk) (kind : AssetKind) (extension : String) :
    List Path :=
  disk.listFiles (context.directory kind) (some extension)

/-- Policies are pushed over those that exist. -/
def PushesPolicy (disk : Disk) (file : Path) (made : List Attempt)
    (outcome : Except SyncError Unit) : Prop :=
  ∃ content answer, disk.readFile file = .ok content ∧
    made = [⟨.importPolicy file.baseName content true, answer⟩] ∧
    outcome = answer.mapError SyncError.remote

/-- A custom group is pushed with its policy resolved unless its file cannot be read. -/
def AttemptsGroup (ρ : Type) (disk : Disk) (policies : PolicyMetadata) (file : Path)
    (made : List Attempt) (outcome : Except SyncError Unit) : Prop :=
  (∃ cause, readJson disk file = .error cause ∧ made = [] ∧ outcome = .error cause) ∨
    ∃ payload answer, ∃ site : Site ρ, readJson disk file = .ok payload ∧
      made = [⟨.importCustomGroup (groupName file payload) (resolvePolicy policies payload site).1
        policies, answer⟩] ∧
      outcome = answer.mapError SyncError.remote

/-- Definitions of a kind are pushed in one call if there is a directory for them.  What is told are
the files that cannot be read, and then the failure of the call. -/
def PushesKind (disk : Disk) (kind : DefinitionKind) (made : List Attempt)
    (failures : List ItemFailure) : Prop :=
  let files := filesOf context disk kind.assetKind "json"
  (disk.isDirectory (context.directory kind.assetKind) = false ∧ made = [] ∧ failures = []) ∨
    disk.isDirectory (context.directory kind.assetKind) = true ∧ ∃ dependents answer,
      made = [⟨.importDefinitions kind (Table.ofList (readable disk files)) dependents, answer⟩] ∧
      failures = unreadable kind.assetKind disk files ++
        (Batch.failure? kind.assetKind kind.assetKind.directory
          (answer.mapError RemoteError.message)).toList

theorem attempts_pushPolicy {file : Path} (isFile : world.disk.isFile file = true) :
    Attempts world (pushPolicy context.attempting file) (PushesPolicy world.disk file) := by
  obtain ⟨content, found⟩ := Disk.isFile_iff.mp isFile
  have read := Disk.readFile_eq_ok_iff.mpr found
  refine .look (.settle (fun cause failed => ?_) fun value settled => ?_)
  · rw [read] at failed
    cases failed
  · rw [read] at settled
    cases settled
    refine (Attempts.ask _ _).mono ?_
    rintro made outcome ⟨answer, rfl, rfl⟩
    exact ⟨content, answer, read, rfl, rfl⟩

theorem attempts_pushGroup (policies : PolicyMetadata) (file : Path) :
    Attempts world (pushGroup context.attempting policies file)
      (AttemptsGroup (Recorded Attempt ρ) world.disk policies file) := by
  refine .look (.settle (fun cause failed => .inl ⟨cause, failed, rfl, rfl⟩) fun payload read => ?_)
  refine .always (fun ignores => keeps_resolvePolicy ignores policies payload) fun between same => ?_
  refine (Attempts.ask _ _).mono ?_
  rintro made outcome ⟨answer, rfl, rfl⟩
  exact .inr ⟨payload, answer, _, read, rfl, rfl⟩

theorem attempts_pushKind (kind : DefinitionKind) (progress : Progress) :
    Attempts world (pushKind context.attempting kind progress) fun made result =>
      ∃ failures, PushesKind context world.disk kind made failures ∧
        result.failures = progress.failures ++ failures := by
  rcases pushKind_cases context.attempting kind progress world with
    ⟨absent, done⟩ | ⟨stands, between, answer, pushed, after, quiet, ran, noted, done⟩
  · refine .silent (by rw [done]) (by rw [done]) ⟨[], .inl ⟨absent, rfl, rfl⟩, ?_⟩
    rw [done, List.append_nil]
  · obtain ⟨kept, same⟩ := quiet _ (ignoresLog_attempts world) ⟨rfl, rfl⟩
    obtain ⟨keptMore, sameMore⟩ := noted _ (ignoresLog_attempts pushed) ⟨rfl, rfl⟩
    let table := Table.ofList (readable world.disk (filesOf context world.disk kind.assetKind "json"))
    have sent : attempts pushed = attempts between ++
          [⟨.importDefinitions kind table (progress.dependents.extend kind table), answer⟩] ∧
        pushed.disk = between.disk := by
      cases ran
      exact ⟨rfl, rfl⟩
    refine ⟨?_, _, ?_, _, .inr ⟨stands, progress.dependents.extend kind table, answer, rfl, rfl⟩, ?_⟩
    · rw [done, keptMore, sent.2, kept]
    · rw [done, sameMore, sent.1, same, List.flatMap_singleton]
    · rw [done, List.append_assoc]
      rfl

theorem attempts_pushKinds (kinds : List DefinitionKind) (progress : Progress) :
    Attempts world (pushKinds context.attempting progress kinds) fun made result =>
      ∃ outcomes, List.Forall₂ (fun kind outcome =>
          PushesKind context world.disk kind outcome.1 outcome.2) kinds outcomes ∧
        made = outcomes.flatMap Prod.fst ∧
        result.failures = progress.failures ++ outcomes.flatMap Prod.snd := by
  induction kinds generalizing world progress with
  | nil => exact .silent rfl rfl ⟨[], .nil, rfl, (List.append_nil _).symm⟩
  | cons kind rest ih =>
    refine (attempts_pushKind context kind progress).bind ?_
    rintro made result ⟨failures, first, told⟩ kept
    refine (ih result).mono ?_
    rintro more final ⟨outcomes, each, rfl, toldMore⟩
    rw [kept] at each
    refine ⟨(made, failures) :: outcomes, .cons first each, rfl, ?_⟩
    rw [toldMore, told, List.append_assoc, List.flatMap_cons]

/-! ## Stages -/

/-- A stage by what it is called, and by what it attempts with the failures that it tells. -/
structure PushStage where
  title : String
  runs : List Attempt → List ItemFailure → Prop

/-- Definitions are pushed kind by kind. -/
def definitionStage (disk : Disk) : PushStage where
  title := stageName context "Definition"
  runs := fun made failures => ∃ outcomes, List.Forall₂ (fun kind outcome =>
      PushesKind context disk kind outcome.1 outcome.2) DefinitionKind.importOrder outcomes ∧
    made = outcomes.flatMap Prod.fst ∧ failures = outcomes.flatMap Prod.snd

/-- Each file is worked on as told, and the files that fail are told under their names. -/
def RunsFiles (kind : AssetKind) (files : List Path)
    (pushes : Path → List Attempt → Except SyncError Unit → Prop) (made : List Attempt)
    (failures : List ItemFailure) : Prop :=
  ∃ outcomes, List.Forall₂ (fun file outcome => pushes file outcome.1 outcome.2) files outcomes ∧
    made = outcomes.flatMap Prod.fst ∧ failures = Batch.failuresOf kind Path.baseName files outcomes

/-- Each policy archive is pushed. -/
def policyStage (disk : Disk) : PushStage where
  title := stageName context "Policy"
  runs := RunsFiles .policy (filesOf context disk .policy "zip") (PushesPolicy disk)

/-- Each custom group is pushed. -/
def groupStage (disk : Disk) : PushStage where
  title := stageName context "Custom group"
  runs := fun made failures => ∃ policies, RunsFiles .customGroup
    (filesOf context disk .customGroup "json") (AttemptsGroup (Recorded Attempt ρ) disk policies) made
    failures

/-- The stages of a push in their order. -/
def pushStages (disk : Disk) : List PushStage :=
  [definitionStage context disk, policyStage context disk, groupStage context disk]

/-- A stage fails with what it tells. -/
def PushStage.RunBy (stage : PushStage) (step : Sync (Recorded Attempt ρ) α)
    (world : World (Recorded Attempt ρ)) : Prop :=
  Attempts world step fun made outcome => ∃ failures, stage.runs made failures ∧
    outcome.map (fun _ => ()) = batchResult stage.title failures

theorem attempts_settled {run : StateM (World (Recorded Attempt ρ)) α} {title : String}
    {failures : α → List ItemFailure} {stats : α → ImportStats} {fits : List Attempt → α → Prop}
    (logs : Attempts world run fits) :
    Attempts world (do
      let report ← World.always run
      World.settle (batchResult title (failures report))
      pure (stats report) : Sync (Recorded Attempt ρ) ImportStats) fun made outcome =>
        ∃ report, fits made report ∧
          outcome.map (fun _ => ()) = batchResult title (failures report) := by
  obtain ⟨kept, made, logged, holds⟩ := logs
  have later : Attempts (run world).2 (do
      World.settle (batchResult title (failures (run world).1))
      pure (stats (run world).1) : Sync (Recorded Attempt ρ) ImportStats) fun more outcome =>
        more = [] ∧
          outcome.map (fun _ => ()) = batchResult title (failures (run world).1) := by
    refine .settle (fun cause failed => ⟨rfl, by rw [failed]; rfl⟩) fun _ settled => ?_
    exact .succeed ⟨rfl, by rw [settled]; rfl⟩
  obtain ⟨keptMore, _, same, rfl, settled⟩ := later
  exact ⟨keptMore.trans kept, made, same.trans (by rw [logged]; simp), _, holds, settled⟩

theorem runBy_pushDefinitions (stats : ImportStats) :
    (definitionStage context world.disk).RunBy (pushDefinitions context.attempting stats) world := by
  refine (attempts_settled (attempts_pushKinds context _ _)).mono ?_
  rintro made outcome ⟨report, ⟨outcomes, each, isMade, told⟩, settled⟩
  exact ⟨_, ⟨outcomes, each, isMade, rfl⟩, by rw [settled, told]; rfl⟩

/-- A batch over files runs them. -/
theorem attempts_files {title : String} {kind : AssetKind} {files : List Path}
    {pushes : Path → List Attempt → Except SyncError Unit → Prop}
    {work : Path → Sync (Recorded Attempt ρ) Unit} {stats : Batch.Report → ImportStats}
    (each : ∀ file ∈ files, ∀ between : World (Recorded Attempt ρ), between.disk = disk →
      Attempts between (work file) (pushes file)) (same : world.disk = disk) :
    Attempts world (do
      let report ← World.always (Batch.each kind Path.baseName work {} files)
      World.settle (batchResult title report.failures)
      pure (stats report) : Sync (Recorded Attempt ρ) ImportStats) fun made outcome =>
        ∃ failures, RunsFiles kind files pushes made failures ∧
          outcome.map (fun _ => ()) = batchResult title failures := by
  refine (attempts_settled (Batch.attempts_each each same {})).mono ?_
  rintro made outcome ⟨report, ⟨outcomes, each, isMade, told⟩, settled⟩
  exact ⟨_, ⟨outcomes, each, isMade, rfl⟩, by rw [settled, told]; rfl⟩

theorem runBy_pushPolicies (stats : ImportStats) :
    (policyStage context world.disk).RunBy (pushPolicies context.attempting stats) world := by
  refine .look (attempts_files (fun file member between same => ?_) rfl)
  obtain ⟨names, -, files, members⟩ := world.disk.listsInOrder_listFiles
    (context.attempting.directory .policy) "zip"
  rw [files, List.mem_map] at member
  obtain ⟨name, listed, rfl⟩ := member
  rw [← same]
  apply attempts_pushPolicy
  rw [same]
  exact ((members name).1 listed).2.2.1

theorem runBy_pushGroups (stats : ImportStats) :
    (groupStage context world.disk).RunBy (pushGroups context.attempting stats) world := by
  refine .look ?_
  dsimp only
  split
  next away =>
    have none : filesOf context world.disk .customGroup "json" = [] := by
      refine if_neg fun stands => ?_
      rw [show context.attempting.directory .customGroup = context.directory .customGroup from rfl,
        stands] at away
      cases away
    refine .succeed ⟨[], ⟨[], [], ?_, rfl, ?_⟩, rfl⟩
    · rw [none]
      exact .nil
    · rw [none]
      rfl
  · refine .always (fun ignores => keeps_load ignores _) fun between same => ?_
    have each : ∀ file, ∀ later : World (Recorded Attempt ρ), later.disk = world.disk →
        Attempts later (pushGroup context.attempting (PolicyMetadata.load context.staging world).1
          file) (AttemptsGroup _ world.disk (PolicyMetadata.load context.staging world).1 file) :=
      fun file later kept => kept ▸ attempts_pushGroup context _ file
    refine (attempts_files (fun file _ => each file) same).mono ?_
    · rintro made outcome ⟨failures, runs, told⟩
      exact ⟨failures, ⟨_, runs⟩, told⟩

/-- What is attempted in stages, of which the later ones are entered only if nothing failed. -/
inductive Enters : List PushStage → List Attempt → Except SyncError Unit → Prop
  | done : Enters [] [] (.ok ())
  | failed {stage : PushStage} {later : List PushStage} {made : List Attempt}
      {failures : List ItemFailure} (runs : stage.runs made failures) (told : failures ≠ []) :
      Enters (stage :: later) made (.error (.batch stage.title failures))
  | passed {stage : PushStage} {later : List PushStage} {made more : List Attempt}
      {outcome : Except SyncError Unit} (runs : stage.runs made [])
      (enters : Enters later more outcome) : Enters (stage :: later) (made ++ more) outcome

theorem PushStage.RunBy.andThen {β : Type} {stage : PushStage} {later : List PushStage}
    {step : Sync (Recorded Attempt ρ) α} {next : α → Sync (Recorded Attempt ρ) β}
    (runs : stage.RunBy step world)
    (rest : ∀ between : World (Recorded Attempt ρ), between.disk = world.disk → ∀ value,
      Attempts between (next value) fun made outcome =>
        Enters later made (outcome.map fun _ => ())) :
    Attempts world (step >>= next : Sync (Recorded Attempt ρ) β) fun made outcome =>
      Enters (stage :: later) made (outcome.map fun _ => ()) := by
  refine LogsKeeping.andThen runs ?_ ?_
  · rintro made cause ⟨failures, ran, told⟩
    cases failures with
    | nil => cases told
    | cons failure others =>
      cases told
      exact .failed ran (List.cons_ne_nil _ _)
  · rintro made value ⟨failures, ran, told⟩ kept
    cases failures with
    | cons => cases told
    | nil => exact (rest _ kept value).mono fun more outcome enters => .passed ran enters

/-- What comes between submitting archives and sharing dashboards. -/
def push (context : Context ρ) (stats : ImportStats) : Sync ρ ImportStats := do
  let stats ← pushDefinitions context stats
  let stats ← pushPolicies context stats
  pushGroups context stats

theorem deliver_eq_push (context : Context ρ) (stats : ImportStats) :
    deliver context stats = (do
      let stats ← submit context stats
      let stats ← push context stats
      applySharing context stats) := by
  simp only [deliver, push, bind_assoc]

theorem enters_push (world : World (Recorded Attempt ρ)) (stats : ImportStats) :
    Attempts world (push context.attempting stats) fun made outcome =>
      Enters (pushStages context world.disk) made (outcome.map fun _ => ()) := by
  refine (runBy_pushDefinitions context stats).andThen fun between same stats => ?_
  rw [← same]
  refine (runBy_pushPolicies context stats).andThen fun between same stats => ?_
  rw [← same]
  have last : Attempts between
      (pushGroups context.attempting stats >>= pure : Sync (Recorded Attempt ρ) ImportStats)
      fun made outcome => Enters [groupStage context between.disk] made (outcome.map fun _ => ()) :=
    (runBy_pushGroups context stats).andThen fun _ _ _ => .succeed .done
  rwa [bind_pure] at last

/-- Once the archives are submitted, an import goes through its stages, each of which works on its
files in the order of their names, and shares dashboards if none of them fails. -/
theorem importAll_enters_stages {first stats : ImportStats}
    {queued submitted : World (Recorded Attempt ρ)} (live : context.dryRun = false)
    (queueing : enqueueKinds context.attempting {} ChannelKind.all world = (.ok first, queued))
    (submitting : submit context.attempting first queued = (.ok stats, submitted)) :
    (∀ kind extension, submitted.disk.ListsInOrder (context.directory kind) extension
      (filesOf context submitted.disk kind extension)) ∧
    ∃ made outcome pushed, attempts pushed = attempts submitted ++ made ∧
      Enters (pushStages context submitted.disk) made (outcome.map fun _ => ()) ∧
      importAll context.attempting world =
        (World.settle outcome >>= applySharing context.attempting :
          Sync (Recorded Attempt ρ) ImportStats) pushed := by
  refine ⟨fun kind extension => Disk.listsInOrder_listFiles _ _ _, ?_⟩
  obtain ⟨-, made, logged, enters⟩ := enters_push context submitted stats
  refine ⟨made, _, _, by simpa using logged, enters, ?_⟩
  rw [importAll_eq_deliver, exceptBind_of_ok queueing,
    show context.attempting.dryRun = false from live, if_neg Bool.false_ne_true, deliver_eq_push,
    exceptBind_of_ok submitting]
  cases ran : push context.attempting stats submitted with
  | mk outcome pushed =>
    cases outcome with
    | ok value => exact exceptBind_of_ok ran
    | error cause => exact exceptBind_of_error ran

/-- A staging tree with a symptom definition that is no object, and with a policy. -/
def brokenSymptom : World (Recorded Attempt Scripted.Memory) where
  disk := { current := [], nodes :=
    [(["work"], .directory), (["work", "symptom_definitions"], .directory),
      (["work", "symptom_definitions", "cpu.json"], .file (Bytes.ofText "[]")),
      (["work", "policies"], .directory), (["work", "policies", "Base.zip"], .file [])] }
  site := { tags := fun _ => "0", remote := { server := {} } }

theorem importAll_enters_stages_brokenSymptom :
    acceptedImport.dryRun = false ∧
      enqueueKinds acceptedImport.attempting {} ChannelKind.all brokenSymptom =
        (.ok {}, brokenSymptom) ∧
      submit acceptedImport.attempting {} brokenSymptom = (.ok {}, brokenSymptom) ∧
      ∃ made outcome pushed, attempts pushed = [] ++ made ∧
        Enters (pushStages acceptedImport brokenSymptom.disk) made (outcome.map fun _ => ()) ∧
        importAll acceptedImport.attempting brokenSymptom =
          (World.settle outcome >>= applySharing acceptedImport.attempting :
            Sync (Recorded Attempt Scripted.Memory) ImportStats) pushed := by
  have queueing : enqueueKinds acceptedImport.attempting {} ChannelKind.all brokenSymptom =
      (.ok {}, brokenSymptom) := rfl
  have submitting : submit acceptedImport.attempting {} brokenSymptom =
      (.ok {}, brokenSymptom) := rfl
  exact ⟨rfl, queueing, submitting,
    (importAll_enters_stages acceptedImport rfl queueing submitting).2⟩

end Import

end OpsContent
