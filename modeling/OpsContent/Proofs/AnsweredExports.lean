import OpsContent.Proofs.ExportedProjects

/-!
# Exports that are answered

A server that answers every question about its definitions, custom groups and policies lets an
export of these kinds succeed, if the workspace has room for the files that the export makes.
-/

/-! ## Steps that succeed -/

namespace OpsContent

variable {σ ε α β : Type}

/-- The steps succeed, and lead to a goal. -/
def Reaches (steps : ExceptT ε (StateM σ) α) (state : σ) (goal : α → σ → Prop) : Prop :=
  ∃ value after, steps state = (.ok value, after) ∧ goal value after

namespace Reaches

variable {steps : ExceptT ε (StateM σ) α} {state : σ} {goal : α → σ → Prop} {value : α}
  {next : α → ExceptT ε (StateM σ) β} {last : β → σ → Prop} {outcome : Except ε α}
  {step : StateM σ α}

theorem of_eq {after : σ} (ran : steps state = (.ok value, after)) (reached : goal value after) :
    Reaches steps state goal :=
  ⟨value, after, ran, reached⟩

protected theorem pure (reached : goal value state) :
    Reaches (pure value : ExceptT ε (StateM σ) α) state goal :=
  of_eq rfl reached

/-- What runs behind a success reaches as far. -/
theorem after {between : σ} (ran : steps state = (.ok value, between))
    (rest : Reaches (next value) between last) : Reaches (steps >>= next) state last := by
  obtain ⟨result, final, later, isLast⟩ := rest
  exact of_eq ((exceptBind_of_ok ran).trans later) isLast

protected theorem bind (first : Reaches steps state goal)
    (rest : ∀ value between, goal value between → Reaches (next value) between last) :
    Reaches (steps >>= next) state last := by
  obtain ⟨value, between, ran, reached⟩ := first
  exact .after ran (rest value between reached)

theorem mono {wider : α → σ → Prop} (reaches : Reaches steps state goal)
    (implies : ∀ value after, goal value after → wider value after) :
    Reaches steps state wider := by
  obtain ⟨value, after, ran, reached⟩ := reaches
  exact of_eq ran (implies value after reached)

theorem map {change : α → β}
    (reaches : Reaches steps state fun value after => last (change value) after) :
    Reaches (change <$> steps : ExceptT ε (StateM σ) β) state last := by
  rw [← bind_pure_comp]
  exact reaches.bind fun value between reached => .pure reached

theorem settle (isOk : outcome = .ok value) (reached : goal value state) :
    Reaches (World.settle outcome : ExceptT ε (StateM σ) α) state goal :=
  of_eq (by rw [World.settle, isOk]) reached

theorem always {after : σ} (ran : step state = (value, after)) (reached : goal value after) :
    Reaches (World.always step : ExceptT ε (StateM σ) α) state goal :=
  of_eq (by rw [World.always, ran]) reached

/-! The same for what comes first in a sequence. -/

theorem afterSettle (isOk : outcome = .ok value) (rest : Reaches (next value) state last) :
    Reaches (World.settle outcome >>= next) state last := by
  subst isOk
  exact rest

theorem afterAlways (rest : Reaches (next (step state).1) (step state).2 last) :
    Reaches (World.always step >>= next) state last :=
  rest

theorem afterLook {ρ : Type} {world : World ρ} {next : Disk → Sync ρ β}
    {last : β → World ρ → Prop} (rest : Reaches (next world.disk) world last) :
    Reaches (World.look >>= next) world last :=
  rest

end Reaches

namespace Batch

variable {ρ : Type} {kind : AssetKind} {title : α → String} {work : α → Sync ρ Unit}
  {values : List α} {world : World ρ} (invariant : List α → World ρ → Prop)

theorem works_of_reaches {past : List α}
    (step : ∀ past value world, value ∈ values → invariant past world →
      Reaches (work value) world fun _ after => invariant (past ++ [value]) after)
    (start : invariant past world) :
    ∃ after, Works (Passes work) values world after ∧ invariant (past ++ values) after := by
  induction values generalizing past world with
  | nil => exact ⟨world, .nil world, by simpa using start⟩
  | cons value rest ih =>
    obtain ⟨_, between, first, holds⟩ := step past value world (by simp) start
    obtain ⟨after, later, holdsAfter⟩ :=
      ih (fun past other world member => step past other world (by simp [member])) holds
    exact ⟨after, .cons first later, by simpa using holdsAfter⟩

theorem reaches_each
    (step : ∀ past value world, value ∈ values → invariant past world →
      Reaches (work value) world fun _ after => invariant (past ++ [value]) after)
    (start : invariant [] world) :
    Reaches (World.always (each kind title work {} values) : Sync ρ Report) world
      fun report after => report.failures = [] ∧ invariant values after := by
  obtain ⟨after, works, holds⟩ := works_of_reaches invariant step start
  exact .always (works.each kind title {}) ⟨rfl, holds⟩

end Batch

theorem batchResult_nil {failures : List ItemFailure} (none : failures = []) (batch : String) :
    batchResult batch failures = .ok () := by
  rw [none]
  rfl

end OpsContent

/-! ## Flat trees -/

namespace OpsContent.Disk

open OpsContent.Path

variable {disk after : Disk} {root source destination : Path} {shelf name : String}

/-- The directory holds directories of files. -/
structure Flat (root : Path) (disk : Disk) : Prop where
  stands : disk.isDirectory root = true
  shelves : ∀ shelf content, disk.get? (disk.place root ++ [shelf]) ≠ some (.file content)
  files : ∀ shelf name, disk.get? (disk.place root ++ [shelf, name]) ≠ some .directory

theorem IsEmptyDirectory.flat (empty : disk.IsEmptyDirectory root) : disk.Flat root where
  stands := empty.stands
  shelves shelf content := by simp [empty.free [shelf] (by simp)]
  files shelf name := by simp [empty.free [shelf, name] (by simp)]

/-- What lies below the root stays flat, and no directory is lost. -/
structure Advances (root : Path) (before after : Disk) : Prop where
  flat : after.Flat root
  stands : ∀ path, before.isDirectory path = true → after.isDirectory path = true

namespace Advances

theorem refl (flat : disk.Flat root) : Advances root disk disk :=
  ⟨flat, fun _ => id⟩

theorem trans {before between : Disk} (left : Advances root before between)
    (right : Advances root between after) : Advances root before after :=
  ⟨right.flat, fun path stands => right.stands path (left.stands path stands)⟩

end Advances

namespace Flat

variable (flat : disk.Flat root)

include flat

/-- Where there is room, a directory is made. -/
theorem makeDirectories (room : Room root shelf) :
    ∃ after, Disk.makeDirectories (root.join shelf) disk = (.ok (), after) ∧
      Advances root disk after ∧ after.isDirectory (root.join shelf) := by
  obtain ⟨after, made⟩ :=
    (makeDirectories_join room.entry flat.stands).2 ⟨room, flat.shelves shelf⟩
  obtain ⟨touches, stands, -⟩ := makeDirectories_join_ok room.entry flat.stands made
  have samePlace := place_congr touches.current root
  refine ⟨after, made, ⟨⟨touches.isDirectory flat.stands, ?_, ?_⟩,
    fun path => touches.isDirectory⟩, stands⟩
  · intro other content isFile
    rw [samePlace] at isFile
    by_cases same : other = shelf
    · have directory := (isDirectory_iff.1 stands).2.2
      rw [place_join _ _ room.entry, samePlace, ← same, isFile] at directory
      cases directory
    · rw [touches.elsewhere _ (by simpa using same)] at isFile
      exact flat.shelves other content isFile
  · intro other name isDirectory
    rw [samePlace, touches.elsewhere _ (by simp)] at isDirectory
    exact flat.files other name isDirectory

/-- Where there is room, a file is replaced. -/
theorem replaceFile (shelfEntry : IsEntry shelf) (entry : IsEntry name)
    (stands : disk.isDirectory (root.join shelf))
    (room : Room (root.join shelf) (name ++ ".tmp")) (content : Bytes) :
    ∃ after, Disk.replaceFile ((root.join shelf).join name) content disk = (.ok (), after) ∧
      Advances root disk after := by
  have reached := place_join disk root shelfEntry
  have inShelf : ∀ other, disk.get? (disk.place (root.join shelf) ++ [other]) ≠ some .directory := by
    intro other
    rw [reached, List.append_assoc]
    exact flat.files shelf other
  have ends := endsInName_join root shelfEntry
  have free : disk.node? ((root.join shelf).join name) ≠ some .directory := by
    rw [node?_join stands (room_of_append entry room)]
    exact inShelf name
  rcases replaceFile_cases ends stands entry room.entry content free with
    ⟨_, -, noRoom⟩ | ⟨after, done⟩
  · exact absurd ⟨room, inShelf _⟩ noRoom
  · have replaced := replaced_of_replaceFile ends stands entry room.entry done
    have touches := replaced.touches
    have samePlace := place_congr touches.current
    refine ⟨after, done, ⟨touches.isDirectory flat.stands, ?_, ?_⟩, fun path => touches.isDirectory⟩
    · intro other content isFile
      rw [samePlace, touches.elsewhere _ (by simp [reached])] at isFile
      exact flat.shelves other content isFile
    · intro other entryName isDirectory
      rw [samePlace] at isDirectory
      by_cases isTouched : disk.place root ++ [other, entryName] =
            disk.place (root.join shelf) ++ [name] ∨
          disk.place root ++ [other, entryName] = disk.place (root.join shelf) ++ [name ++ ".tmp"]
      · rcases isTouched with isName | isDraft
        · have isFile := get?_of_node? replaced.found
          rw [place_join _ _ entry, samePlace, ← isName, isDirectory] at isFile
          cases isFile
        · rw [isDraft, replaced.draft] at isDirectory
          cases isDirectory
      · rw [touches.elsewhere _ isTouched] at isDirectory
        exact flat.files other entryName isDirectory

end Flat

/-! ## Copies to an empty directory -/

/-- Everything on a walk has a place in an empty directory, if there is room for it at both ends. -/
theorem fits_of_room (stands : disk.isDirectory source)
    (named : disk.NamedBelow (disk.place source))
    (free : ∀ rest, rest ≠ [] → disk.get? (disk.place destination ++ rest) = none)
    (room : ∀ way name, (∀ other ∈ way ++ [name], IsEntry other) →
      (disk.listed? (source.extend (way ++ [name]))).isSome →
        Room (source.extend way) name ∧ Room (destination.extend way) name) :
    ∀ item ∈ disk.walkTree source, disk.fits source destination item := by
  -- a path to what is listed can be used
  have reached : ∀ way, (∀ name ∈ way, IsEntry name) → ∀ node,
      disk.listed? (source.extend way) = some node → disk.node? (source.extend way) = some node := by
    intro way entries node listed
    rw [node?_eq_some_iff]
    refine ⟨?_, listed⟩
    rcases List.eq_nil_or_concat way with rfl | ⟨early, name, rfl⟩
    · exact (isDirectory_iff.1 stands).1
    · rw [List.concat_eq_append] at *
      rw [extend_concat]
      exact (room early name entries (by simp [listed])).1.accepted
  intro item member
  cases met_of_mem_walkTree named member with
  | node entries listed =>
    obtain ⟨way, name, rfl⟩ : ∃ way name, item = way ++ [name] :=
      ⟨_, _, (List.dropLast_append_getLast (ne_nil_of_mem_walkTree member)).symm⟩
    refine (fits_concat_iff (entries name (by simp))).2 ⟨(room way name entries listed).2, ?_, ?_⟩
    · obtain ⟨node, isNode⟩ := Option.isSome_iff_exists.1 listed
      cases node with
      | directory => exact .inl isNode
      | file content => exact .inr (isFile_iff.2 ⟨content, reached _ entries _ isNode⟩)
    · intro node found
      rw [free _ (by simp)] at found
      cases found
  | blank entries listed closed =>
    rw [isDirectory_iff_node?.2 (reached _ entries _ listed)] at closed
    cases closed

end OpsContent.Disk

namespace OpsContent

open OpsContent.Path Disk

variable {ρ : Type}

/-! ## Answers -/

/-- A question that always has the same answer. -/
structure Answered {α : Type} (question : QueryAction ρ α) (value : α) : Prop where
  tags : Keeps Site.TagsFit question
  answer : ∀ site, (question site).1 = .ok value

/-- The server answers questions about definitions, custom groups and policies with an offer. -/
structure Query.Answers (query : Query ρ) (offer : Offer) : Prop where
  definitions : ∀ kind, Answered (query.listDefinitions kind) (offer.definitions kind)
  groups : Answered query.listCustomGroups offer.groups
  policies : Answered query.listPolicies offer.policies
  archives : ∀ policy ∈ offer.policies,
    Answered (query.policyContent policy) (offer.archive policy)

namespace Reaches

variable {α : Type} {world : World ρ} {value : α}

theorem ask {question : QueryAction ρ α} (answered : (question world.site).1 = .ok value) :
    Reaches (Query.ask question) world
      fun found after => found = value ∧ after = (World.onSite question world).2 := by
  refine of_eq ?_ ⟨rfl, rfl⟩
  unfold Query.ask World.onSite
  cases ran : question world.site with
  | mk outcome site =>
    rw [ran] at answered
    cases answered
    rfl

theorem files {steps : DiskAction α} {disk : Disk} (ran : steps world.disk = (.ok value, disk)) :
    Reaches (World.files steps : Sync ρ α) world
      fun result after => result = value ∧ after = { world with disk := disk } :=
  of_eq (files_of_ok ran) ⟨rfl, rfl⟩

end Reaches

/-! ## Room for an export -/

/-- The files that an export makes in the directory of a kind. -/
inductive Offer.HasFile (offer : Offer) (descriptor : Descriptor) : AssetKind → String → Prop
  | asset {kind : AssetKind} {patterns : List String} {name : String}
      (isAsked : descriptor.patterns kind = some patterns)
      (selected : name ∈ offer.selected kind patterns) :
      HasFile offer descriptor kind (kind.entry name)
  | sidecar {kind : AssetKind} {file : String} (isAsked : descriptor.asksFor kind = true)
      (isSidecar : kind.sidecar = some file) : HasFile offer descriptor kind file

/-- There is room below a directory for the directories of kinds that are asked for, and for their
files with an ending. -/
structure Offer.FitsBelow (offer : Offer) (descriptor : Descriptor) (root : Path)
    (ending : String) : Prop where
  shelves : ∀ kind, descriptor.asksFor kind = true → Room root kind.directory
  files : ∀ kind file, offer.HasFile descriptor kind file →
    Room (root.join kind.directory) (file ++ ending)

/-- Where there is room for files with an ending, there is room for them without it. -/
theorem Offer.FitsBelow.withoutEnding {offer : Offer} {descriptor : Descriptor} {root : Path}
    {ending : String} (fits : offer.FitsBelow descriptor root ending)
    (plain : ∀ kind patterns, descriptor.patterns kind = some patterns →
      ∀ name ∈ offer.selected kind patterns, IsPlain name) :
    offer.FitsBelow descriptor root "" := by
  refine ⟨fits.shelves, fun kind file isFile => ?_⟩
  rw [String.append_empty]
  refine room_of_append ?_ (fits.files kind file isFile)
  cases isFile with
  | asset isAsked selected => exact kind.isEntry_entry (plain kind _ isAsked _ selected)
  | sidecar isAsked isSidecar => cases kind <;> cases isSidecar <;> decide

namespace Export

variable {context : Context ρ} {kind : AssetKind} {descriptor : Descriptor} {offer : Offer}
  {patterns : List String} {world : World ρ} {α : Type}

theorem reaches_kindDirectory (flat : world.disk.Flat context.staging)
    (room : Room context.staging kind.directory) :
    Reaches (context.kindDirectory kind) world fun directory after =>
      directory = context.shelfOf kind ∧ Advances context.staging world.disk after.disk ∧
        after.disk.isDirectory (context.shelfOf kind) := by
  obtain ⟨disk, made, advances, stands⟩ := flat.makeDirectories room
  refine (Reaches.files made).bind fun _ after reached => ?_
  rw [reached.2]
  exact Reaches.pure ⟨rfl, advances, stands⟩

theorem reaches_replaceFile {file : String} (flat : world.disk.Flat context.staging)
    (stands : world.disk.isDirectory (context.shelfOf kind)) (entry : IsEntry file)
    (room : Room (context.shelfOf kind) (file ++ ".tmp")) (content : Bytes) :
    Reaches (World.files (replaceFile ((context.shelfOf kind).join file) content) : Sync ρ Unit)
      world fun _ after => Advances context.staging world.disk after.disk := by
  obtain ⟨disk, replaced, advances⟩ :=
    flat.replaceFile kind.isEntry_directory entry stands room content
  refine (Reaches.files replaced).mono fun _ after reached => ?_
  rw [reached.2]
  exact advances

section

variable (flat : world.disk.Flat context.staging)
  (stands : world.disk.isDirectory (context.shelfOf kind))

include flat stands

theorem reaches_writeAssets {assets : List RemoteAsset}
    (entries : ∀ asset ∈ matchedAssets patterns assets, IsEntry (asset.name ++ ".json"))
    (rooms : ∀ asset ∈ matchedAssets patterns assets,
      Room (context.shelfOf kind) (asset.name ++ ".json" ++ ".tmp")) :
    Reaches (writeAssets context kind (context.shelfOf kind) patterns assets) world
      fun _ after => Advances context.staging world.disk after.disk := by
  refine (Batch.reaches_each (fun _ after => Advances context.staging world.disk after.disk) ?_
    (Advances.refl flat)).bind ?_
  · intro _ asset between member advances
    exact (reaches_replaceFile advances.flat (advances.stands _ stands) (entries asset member)
      (rooms asset member) _).mono fun _ _ => advances.trans
  · rintro report after ⟨none, advances⟩
    exact (Reaches.settle (batchResult_nil none _) advances).bind fun _ _ => Reaches.pure

end

theorem reaches_inDirectory {next : Path → Sync ρ α} (flat : world.disk.Flat context.staging)
    (room : Room context.staging kind.directory)
    (rest : ∀ opened, opened.disk.Flat context.staging →
      opened.disk.isDirectory (context.shelfOf kind) →
      Reaches (next (context.shelfOf kind)) opened
      fun _ after => Advances context.staging opened.disk after.disk) :
    Reaches (context.kindDirectory kind >>= next) world fun _ after =>
      Advances context.staging world.disk after.disk ∧
        after.disk.isDirectory (context.shelfOf kind) := by
  refine (reaches_kindDirectory flat room).bind ?_
  rintro _ opened ⟨rfl, opens, stands⟩
  exact (rest opened opens.flat stands).mono fun _ after advances =>
    ⟨opens.trans advances, advances.stands _ stands⟩

theorem reaches_asking {β : Type} {question : QueryAction ρ α} {value : α} {next : α → Sync ρ β}
    {goal : β → World ρ → Prop} (answered : Answered question value)
    (rest : ∀ asked : World ρ, asked.disk = world.disk → Reaches (next value) asked goal) :
    Reaches (Query.ask question >>= next) world goal := by
  refine (Reaches.ask (answered.answer world.site)).bind ?_
  rintro _ asked ⟨rfl, rfl⟩
  exact rest _ rfl

section

variable (answers : context.query.Answers offer)
  (plain : ∀ kind patterns, descriptor.patterns kind = some patterns →
    ∀ name ∈ offer.selected kind patterns, IsPlain name)
  (fits : offer.FitsBelow descriptor context.staging ".tmp")
  (isAsked : descriptor.patterns kind = some patterns) (flat : world.disk.Flat context.staging)

include fits isAsked in
theorem room_directory : Room context.staging kind.directory :=
  fits.shelves kind (Descriptor.asksFor_of_patterns isAsked)

include plain fits isAsked

theorem entry_and_room {name : String} (selected : name ∈ offer.selected kind patterns) :
    IsEntry (kind.entry name) ∧ Room (context.shelfOf kind) (kind.entry name ++ ".tmp") :=
  ⟨kind.isEntry_entry (plain kind patterns isAsked name selected),
    fits.files kind _ (.asset isAsked selected)⟩

include answers flat

theorem reaches_exportDefinitions {definition : DefinitionKind}
    (isKind : kind = definition.assetKind) :
    Reaches (exportDefinitions context definition patterns) world fun _ after =>
      Advances context.staging world.disk after.disk ∧
        after.disk.isDirectory (context.shelfOf kind) := by
  subst isKind
  have isEntry : ∀ name, definition.assetKind.entry name = name ++ ".json" := by
    intro name
    cases definition <;> rfl
  have both : ∀ asset ∈ matchedAssets patterns (offer.definitions definition),
      IsEntry (asset.name ++ ".json") ∧
        Room (context.shelfOf definition.assetKind) (asset.name ++ ".json" ++ ".tmp") := by
    intro asset member
    rw [← isEntry]
    exact entry_and_room plain fits isAsked
      (Offer.mem_selected_of_mem (offer.files_definitions definition)
        (by cases definition <;> rfl) member)
  refine reaches_inDirectory flat (room_directory fits isAsked) fun opened flatOpened stands => ?_
  refine reaches_asking (answers.definitions definition) fun asked sameDisk => ?_
  rw [← sameDisk] at flatOpened stands ⊢
  exact reaches_writeAssets flatOpened stands (fun asset member => (both asset member).1)
    fun asset member => (both asset member).2

theorem reaches_exportCustomGroups (isKind : kind = .customGroup) :
    Reaches (exportCustomGroups context patterns) world fun _ after =>
      Advances context.staging world.disk after.disk ∧
        after.disk.isDirectory (context.shelfOf kind) := by
  subst isKind
  have both : ∀ asset ∈ matchedAssets patterns offer.groups,
      IsEntry (asset.name ++ ".json") ∧
        Room (context.shelfOf .customGroup) (asset.name ++ ".json" ++ ".tmp") := fun asset member =>
    entry_and_room plain fits isAsked (Offer.mem_selected_of_mem offer.files_groups rfl member)
  refine reaches_inDirectory flat (room_directory fits isAsked) fun opened flatOpened stands => ?_
  refine reaches_asking answers.groups fun asked sameDisk => ?_
  rw [← sameDisk] at flatOpened stands ⊢
  split
  · exact .of_eq rfl (Advances.refl flatOpened)
  · exact .map (reaches_writeAssets flatOpened stands
      (fun asset member => (both asset member).1) fun asset member => (both asset member).2)

/-- Policies that are served are exported. -/
theorem reaches_exportPolicies (isKind : kind = .policy) :
    Reaches (exportPolicies context patterns) world fun _ after =>
      Advances context.staging world.disk after.disk ∧
        after.disk.isDirectory (context.shelfOf kind) := by
  subst isKind
  have isSidecar : offer.HasFile descriptor .policy PolicyMetadata.fileName :=
    .sidecar (Descriptor.asksFor_of_patterns isAsked) rfl
  have metadataEntry : IsEntry PolicyMetadata.fileName := by decide
  refine reaches_inDirectory flat (room_directory fits isAsked) fun opened flatOpened stands => ?_
  refine reaches_asking answers.policies fun asked sameDisk => ?_
  rw [← sameDisk] at flatOpened stands ⊢
  refine (Batch.reaches_each (fun _ after => Advances context.staging asked.disk after.disk) ?_
    (Advances.refl flatOpened)).bind ?_
  · intro _ policy between member advances
    obtain ⟨entry, room⟩ := entry_and_room plain fits isAsked
      (Offer.mem_selected_of_mem offer.files_policies rfl member)
    refine reaches_asking (answers.archives policy (List.mem_of_mem_filter member))
      fun fetched stillDisk => ?_
    rw [← stillDisk] at advances
    exact (reaches_replaceFile advances.flat (advances.stands _ stands) entry room _).mono
      fun _ _ => advances.trans
  · rintro report fetched ⟨none, advances⟩
    refine (reaches_replaceFile advances.flat (advances.stands _ stands) metadataEntry
      (fits.files _ _ isSidecar) _).bind fun _ stored stores => ?_
    exact (Reaches.settle (batchResult_nil none _) (advances.trans stores)).bind
      fun _ _ => .pure

theorem reaches_exportKind (queried : kind.isQueried) :
    Reaches (exportKind context kind patterns) world fun _ after =>
      Advances context.staging world.disk after.disk ∧
        after.disk.isDirectory (context.shelfOf kind) := by
  cases kind with
  | alertDefinition | symptomDefinition | recommendation =>
    exact .map (reaches_exportDefinitions answers plain fits isAsked flat rfl)
  | customGroup => exact reaches_exportCustomGroups answers plain fits isAsked flat rfl
  | policy => exact .map (reaches_exportPolicies answers plain fits isAsked flat rfl)
  | view | dashboard | report | superMetric | metricConfig => cases queried

end

theorem reaches_exportKinds (answers : context.query.Answers offer)
    (plain : ∀ kind patterns, descriptor.patterns kind = some patterns →
      ∀ name ∈ offer.selected kind patterns, IsPlain name)
    (fits : offer.FitsBelow descriptor context.staging ".tmp")
    (queried : ∀ kind, descriptor.asksFor kind → kind.isQueried)
    {kinds : List AssetKind} {stats : ExportStats} (flat : world.disk.Flat context.staging) :
    Reaches (exportKinds context descriptor stats kinds) world fun _ after =>
      Advances context.staging world.disk after.disk ∧ ∀ kind ∈ kinds,
        descriptor.asksFor kind → after.disk.isDirectory (context.shelfOf kind) := by
  induction kinds generalizing stats world with
  | nil => exact .pure ⟨Advances.refl flat, by simp⟩
  | cons kind rest ih =>
    unfold exportKinds
    cases isAsked : descriptor.patterns kind with
    | none =>
      refine (ih flat).mono fun _ after reached => ⟨reached.1, ?_⟩
      intro other member asked
      rcases List.mem_cons.1 member with rfl | later
      · simp [Descriptor.asksFor, isAsked] at asked
      · exact reached.2 other later asked
    | some patterns =>
      have isQueried := queried kind (Descriptor.asksFor_of_patterns isAsked)
      refine (reaches_exportKind answers plain fits isAsked flat isQueried).bind ?_
      rintro count between ⟨advances, stands⟩
      have later : ∀ stats, Reaches (exportKinds context descriptor stats rest) between
          fun _ after => Advances context.staging world.disk after.disk ∧
            ∀ other ∈ kind :: rest, descriptor.asksFor other →
              after.disk.isDirectory (context.shelfOf other) := by
        intro stats
        refine (ih advances.flat).mono fun _ after reached => ⟨advances.trans reached.1, ?_⟩
        intro other member asked
        rcases List.mem_cons.1 member with rfl | later
        · exact reached.1.stands _ stands
        · exact reached.2 other later asked
      cases count with
      | none => exact later stats
      | some count => exact later _

end Export

end OpsContent
