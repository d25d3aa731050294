import OpsContent.Proofs.QueuedFiles
import OpsContent.Proofs.Stocks

/-!
# Exported assets

What the parts of an export over the channel have delivered and added to the stock, from the single
asset up to all assets of a kind: listed assets, dashboards and metric configs.
-/

namespace OpsContent.Export

open OpsContent.Path Disk Staging List Sharing

variable {ρ α β : Type} {context : Context ρ} {zone : Zone} {log : ρ → List Delivery}
  {asked : AssetKind → Bool} {base : Path} {patterns : List String} {value : α}
  {world after : World ρ}

/-! ## Steps that succeed -/

theorem ask_ok {step : QueryAction ρ α} (done : Query.ask step world = (.ok value, after)) :
    step world.site = (.ok value, after.site) ∧ after.disk = world.disk := by
  unfold Query.ask World.onSite at done
  cases ran : step world.site with
  | mk outcome site =>
    rw [ran] at done
    cases outcome with
    | error cause => cases done
    | ok _ =>
      cases done
      exact ⟨rfl, rfl⟩

/-! ## Parts of an export -/

/-- What part of an export has done to the disk with what it has delivered: if the base stands
before and everything moved is a regular file, then the base still stands, and the deliveries were
added to the stock. -/
def Context.Fills (context : Context ρ) (asked : AssetKind → Bool) (base : Path)
    (added : List Delivery) (before after : Disk) : Prop :=
  (∀ delivery ∈ added, delivery.Regular) → before.isDirectory base = true →
    after.isDirectory base = true ∧
      ∀ past, context.Stock asked past before → context.Stock asked (past ++ added) after

/-- Part of an export went through, with the given deliveries.  The log has those that the channel
has carried. -/
structure Context.Exports (context : Context ρ) (zone : Zone) (log : ρ → List Delivery)
    (asked : AssetKind → Bool) (base : Path) (added : List Delivery) (before after : World ρ) :
    Prop where
  within : zone.Within after
  logged : log after.site.remote = log before.site.remote ++ added.filter Delivery.carried
  fills : context.Fills asked base added before.disk after.disk

namespace Context.Exports

variable {first second : List Delivery} {before between after : World ρ}

/-- Work that logs nothing exports nothing. -/
theorem quiet (within : zone.Within after)
    (same : log after.site.remote = log before.site.remote)
    (law : before.disk.isDirectory base → after.disk.isDirectory base ∧
      ∀ past, context.Stock asked past before.disk → context.Stock asked past after.disk) :
    context.Exports zone log asked base [] before after := by
  refine ⟨within, by simp [same], fun _ stands => ⟨(law stands).1, fun past => ?_⟩⟩
  rw [append_nil]
  exact (law stands).2 past

theorem onSite (within : zone.Within before) (sameDisk : after.disk = before.disk)
    (tags : after.site.TagsFit) (same : log after.site.remote = log before.site.remote) :
    context.Exports zone log asked base [] before after := by
  refine quiet ⟨?_, tags⟩ same ?_
  · rw [sameDisk]
    exact within.disk
  · rw [sameDisk]
    exact fun stands => ⟨stands, fun _ => id⟩

theorem refl (within : zone.Within before) :
    context.Exports zone log asked base [] before before :=
  onSite within rfl within.tags rfl

theorem trans (left : context.Exports zone log asked base first before between)
    (right : context.Exports zone log asked base second between after) :
    context.Exports zone log asked base (first ++ second) before after := by
  refine ⟨right.within, ?_, ?_⟩
  · rw [right.logged, left.logged, filter_append, append_assoc]
  · intro regular stands
    obtain ⟨standsBetween, stockLeft⟩ :=
      left.fills (fun delivery member => regular delivery (by simp [member])) stands
    obtain ⟨standsAfter, stockRight⟩ :=
      right.fills (fun delivery member => regular delivery (by simp [member])) standsBetween
    refine ⟨standsAfter, fun past stock => ?_⟩
    rw [← append_assoc]
    exact stockRight _ (stockLeft past stock)

theorem andQuiet (left : context.Exports zone log asked base first before between)
    (right : context.Exports zone log asked base [] between after) :
    context.Exports zone log asked base first before after := by
  rw [← append_nil first]
  exact left.trans right

end Context.Exports

/-- Whenever the step goes through with the value, it has delivered as told. -/
def Context.Supplies (context : Context ρ) (zone : Zone) (log : ρ → List Delivery)
    (asked : AssetKind → Bool) (base : Path) (step : Sync ρ α) (value : α)
    (delivers : List Delivery → Prop) : Prop :=
  ∀ ⦃world after⦄, zone.Within world → step world = (.ok value, after) →
    ∃ added, delivers added ∧ context.Exports zone log asked base added world after

namespace Context.Supplies

variable {step : Sync ρ α} {next : α → Sync ρ β} {value : α} {result : β}
  {delivers : List Delivery → Prop}

theorem pure {returned : α} (nothing : value = returned → delivers []) :
    context.Supplies zone log asked base (pure returned) value delivers := by
  intro world after within done
  obtain ⟨rfl, rfl⟩ := pure_ok done
  exact ⟨[], nothing rfl, Exports.refl within⟩

theorem andThen {early : α → List Delivery → Prop}
    (first : ∀ value, context.Supplies zone log asked base step value (early value))
    (later : ∀ value added, early value added →
      context.Supplies zone log asked base (next value) result fun more => delivers (added ++ more)) :
    context.Supplies zone log asked base (step >>= next) result delivers := by
  intro world after within done
  obtain ⟨value, between, ran, done⟩ := exceptBind_ok done
  obtain ⟨added, isEarly, exports⟩ := first value within ran
  obtain ⟨more, isDelivered, exportsMore⟩ := later value added isEarly exports.within done
  exact ⟨_, isDelivered, exports.trans exportsMore⟩

theorem behind {good : α → Prop}
    (first : ∀ value, context.Supplies zone log asked base step value
      fun added => good value ∧ added = [])
    (later : ∀ value, good value → context.Supplies zone log asked base (next value) result delivers)
    : context.Supplies zone log asked base (step >>= next) result delivers := by
  refine andThen first fun value added quiet => ?_
  obtain ⟨isGood, rfl⟩ := quiet
  exact later value isGood

theorem onSite {step : StateM (Site ρ) α} (tags : Keeps Site.TagsFit step)
    (silent : ∀ site, (step site).2.remote = site.remote) (value : α) :
    context.Supplies zone log asked base (World.always (World.onSite step)) value
      fun added => True ∧ added = [] := by
  intro world after within done
  cases always_ok done
  exact ⟨[], ⟨trivial, rfl⟩,
    Exports.onSite within rfl (tags _ within.tags) (congrArg log (silent world.site))⟩

end Context.Supplies

/-- A question to a server whose answers satisfy the condition, and that makes it deliver
nothing. -/
structure Offering (log : ρ → List Delivery) (question : QueryAction ρ α)
    (condition : α → Prop) : Prop where
  tags : Keeps Site.TagsFit question
  silent : ∀ site, log (question site).2.remote = log site.remote
  yields : Yields question condition

theorem Offering.ask {question : QueryAction ρ α} {condition : α → Prop}
    (offering : Offering log question condition) (value : α) :
    context.Supplies zone log asked base (Query.ask question) value
      fun added => condition value ∧ added = [] := by
  intro world after within done
  obtain ⟨answered, sameDisk⟩ := Export.ask_ok done
  have tags := offering.tags world.site within.tags
  have same := offering.silent world.site
  rw [answered] at tags same
  exact ⟨[], ⟨offering.yields _ _ _ answered, rfl⟩,
    Context.Exports.onSite within sameDisk tags same⟩

theorem remote_warnOfWildcards (kind : AssetKind) (patterns : List String) (site : Site ρ) :
    (warnOfWildcards kind patterns site).2.remote = site.remote := by
  unfold warnOfWildcards
  induction patterns.filter Pattern.isWildcard generalizing site with
  | nil => rfl
  | cons pattern rest ih => exact ih (Site.warn _ site).2

theorem exports_of_works {passes : α → World ρ → World ρ → Prop} {values : List α}
    (covers : List α → List Delivery → Prop) (nothing : covers [] [])
    (more : ∀ value rest first later, covers [value] first → covers rest later →
      covers (value :: rest) (first ++ later)) (works : Batch.Works passes values world after)
    (law : ∀ value ∈ values, ∀ world after, zone.Within world → passes value world after →
      ∃ added, covers [value] added ∧ context.Exports zone log asked base added world after)
    (within : zone.Within world) :
    ∃ added, covers values added ∧ context.Exports zone log asked base added world after := by
  induction works with
  | nil => exact ⟨[], nothing, Context.Exports.refl within⟩
  | cons first later ih =>
    obtain ⟨one, isOne, exports⟩ := law _ (by simp) _ _ within first
    obtain ⟨rest, isRest, exportsRest⟩ :=
      ih (forall_mem_cons.1 law).2 exports.within
    exact ⟨_, more _ _ _ _ isOne isRest, exports.trans exportsRest⟩

/-- A way to stage assets of a kind that puts them into their directory. -/
structure Stage.Puts (zone : Zone) (kind : ChannelKind) (stage : Stage ρ) : Prop where
  keeps : ∀ {name : String} {scratch directory : Path}, IsPlain name → zone.Encloses 1 scratch →
    zone.Encloses 2 directory → Keeps zone.Within (stage name scratch directory)
  remote : ∀ (name : String) (scratch directory : Path) (server : ρ),
    Keeps (World.Has (· = server)) (stage name scratch directory)
  ok : ∀ {name aside : String} {directory : Path} {file : Option Bytes} {world after : World ρ},
    StagingPlace zone aside directory world → IsPlain name →
    (world.disk.readFile ((zone.root.join aside).join (kind.fileName name))).toOption = file →
    (⟨kind.assetKind, name, file⟩ : Delivery).Regular →
    stage name (zone.root.join aside) directory world = (.ok (), after) →
    Staged ⟨kind.assetKind, name, file⟩ (zone.root.join aside) directory world after

theorem puts_stageView (zone : Zone) : Stage.Puts zone .view (stageView : Stage ρ) where
  keeps plain := Zone.keeps_stageView (AssetKind.fits_of_isPlain _ plain)
  remote _ _ _ _ := keepsRemote_stageUnpacked
  ok place := place.stageView_ok

theorem puts_stageDashboard (zone : Zone) :
    Stage.Puts zone .dashboard (stageDashboard : Stage ρ) where
  keeps plain := Zone.keeps_stageDashboard (AssetKind.fits_of_isPlain _ plain)
  remote _ _ _ _ := keepsRemote_stageUnpacked
  ok place := place.stageDashboard_ok

theorem puts_stageReport (zone : Zone) : Stage.Puts zone .report (stageReport : Stage ρ) where
  keeps plain := Zone.keeps_stageReport (AssetKind.fits_of_isPlain _ plain)
  remote _ _ _ _ := keepsRemote_stageReport
  ok place plain delivered _ := place.stageReport_ok plain delivered

theorem puts_stageSuperMetric (zone : Zone) :
    Stage.Puts zone .superMetric (stageSuperMetric : Stage ρ) where
  keeps plain := Zone.keeps_stageSuperMetric (AssetKind.fits_of_isPlain _ plain)
  remote _ _ _ _ := keepsRemote_stageSuperMetric
  ok place := place.stageSuperMetric_ok

namespace Context.Noting

variable {kind : ChannelKind} {name : String} (noting : context.Noting zone log) {disk : Disk}
  {aside description : String} {world after : World ρ} {delivery : Delivery} {stage : Stage ρ}
  {names : List String} {delivers : List Delivery → Prop} {count : Nat}
  {words : ChannelError → String} {package : Package} {staged : World ρ}

include noting

theorem notBlank_staging : context.staging.pieces ≠ [""] := by
  rw [noting.staging_eq]
  exact pieces_join_ne_blank _ isEntry_staging

theorem place_staging (holds : zone.Holds disk) :
    disk.place context.staging = zone.top ++ ["vrops-export"] := by
  rw [noting.staging_eq, place_join _ _ isEntry_staging, place_congr holds.current]
  rfl

theorem encloses_shelf (kind : AssetKind) : zone.Encloses 2 (context.shelfOf kind) :=
  noting.inside.encloses_directory kind

theorem isDirectory_staging {kind : AssetKind}
    (stands : disk.isDirectory (context.shelfOf kind)) :
    disk.isDirectory context.staging :=
  isDirectory_of_node?_join (AssetKind.isEntry_directory _) noting.notBlank_staging
    (isDirectory_iff_node?.1 stands)

theorem stagingPlace (different : aside ≠ "vrops-export") (entry : IsEntry aside)
    (within : zone.Within world) {kind : AssetKind}
    (stands : world.disk.isDirectory (context.shelfOf kind)) :
    StagingPlace zone aside (context.shelfOf kind) world := by
  refine ⟨within, entry, noting.encloses_shelf kind, stands, ?_⟩
  have scratch : world.disk.place (zone.root.join aside) = zone.top ++ [aside] := by
    rw [place_join _ _ entry, place_congr within.disk.current]
    rfl
  have shelf : world.disk.place (context.shelfOf kind) =
      zone.top ++ ["vrops-export", kind.directory] := by
    rw [Context.shelfOf, place_join _ _ (AssetKind.isEntry_directory _),
      noting.place_staging within.disk, append_assoc]
    rfl
  rw [scratch, shelf]
  constructor
  · rw [prefix_append_right_inj, cons_prefix_cons]
    exact fun below => different below.1
  · rw [prefix_append_right_inj, cons_prefix_cons]
    exact fun below => different below.1.symm

theorem puts_of_staged (different : aside ≠ "vrops-export") (entry : IsEntry aside) {after : Disk}
    (plain : IsPlain delivery.name) (within : zone.Within world)
    (stands : world.disk.isDirectory (context.shelfOf delivery.kind))
    (puts : Staged delivery (zone.root.join aside) (context.shelfOf delivery.kind) world staged)
    (closes : TouchesBelow context.staging (fun _ => False) staged.disk after) :
    context.Puts delivery world.disk after := by
  have standsStaging := noting.isDirectory_staging stands
  have directory := delivery.kind.isEntry_directory
  have touches : TouchesBelow context.staging (fun place => ∃ rest,
      (delivery.kind.HasPart delivery.name rest ∨ delivery.kind.IsText rest) ∧
        place = delivery.kind.directory :: rest) world.disk staged.disk := by
    apply puts.touches.below
    rintro place (below | ⟨rest, which, here⟩)
    · rw [place_join _ _ entry, place_congr within.disk.current, noting.place_staging within.disk,
        append_assoc] at below
      have beside : isBelow (zone.top ++ [aside]) (zone.top ++ "vrops-export" :: place) = false :=
        notBelow_of_ne different.symm place
      exact absurd below (by simpa [Zone.top] using beside)
    · rw [Context.shelfOf, place_join _ _ directory, append_assoc,
        append_cancel_left_eq] at here
      exact ⟨rest, which, here⟩
  have standsLater := touches.stands standsStaging
  have kept : ∀ names : List String, (∀ name ∈ names, IsEntry name) →
      after.node? (((context.shelfOf delivery.kind).join
          (delivery.kind.entry delivery.name)).extend names) =
        staged.disk.node? (((context.shelfOf delivery.kind).join
          (delivery.kind.entry delivery.name)).extend names) := by
    intro names entries
    have all : ∀ one ∈ delivery.kind.directory :: delivery.kind.entry delivery.name :: names,
        IsEntry one := by
      simpa using ⟨directory, delivery.kind.isEntry_entry plain, entries⟩
    exact closes.node?_extend standsLater all fun _ _ _ => Or.inl id
  refine ⟨touches.trans (closes.mono fun _ => False.elim), ?_, ?_⟩
  · obtain ⟨node, found, sort⟩ := puts.stands
    exact ⟨node, (kept [] (by simp)).trans found, sort⟩
  · intro content holds
    have held := readFile_eq_ok_iff.1 (puts.held content holds)
    rw [readFile_eq_ok_iff, ← held]
    exact kept _ delivery.kind.shelving.proper

theorem fills_of_staged (different : aside ≠ "vrops-export") (entry : IsEntry aside)
    (isAsked : asked delivery.kind) (plain : IsPlain delivery.name) {exported : World ρ}
    (opens : TouchesBelow context.staging (fun _ => False) world.disk exported.disk)
    (within : zone.Within exported) (stages : delivery.Regular →
      StagingPlace zone aside (context.shelfOf delivery.kind) exported →
      Staged delivery (zone.root.join aside) (context.shelfOf delivery.kind) exported staged)
    (closes : TouchesBelow context.staging (fun _ => False) staged.disk after.disk) :
    context.Fills asked (context.shelfOf delivery.kind) [delivery] world.disk after.disk := by
  intro regular stands
  have directory := delivery.kind.isEntry_directory
  have standsExported := (opens.inner noting.notBlank_staging directory).stands stands
  have place := noting.stagingPlace different entry within standsExported
  have puts := (noting.puts_of_staged different entry plain within standsExported
    (stages (regular delivery (by simp)) place) closes).of_before opens
  exact ⟨(puts.touches.inner noting.notBlank_staging directory).stands stands,
    fun past => puts.stock noting.notBlank_staging isAsked plain⟩

omit noting in
theorem carried_assetKind (kind : ChannelKind) (name : String) (file : Option Bytes) :
    (⟨kind.assetKind, name, file⟩ : Delivery).carried := by
  cases kind <;> rfl

/-- An asset that arrives adds to the stock. -/
theorem exportOne_supplies (fits : Stage.Puts zone kind stage) (notConfig : kind ≠ .metricConfig)
    (isAsked : asked kind.assetKind) (plain : IsPlain name) :
    context.Supplies zone log asked (context.shelfOf kind.assetKind)
      (exportOne context kind description stage (context.shelfOf kind.assetKind) name) none
      fun added => ∃ file, added = [⟨kind.assetKind, name, file⟩] := by
  intro world after within done
  have stageKeeps : ∀ scratch, zone.Encloses 1 scratch →
      Keeps zone.Within (stage name scratch (context.shelfOf kind.assetKind)) :=
    fun scratch encloses => fits.keeps plain encloses (noting.encloses_shelf kind.assetKind)
  have withinAfter := noting.inside.keeps_exportOne kind description stageKeeps world within
  rw [done] at withinAfter
  unfold exportOne at done
  obtain ⟨aside, opened, last, different, entry, withinOpened, standsScratch, sameRemote, opens,
    worked, remoteAfter, closes⟩ := noting.withScratch_ok within done
  obtain ⟨_, exported, exporting, staging⟩ := exceptBind_ok worked
  have exporting := Channel.run_ok exporting
  have staging := Batch.item_none (always_ok staging)
  -- the channel leaves its file
  obtain ⟨withinExported, leaves⟩ :=
    noting.exportAsset_aside different entry withinOpened standsScratch kind name
  rw [exporting] at withinExported leaves
  have withinLast := stageKeeps _ (zone.encloses_root.joinEntry entry) exported withinExported
  rw [staging] at withinLast
  have logged := noting.records.exported _ _ _ _ _ exporting
  rw [Delivery.left, if_neg (by simp [notConfig])] at logged
  have stagedRemote := fits.remote name (zone.root.join aside) (context.shelfOf kind.assetKind) _
    exported rfl
  rw [staging] at stagedRemote
  refine ⟨_, ⟨_, rfl⟩, withinAfter, ?_, noting.fills_of_staged different entry isAsked plain
    (opens.trans leaves) withinExported
    (fun regular place => fits.ok place plain rfl regular staging) (closes withinLast)⟩
  rw [remoteAfter, stagedRemote, logged, sameRemote, filter_cons_of_pos (carried_assetKind _ _ _),
    filter_nil]

theorem session_supplies {steps : Sync ρ α}
    (law : context.Supplies zone log asked base steps value delivers) :
    context.Supplies zone log asked base
      (context.channel.session package description words steps) value delivers := by
  intro world after within done
  obtain ⟨opened, closed, connected, sameDisk, ran, rfl⟩ := Channel.session_ok done
  have tags := noting.inside.channel.connect world.site within.tags
  have same := noting.records.connect world.site
  rw [connected] at tags same
  have opens : context.Exports zone log asked base [] world opened :=
    Context.Exports.onSite within sameDisk tags same
  obtain ⟨added, isAdded, works⟩ := law opens.within ran
  have closes : context.Exports zone log asked base [] closed
      (World.onSite context.channel.close closed).2 :=
    Context.Exports.onSite works.within rfl (noting.inside.channel.close _ works.within.tags)
      (noting.records.close _)
  exact ⟨added, isAdded, (opens.trans works).andQuiet closes⟩

theorem tally_supplies {batch : String} {each : String → String → Sync ρ (Option ItemFailure)}
    {result : Batch.Report → α} (covers : List String → List Delivery → Prop)
    (nothing : covers [] [])
    (more : ∀ name rest first later, covers [name] first → covers rest later →
      covers (name :: rest) (first ++ later))
    (one : ∀ description, ∀ name ∈ names, context.Supplies zone log asked base
      (each description name) none (covers [name])) :
    context.Supplies zone log asked base
      (World.always context.channel.description >>= fun description =>
        context.channel.session package description words (Batch.tally (each description) {} names)
          >>= fun report => World.settle (batchResult batch report.failures) >>= fun _ =>
            pure (result report)) value
      fun added => value = result { done := names.length } ∧ covers names added := by
  intro world after within done
  obtain ⟨description, _, described, done⟩ := exceptBind_ok done
  cases always_ok described
  obtain ⟨report, ran, clean, rfl⟩ := settled_ok done
  refine noting.session_supplies ?_ within ran
  intro opened closed withinOpened worked
  obtain ⟨counted, works⟩ := Batch.tally_ok worked clean
  obtain rfl : report = { done := names.length } := by
    rw [← Nat.zero_add names.length, ← counted, ← clean]
  obtain ⟨added, isAdded, exports⟩ := exports_of_works covers nothing more works
    (fun name member _ _ within ran => one _ name member within ran) withinOpened
  exact ⟨added, ⟨rfl, isAdded⟩, exports⟩

/-- Each name was delivered, and all were counted. -/
def Covers (kind : AssetKind) (names : List String) (count : Nat) (added : List Delivery) : Prop :=
  count = names.length ∧ added.map Delivery.key = names.map (Prod.mk kind)

theorem exportNames_supplies (fits : Stage.Puts zone kind stage) (notConfig : kind ≠ .metricConfig)
    (isAsked : asked kind.assetKind) (plain : ∀ name ∈ names, IsPlain name) :
    context.Supplies zone log asked (context.shelfOf kind.assetKind)
      (exportNames context kind stage (context.shelfOf kind.assetKind) names) count
      (Covers kind.assetKind names count) := by
  unfold exportNames
  split
  next none =>
    rw [isEmpty_iff.1 none]
    exact .pure fun counted => ⟨counted, rfl⟩
  · simp only [exportEach_eq]
    refine noting.tally_supplies
      (fun names added => added.map Delivery.key = names.map (Prod.mk kind.assetKind)) rfl ?_
      fun description name member => ?_
    · intro name rest first later isFirst isLater
      rw [map_append, isFirst, isLater]
      rfl
    · intro world after within done
      obtain ⟨_, ⟨file, rfl⟩, exports⟩ :=
        noting.exportOne_supplies fits notConfig isAsked (plain name member) within done
      exact ⟨_, rfl, exports⟩

/-! ## Listed assets -/

theorem inDirectory_supplies {kind : AssetKind} (isAsked : asked kind)
    {next : Path → Sync ρ α}
    (law : context.Supplies zone log asked (context.shelfOf kind) (next (context.shelfOf kind)) value
      delivers) :
    context.Supplies zone log asked context.staging (context.kindDirectory kind >>= next) value
      delivers := by
  intro world after within done
  obtain ⟨directory, opened, made, finished⟩ := exceptBind_ok done
  obtain ⟨_, _, filing, isShelf⟩ := exceptBind_ok made
  obtain ⟨rfl, rfl⟩ := pure_ok isShelf
  have withinOpened := Zone.keeps_files
    (Zone.keeps_makeDirectories (noting.encloses_shelf kind)) world within
  rw [Context.shelfOf, filing] at withinOpened
  obtain ⟨added, isAdded, works⟩ := law withinOpened finished
  obtain ⟨making, sameSite⟩ := Zone.files_ok filing
  refine ⟨added, isAdded, works.within, by rw [works.logged, sameSite], fun regular stands => ?_⟩
  obtain ⟨opens, standsShelf, -⟩ :=
    makeDirectories_join_ok kind.isEntry_directory stands making
  obtain ⟨standsAfter, fills⟩ := works.fills regular standsShelf
  refine ⟨noting.isDirectory_staging standsAfter, fun past stock => fills past ?_⟩
  have below : TouchesBelow context.staging (· = [kind.directory]) world.disk opened.disk :=
    opens.below fun rest here => append_cancel_left here
  refine stock.of_touches noting.notBlank_staging below ?_ ?_
  · intro delivery _ place part same
    obtain ⟨rest, rfl⟩ := part.head
    simp at same
  · rintro place node rfl found
    have here := (isDirectory_iff.1 standsShelf).2.2
    rw [place_join _ _ kind.isEntry_directory, place_congr below.current,
      found] at here
    cases here
    exact .directory isAsked

theorem exportListed_supplies (fits : Stage.Puts zone kind stage) (notConfig : kind ≠ .metricConfig)
    (isAsked : asked kind.assetKind) {listing : QueryAction ρ (List Listing)}
    {offered : List String}
    (offers : Offering log listing fun listed => listed.map (·.name) = offered)
    (plain : ∀ name ∈ Pattern.select patterns offered, IsPlain name) :
    context.Supplies zone log asked context.staging
      (exportListed context kind listing stage patterns) count
      (Covers kind.assetKind (Pattern.select patterns offered) count) := by
  refine .behind offers.ask fun listed isOffered world after within done => ?_
  obtain ⟨names, matched, done⟩ := settleBind_ok done
  obtain rfl : names = Pattern.select patterns offered := by
    unfold matchedNames at matched
    split at matched
    · cases matched
    · cases matched
      rw [isOffered]
  exact noting.inDirectory_supplies isAsked
    (noting.exportNames_supplies fits notConfig isAsked plain) within done

/-! ## Dashboards -/

omit noting in
theorem seedIfAbsent_cases (project : Path) (names : List String)
    (stands : disk.isDirectory (context.shelfOf .dashboard)) :
    (seedIfAbsent context.staging project names disk).2 = disk ∨
      disk.node? ((context.shelfOf .dashboard).join fileName) = none ∧
        Replaced (context.shelfOf .dashboard) fileName
          (Bytes.ofText (seed names).toJson.pretty) disk
          (seedIfAbsent context.staging project names disk).2 := by
  have ends : (context.shelfOf .dashboard).EndsInName :=
    endsInName_join _ AssetKind.dashboard.isEntry_directory
  have entry : IsEntry fileName := by decide
  have draft : IsEntry (fileName ++ ".tmp") := by decide
  have law : seedIfAbsent context.staging project names disk =
      (if disk.pathExists (path context.staging) || disk.pathExists (path project)
        then pure false
        else replaceFile (path context.staging)
          (Bytes.ofText (seed names).toJson.pretty) >>= fun _ => pure true :
        DiskAction Bool) disk := rfl
  rw [law]
  split
  · exact Or.inl rfl
  next absent =>
    rw [Bool.not_eq_true, Bool.or_eq_false_iff] at absent
    have missing : disk.node? ((context.shelfOf .dashboard).join fileName) = none :=
      Option.isSome_eq_false_iff.1 absent.1 |> Option.isNone_iff_eq_none.1
    have path : path context.staging =
      (context.shelfOf .dashboard).join fileName := rfl
    rw [path]
    rcases replaceFile_cases ends stands entry draft
        (Bytes.ofText (seed names).toJson.pretty) (by simp [missing]) with
      ⟨cause, failed, -⟩ | ⟨after, done⟩
    · left
      rw [exceptBind_apply, failed]
    · right
      rw [exceptBind_of_ok done]
      exact ⟨missing, replaced_of_replaceFile ends stands entry draft done⟩

theorem seedIfAbsent_supplies (isAsked : asked .dashboard) (project : Path)
    (names : List String) (seeded : Except IoError Bool) :
    context.Supplies zone log asked (context.shelfOf .dashboard)
      (World.outcomeOf (World.onDisk (seedIfAbsent context.staging project names))) seeded
      fun added => True ∧ added = [] := by
  intro world after within done
  cases always_ok done
  refine ⟨[], ⟨trivial, rfl⟩, ?_⟩
  have withinAfter := Zone.keeps_onDisk (noting.inside.keeps_seedIfAbsent project names) world within
  refine Context.Exports.quiet withinAfter rfl fun stands => ?_
  rcases seedIfAbsent_cases project names stands with same | ⟨missing, replaced⟩
  · change isDirectory (seedIfAbsent _ _ _ _).2 _ ∧ ∀ past, _ →
      context.Stock asked past (seedIfAbsent _ _ _ _).2
    rw [same]
    exact ⟨stands, fun _ => id⟩
  · refine ⟨replaced.touches.isDirectory stands, fun past stock => ?_⟩
    refine stock.of_sidecar noting.notBlank_staging isAsked rfl ?_ replaced
    intro delivery member isDashboard same
    obtain ⟨node, found, -⟩ := stock.stands delivery member
    rw [isDashboard, same, missing] at found
    cases found

theorem exportDashboards_supplies (isAsked : asked .dashboard)
    (plain : ∀ name ∈ literals patterns, IsPlain name) :
    context.Supplies zone log asked context.staging (exportDashboards context patterns) count
      (Covers .dashboard (literals patterns) count) := by
  refine .behind (.onSite (Context.Inside.keeps_warnOfWildcards _ _) (remote_warnOfWildcards _ _))
    fun _ _ => noting.inDirectory_supplies isAsked ?_
  refine .andThen (fun found => noting.exportNames_supplies (puts_stageDashboard zone) (by decide)
    isAsked plain) fun found added covers => ?_
  have quiet : count = found → Covers .dashboard (literals patterns) count (added ++ []) := by
    rintro rfl
    rwa [append_nil]
  refine .behind (noting.seedIfAbsent_supplies isAsked _ _) fun seeded _ => ?_
  cases seeded with
  | ok _ => exact .pure quiet
  | error cause =>
    exact .behind (.onSite (Zone.keeps_note _ _) fun _ => rfl) fun _ _ => .pure quiet

/-! ## Metric configs -/

/-- A metric config is delivered if it is there. -/
theorem tryMetricConfig_supplies (isAsked : asked .metricConfig) {candidate : String}
    (plain : IsPlain candidate) (found : Bool) :
    context.Supplies zone log asked (context.shelfOf .metricConfig)
      (tryMetricConfig context (context.shelfOf .metricConfig) candidate) found fun added =>
        added.map Delivery.key = if found then [(.metricConfig, candidate)] else [] := by
  intro world after within done
  have stays : StaysWithin 1 candidate := AssetKind.fits_of_isPlain .metricConfig plain candidate
    (by simp [AssetKind.stagedNames])
  have withinAfter := noting.inside.keeps_tryMetricConfig (noting.encloses_shelf .metricConfig)
    stays world within
  rw [done] at withinAfter
  unfold tryMetricConfig at done
  obtain ⟨aside, opened, last, different, entry, withinOpened, standsScratch, sameRemote, opens,
    worked, remoteAfter, closes⟩ := noting.withScratch_ok within done
  obtain ⟨outcome, exported, exporting, worked⟩ := exceptBind_ok worked
  have exporting := always_ok exporting
  obtain ⟨withinExported, leaves⟩ :=
    noting.exportAsset_aside different entry withinOpened standsScratch .metricConfig candidate
  rw [exporting] at withinExported leaves
  have opens := opens.trans leaves
  -- nothing was left
  have nothing : log exported.site.remote = log opened.site.remote →
      last = exported → found = false →
      ∃ added, added.map Delivery.key = (if found then [(.metricConfig, candidate)] else []) ∧
        context.Exports zone log asked (context.shelfOf .metricConfig) added world after := by
    rintro same rfl rfl
    have quiet := opens.trans (closes withinExported)
    refine ⟨[], rfl, Context.Exports.quiet withinAfter (by rw [remoteAfter, same, sameRemote])
      fun stands => ⟨?_, ?_⟩⟩
    · exact (quiet.inner noting.notBlank_staging
        AssetKind.metricConfig.isEntry_directory).stands stands
    · intro past stock
      exact stock.of_touches noting.notBlank_staging quiet (fun _ _ _ _ => id)
        fun _ _ => False.elim
  cases outcome with
  | error cause =>
    cases worked
    exact nothing (noting.records.failed _ _ _ _ _ _ exporting) rfl rfl
  | ok _ =>
    have logged := noting.records.exported _ _ _ _ _ exporting
    replace worked := lookBind_eq worked
    split at worked
    next isFile =>
      obtain ⟨bytes, stored⟩ := isFile_iff.1 isFile
      have read := readFile_eq_ok_iff.2 stored
      obtain ⟨_, moved, moving, worked⟩ := exceptBind_ok worked
      obtain ⟨rfl, rfl⟩ := pure_ok worked
      rw [Delivery.left, ChannelKind.fileName, read, if_neg (by simp [Except.toOption])] at logged
      have source := (zone.encloses_root.joinEntry entry).joinEntry plain.isEntry
      have target := (noting.encloses_shelf .metricConfig).joinEntry plain.isEntry
      have withinMoved := Zone.keeps_move (source.mono (by decide)) (target.mono (by decide)) _
        withinExported
      rw [moving] at withinMoved
      have movedRemote := congrArg Site.remote (Zone.files_ok moving).2
      refine ⟨[⟨.metricConfig, candidate, some bytes⟩], rfl, withinAfter, ?_, ?_⟩
      · rw [remoteAfter, movedRemote, logged, sameRemote]
        rfl
      · exact noting.fills_of_staged different entry isAsked plain opens withinExported
          (fun _ place => place.moveMetricConfig_ok plain read moving) (closes withinMoved)
    next noFile =>
      obtain ⟨missing, same⟩ := pure_ok worked
      refine nothing ?_ same missing
      cases read : exported.disk.readFile ((zone.root.join aside).join candidate) with
      | error cause =>
        rw [logged, Delivery.left, ChannelKind.fileName, read]
        simp [Except.toOption]
      | ok bytes => exact absurd (isFile_iff.2 ⟨bytes, readFile_eq_ok_iff.1 read⟩) noFile

omit noting in
theorem isPlain_extended (plain : IsPlain name) : IsPlain (name ++ ".xml") := by
  have entry : IsEntry (name ++ ".xml") :=
    isEntry_append plain.isEntry.noSlash (by decide) (by decide)
  refine ⟨entry.notEmpty, entry.notSelf, entry.notParent, entry.noSlash, ?_⟩
  simp [plain.2.2.2.2]

end Context.Noting

/-- The deliveries are the metric configs of the given names, each under its name, under its name
with an extension, or under both. -/
structure AreConfigs (names : List String) (added : List Delivery) : Prop where
  kinds : ∀ delivery ∈ added, delivery.kind = .metricConfig
  asked : ∀ delivery ∈ added, ∃ name ∈ names,
    delivery.name = name ∨ delivery.name = name ++ ".xml"
  found : ∀ name ∈ names, ∃ delivery ∈ added,
    delivery.name = name ∨ delivery.name = name ++ ".xml"

theorem AreConfigs.cons {name : String} {names : List String} {first rest : List Delivery}
    (one : AreConfigs [name] first) (more : AreConfigs names rest) :
    AreConfigs (name :: names) (first ++ rest) := by
  obtain ⟨kinds, asked, found⟩ := one
  obtain ⟨moreKinds, moreAsked, moreFound⟩ := more
  obtain ⟨delivery, here, which⟩ := found name (by simp)
  refine ⟨by grind, by grind, by grind⟩

namespace Context.Noting

variable {name : String} (noting : context.Noting zone log) (isAsked : asked .metricConfig)

include noting isAsked

theorem exportMetricConfig_supplies (plain : IsPlain name) :
    context.Supplies zone log asked (context.shelfOf .metricConfig)
      (exportMetricConfig context (context.shelfOf .metricConfig) name) none
      (AreConfigs [name]) := by
  refine .andThen (noting.tryMetricConfig_supplies isAsked plain) fun foundPlain left leftKeys => ?_
  refine .andThen (noting.tryMetricConfig_supplies isAsked (isPlain_extended plain))
    fun foundExtended right rightKeys => ?_
  split
  next found =>
    refine .pure fun _ => ?_
    rw [append_nil]
    have keys : ∀ key, key ∈ (left ++ right).map Delivery.key ↔
        foundPlain ∧ key = (.metricConfig, name) ∨
          foundExtended ∧ key = (.metricConfig, name ++ ".xml") := by
      intro key
      rw [map_append, leftKeys, rightKeys]
      cases foundPlain <;> cases foundExtended <;> simp
    have key : ∀ delivery ∈ left ++ right, delivery.kind = .metricConfig ∧
        (delivery.name = name ∨ delivery.name = name ++ ".xml") := by
      intro delivery member
      rcases (keys delivery.key).1 (mem_map_of_mem member) with ⟨-, same⟩ | ⟨-, same⟩
      · exact ⟨congrArg Prod.fst same, .inl (congrArg Prod.snd same)⟩
      · exact ⟨congrArg Prod.fst same, .inr (congrArg Prod.snd same)⟩
    have some : left ++ right ≠ [] := by
      intro nothing
      rw [nothing] at keys
      cases foundPlain <;> cases foundExtended <;> simp_all
    obtain ⟨delivery, member⟩ := exists_mem_of_ne_nil _ some
    refine ⟨fun delivery member => (key delivery member).1, fun delivery member =>
      ⟨name, by simp, (key delivery member).2⟩, fun other isName => ⟨delivery, member, ?_⟩⟩
    rw [mem_singleton.1 isName]
    exact (key delivery member).2
  · intro world after within done
    cases done

theorem exportMetricConfigs_supplies (plain : ∀ name ∈ literals patterns, IsPlain name)
    (count : Option Nat) :
    context.Supplies zone log asked context.staging (exportMetricConfigs context patterns) count
      fun added => count.getD 0 = (literals patterns).length ∧
        AreConfigs (literals patterns) added := by
  refine .behind (.onSite (Context.Inside.keeps_warnOfWildcards _ _) (remote_warnOfWildcards _ _))
    fun _ _ => noting.inDirectory_supplies isAsked ?_
  split
  next none =>
    rw [isEmpty_iff.1 none]
    refine .pure ?_
    rintro rfl
    exact ⟨rfl, by simp, by simp, by simp⟩
  · simp only [exportEachMetricConfig_eq]
    intro world after within done
    obtain ⟨added, ⟨rfl, areConfigs⟩, exports⟩ := noting.tally_supplies AreConfigs
      ⟨by simp, by simp, by simp⟩ (fun _ _ _ _ => AreConfigs.cons)
      (fun _ name member => noting.exportMetricConfig_supplies isAsked (plain name member)) within
      done
    exact ⟨added, ⟨rfl, areConfigs⟩, exports⟩

end Context.Noting

end OpsContent.Export
