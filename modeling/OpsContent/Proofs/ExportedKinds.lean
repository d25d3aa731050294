import OpsContent.Proofs.ExportedAssets

/-!
# Exported kinds

What a server has on offer, and what an export delivers of it: of every kind that is asked for, the
listed assets that match a pattern, or the assets that are named by one.
-/

namespace OpsContent

open OpsContent.Path Disk List

variable {ρ : Type} {kind : AssetKind} {descriptor : Descriptor} {patterns : List String}

/-- Does the descriptor mention the kind? -/
def Descriptor.asksFor (descriptor : Descriptor) (kind : AssetKind) : Bool :=
  (descriptor.patterns kind).isSome

theorem Descriptor.asksFor_of_patterns (isAsked : descriptor.patterns kind = some patterns) :
    descriptor.asksFor kind :=
  Option.isSome_iff_exists.2 ⟨patterns, isAsked⟩

/-! ## Offers -/

/-- What a server has on offer. -/
structure Offer where
  views : List String
  reports : List String
  superMetrics : List String
  definitions : DefinitionKind → List RemoteAsset
  groups : List RemoteAsset
  policies : List PolicySummary
  archive : PolicySummary → Bytes

/-- The file that is written for an asset. -/
def RemoteAsset.file (asset : RemoteAsset) : String × Bytes :=
  (asset.name, Bytes.ofText asset.content.pretty)

namespace Offer

/-- The assets of the query interface by name, each with the file that is made of it. -/
def files (offer : Offer) : AssetKind → List (String × Bytes)
  | .alertDefinition => (offer.definitions .alert).map (·.file)
  | .symptomDefinition => (offer.definitions .symptom).map (·.file)
  | .recommendation => (offer.definitions .recommendation).map (·.file)
  | .customGroup => offer.groups.map (·.file)
  | .policy => offer.policies.map fun policy => (policy.name, offer.archive policy)
  | _ => []

theorem files_definitions (offer : Offer) (kind : DefinitionKind) :
    offer.files kind.assetKind = (offer.definitions kind).map (·.file) := by
  cases kind <;> rfl

theorem files_groups (offer : Offer) :
    offer.files .customGroup = offer.groups.map (·.file) := rfl

theorem files_policies (offer : Offer) : offer.files .policy =
    offer.policies.map fun policy => (policy.name, offer.archive policy) := rfl

/-- The names that are listed for a kind. -/
def listed (offer : Offer) : AssetKind → List String
  | .view => offer.views
  | .report => offer.reports
  | .superMetric => offer.superMetrics
  | kind => (offer.files kind).map Prod.fst

/-- The names that patterns ask for: of a listing, or literally. -/
def selected (offer : Offer) (kind : AssetKind) (patterns : List String) : List String :=
  match kind with
  | .dashboard | .metricConfig => Export.literals patterns
  | _ => Pattern.select patterns (offer.listed kind)

/-- The files whose names match. -/
def matched (offer : Offer) (kind : AssetKind) (patterns : List String) : List (String × Bytes) :=
  (offer.files kind).filter fun file => Pattern.anyAccepts patterns file.1

theorem map_matched (offer : Offer) (queried : kind.isQueried) (patterns : List String) :
    (offer.matched kind patterns).map Prod.fst = offer.selected kind patterns := by
  have selects : offer.selected kind patterns =
      Pattern.select patterns ((offer.files kind).map Prod.fst) := by
    cases kind <;> first | rfl | nomatch queried
  rw [selects, Pattern.select, filter_map]
  rfl

/-- What the export of a kind delivers of an offer. -/
structure Delivers (offer : Offer) (kind : AssetKind) (patterns : List String)
    (added : List Delivery) : Prop where
  kinds : ∀ delivery ∈ added, delivery.kind = kind
  names : kind ≠ .metricConfig → added.map (·.name) = offer.selected kind patterns
  configs : kind = .metricConfig → Export.AreConfigs (Export.literals patterns) added
  files : kind.isQueried = true →
    added = (offer.matched kind patterns).map fun file => ⟨kind, file.1, some file.2⟩

/-- What the export of a kind delivers, and how much of it is counted. -/
def Met (offer : Offer) (kind : AssetKind) (patterns : List String) (count : Option Nat)
    (added : List Delivery) : Prop :=
  count.getD 0 = (offer.selected kind patterns).length ∧ offer.Delivers kind patterns added

section

variable {offer : Offer} {kind : AssetKind} {patterns : List String}

theorem Delivers.of_keys {added : List Delivery} (notConfig : kind ≠ .metricConfig)
    (notQueried : kind.isQueried = false)
    (keys : added.map Delivery.key = (offer.selected kind patterns).map (Prod.mk kind)) :
    offer.Delivers kind patterns added := by
  refine ⟨?_, fun _ => ?_, fun isConfig => absurd isConfig notConfig, by simp [notQueried]⟩
  · intro delivery member
    have inKeys : delivery.key ∈ added.map Delivery.key := mem_map_of_mem member
    rw [keys] at inKeys
    obtain ⟨name, -, same⟩ := mem_map.1 inKeys
    exact (congrArg Prod.fst same).symm
  · have names := congrArg (List.map Prod.snd) keys
    simpa [Function.comp_def, Delivery.key] using names

theorem Delivers.of_files (queried : kind.isQueried) :
    offer.Delivers kind patterns
      ((offer.matched kind patterns).map fun file => ⟨kind, file.1, some file.2⟩) := by
  have notConfig := (AssetKind.sort_of_isQueried queried).2.1
  refine ⟨?_, fun _ => ?_, fun isConfig => absurd isConfig notConfig, fun _ => rfl⟩
  · intro delivery member
    obtain ⟨file, -, rfl⟩ := mem_map.1 member
    rfl
  · rw [← offer.map_matched queried, map_map]
    rfl

variable {β : Type} {values : List β} {file : β → String × Bytes}
  (isFiles : offer.files kind = values.map file)

include isFiles

theorem matched_eq (patterns : List String) :
    offer.matched kind patterns =
      (values.filter fun value => Pattern.anyAccepts patterns (file value).1).map file := by
  rw [matched, isFiles, filter_map]
  rfl

theorem mem_selected_of_mem (queried : kind.isQueried) {value : β}
    (member : value ∈ values.filter fun value => Pattern.anyAccepts patterns (file value).1) :
    (file value).1 ∈ offer.selected kind patterns := by
  rw [← offer.map_matched queried, matched_eq isFiles, map_map]
  exact mem_map_of_mem member

theorem met_values (queried : kind.isQueried) (patterns : List String) :
    offer.Met kind patterns
      (some (values.filter fun value => Pattern.anyAccepts patterns (file value).1).length)
      ((values.filter fun value => Pattern.anyAccepts patterns (file value).1).map
        fun value => ⟨kind, (file value).1, some (file value).2⟩) := by
  have delivers : offer.Delivers kind patterns _ := Delivers.of_files queried
  rw [matched_eq isFiles, map_map] at delivers
  refine ⟨?_, delivers⟩
  rw [← offer.map_matched queried, matched_eq isFiles, length_map, length_map]
  rfl

end

/-- What an export delivers of an offer, as far as it has come. -/
structure Fulfils (offer : Offer) (descriptor : Descriptor) (kinds : List AssetKind)
    (added : List Delivery) : Prop where
  asked : ∀ delivery ∈ added, delivery.kind ∈ kinds ∧ descriptor.asksFor delivery.kind = true
  delivers : ∀ kind ∈ kinds, ∀ patterns, descriptor.patterns kind = some patterns →
    offer.Delivers kind patterns (added.filter fun delivery => delivery.kind = kind)

/-- How many assets are asked for. -/
def number (offer : Offer) (descriptor : Descriptor) (kind : AssetKind) : Nat :=
  match descriptor.patterns kind with
  | some patterns => (offer.selected kind patterns).length
  | none => 0

theorem number_of_asked (offer : Offer) (isAsked : descriptor.patterns kind = some patterns) :
    offer.number descriptor kind = (offer.selected kind patterns).length := by
  rw [number, isAsked]

namespace Fulfils

variable {offer : Offer} {descriptor : Descriptor} {kind : AssetKind} {kinds : List AssetKind}
  {patterns : List String} {first rest : List Delivery}

theorem skip (notAsked : descriptor.patterns kind = none)
    (fulfils : offer.Fulfils descriptor kinds rest) :
    offer.Fulfils descriptor (kind :: kinds) rest := by
  refine ⟨fun delivery member => ?_, fun other member patterns isAsked => ?_⟩
  · exact ⟨mem_cons_of_mem _ (fulfils.asked delivery member).1,
      (fulfils.asked delivery member).2⟩
  · rcases mem_cons.1 member with rfl | later
    · rw [notAsked] at isAsked
      cases isAsked
    · exact fulfils.delivers other later patterns isAsked

theorem cons (isAsked : descriptor.patterns kind = some patterns) (new : kind ∉ kinds)
    (delivers : offer.Delivers kind patterns first)
    (fulfils : offer.Fulfils descriptor kinds rest) :
    offer.Fulfils descriptor (kind :: kinds) (first ++ rest) := by
  refine ⟨fun delivery member => ?_, fun other member otherPatterns otherAsked => ?_⟩
  · rcases mem_append.1 member with early | late
    · rw [delivers.kinds delivery early]
      exact ⟨mem_cons_self, Descriptor.asksFor_of_patterns isAsked⟩
    · exact ⟨mem_cons_of_mem _ (fulfils.asked delivery late).1,
        (fulfils.asked delivery late).2⟩
  · rw [filter_append]
    rcases mem_cons.1 member with rfl | later
    · have whole : first.filter (fun delivery => delivery.kind = other) = first :=
        filter_eq_self.2 fun delivery member => by simp [delivers.kinds delivery member]
      have nothing : rest.filter (fun delivery => delivery.kind = other) = [] := by
        rw [filter_eq_nil_iff]
        rintro delivery member same
        rw [decide_eq_true_eq] at same
        exact new (same ▸ (fulfils.asked delivery member).1)
      rw [isAsked] at otherAsked
      cases otherAsked
      rwa [whole, nothing, append_nil]
    · have nothing : first.filter (fun delivery => delivery.kind = other) = [] := by
        rw [filter_eq_nil_iff]
        rintro delivery member same
        rw [decide_eq_true_eq, delivers.kinds delivery member] at same
        exact new (same ▸ later)
      rw [nothing, nil_append]
      exact fulfils.delivers other later otherPatterns otherAsked

theorem mem_selected (fulfils : offer.Fulfils descriptor kinds rest) {delivery : Delivery}
    (member : delivery ∈ rest) (notConfig : delivery.kind ≠ .metricConfig) :
    ∃ patterns, descriptor.patterns delivery.kind = some patterns ∧
      delivery.name ∈ offer.selected delivery.kind patterns := by
  obtain ⟨isKind, isAsked⟩ := fulfils.asked delivery member
  obtain ⟨patterns, isPatterns⟩ := Option.isSome_iff_exists.1 isAsked
  refine ⟨patterns, isPatterns, ?_⟩
  rw [← (fulfils.delivers _ isKind patterns isPatterns).names notConfig]
  exact mem_map.2 ⟨delivery, by simp [member], rfl⟩

end Fulfils

end Offer

namespace Export

/-- A server that has an offer. -/
structure Offers (query : Query ρ) (log : ρ → List Delivery) (offer : Offer) : Prop where
  views : Offering log query.listViews fun listed => listed.map (·.name) = offer.views
  reports : Offering log query.listReports fun listed => listed.map (·.name) = offer.reports
  superMetrics : Offering log query.listSuperMetrics
    fun listed => listed.map (·.name) = offer.superMetrics
  definitions : ∀ kind, Offering log (query.listDefinitions kind) (· = offer.definitions kind)
  groups : Offering log query.listCustomGroups (· = offer.groups)
  policies : Offering log query.listPolicies (· = offer.policies)
  archives : ∀ policy ∈ offer.policies,
    Offering log (query.policyContent policy) (· = offer.archive policy)

variable {context : Context ρ} {zone : Zone} {log : ρ → List Delivery} {asked : AssetKind → Bool}
  {base : Path} {kind : AssetKind} {name : String} {offer : Offer} {patterns : List String}
  {after : World ρ}

theorem Context.Supplies.map_some {step : Sync ρ Nat} {delivers : Option Nat → List Delivery → Prop}
    (law : ∀ count, context.Supplies zone log asked base step count (delivers (some count)))
    (result : Option Nat) :
    context.Supplies zone log asked base (some <$> step) result (delivers result) := by
  intro world after within done
  rw [map_eq_pure_bind] at done
  obtain ⟨value, between, ran, done⟩ := exceptBind_ok done
  obtain ⟨rfl, rfl⟩ := pure_ok done
  exact law value within ran

theorem exports_map {α : Type} {work : α → Sync ρ Unit} {deliver : α → Delivery} {values : List α}
    {world : World ρ} (works : Batch.Works (Batch.Passes work) values world after)
    (law : ∀ value ∈ values, ∀ world after, zone.Within world → work value world = (.ok (), after) →
      context.Exports zone log asked base [deliver value] world after) (within : zone.Within world) :
    context.Exports zone log asked base (values.map deliver) world after := by
  obtain ⟨_, rfl, exports⟩ := exports_of_works (fun values added => added = values.map deliver) rfl
    (by rintro _ _ _ _ rfl rfl; rfl) works
    (fun value member world after within ran => ⟨_, rfl, law value member world after within ran⟩)
    within
  exact exports

namespace Context.Noting

variable (noting : context.Noting zone log) (isAsked : asked kind) {world : World ρ}
  {descriptor : Descriptor} {stats : ExportStats}

include noting

/-! ## Files that are written -/

section

include isAsked

theorem write_ok (queried : kind.isQueried) (plain : IsPlain name) {content : Bytes}
    (within : zone.Within world)
    (done : (World.files (replaceFile ((context.shelfOf kind).join (kind.entry name)) content) :
      Sync ρ Unit) world = (.ok (), after)) :
    context.Exports zone log asked (context.shelfOf kind) [⟨kind, name, some content⟩] world
      after := by
  have entry := kind.isEntry_entry plain
  have draftEntry : IsEntry (kind.entry name ++ ".tmp") :=
    isEntry_append entry.noSlash (by decide) (by decide)
  have ends : (context.shelfOf kind).EndsInName :=
    endsInName_join _ kind.isEntry_directory
  have encloses := (noting.encloses_shelf kind).joinEntry entry
  have withinAfter := Zone.keeps_files (Zone.keeps_replaceFile (encloses.mono (by decide)) content)
    world within
  rw [done] at withinAfter
  obtain ⟨replacing, sameSite⟩ := Zone.files_ok done
  have notCarried : (⟨kind, name, some content⟩ : Delivery).carried = false := by
    cases kind <;> first | rfl | nomatch queried
  refine ⟨withinAfter, by simp [sameSite, notCarried], fun _ stands => ?_⟩
  have replaced := replaced_of_replaceFile ends stands entry draftEntry replacing
  refine ⟨replaced.touches.isDirectory stands, fun past stock => ?_⟩
  exact (stock.puts_replaced queried replaced).stock noting.notBlank_staging isAsked plain stock

theorem writeAssets_supplies (queried : kind.isQueried) (notPolicy : kind ≠ .policy)
    {assets : List RemoteAsset} (isFiles : offer.files kind = assets.map (·.file))
    (plain : ∀ name ∈ offer.selected kind patterns, IsPlain name) (count : Nat) :
    context.Supplies zone log asked (context.shelfOf kind)
      (writeAssets context kind (context.shelfOf kind) patterns assets) count
      (offer.Met kind patterns (some count)) := by
  intro world after within done
  obtain ⟨report, ran, clean, rfl⟩ := settled_ok done
  have entry : ∀ name, name ++ ".json" = kind.entry name := by
    intro name
    cases kind <;> first | rfl | exact absurd rfl notPolicy | nomatch queried
  obtain ⟨counted, works⟩ := Batch.each_ok ran clean
  rw [counted]
  refine ⟨_, Offer.met_values isFiles queried patterns, exports_map works ?_ within⟩
  intro asset member world after withinWorld written
  unfold writeAsset writeJson at written
  rw [entry] at written
  exact noting.write_ok isAsked queried
    (plain _ (Offer.mem_selected_of_mem isFiles queried member)) withinWorld written

end

theorem exportDefinitions_supplies (definition : DefinitionKind)
    (isAsked : asked definition.assetKind) (offers : Offers context.query log offer)
    (plain : ∀ name ∈ offer.selected definition.assetKind patterns, IsPlain name) (count : Nat) :
    context.Supplies zone log asked context.staging (exportDefinitions context definition patterns)
      count (offer.Met definition.assetKind patterns (some count)) := by
  refine noting.inDirectory_supplies isAsked
    (.behind (offers.definitions definition).ask fun assets isOffered => ?_)
  refine noting.writeAssets_supplies isAsked ?_ ?_ ?_ plain count
  · cases definition <;> rfl
  · cases definition <;> decide
  · rw [isOffered]
    exact offer.files_definitions definition

theorem exportCustomGroups_supplies (isAsked : asked .customGroup)
    (offers : Offers context.query log offer)
    (plain : ∀ name ∈ offer.selected .customGroup patterns, IsPlain name) (count : Option Nat) :
    context.Supplies zone log asked context.staging (exportCustomGroups context patterns) count
      (offer.Met .customGroup patterns count) := by
  refine noting.inDirectory_supplies isAsked (.behind offers.groups.ask fun groups isOffered => ?_)
  obtain rfl := isOffered
  split
  next none =>
    have met := Offer.met_values offer.files_groups rfl patterns
    rw [isEmpty_iff.1 none] at met
    refine .behind (.onSite (Zone.keeps_note _ _) fun _ => rfl) fun _ _ => .pure ?_
    rintro rfl
    exact met
  · exact .map_some (noting.writeAssets_supplies isAsked rfl (by decide) offer.files_groups
      plain) count

/-- Storing metadata adds no asset. -/
theorem storeMetadata_ok (isAsked : asked .policy) {metadata : PolicyMetadata}
    (within : zone.Within world)
    (done : (World.files (metadata.store context.staging) : Sync ρ Unit) world = (.ok (), after)) :
    context.Exports zone log asked (context.shelfOf .policy) [] world after := by
  have entry : IsEntry PolicyMetadata.fileName := by decide
  have draft : IsEntry (PolicyMetadata.fileName ++ ".tmp") := by decide
  have encloses := (noting.encloses_shelf .policy).joinEntry entry
  have withinAfter := Zone.keeps_files (Zone.keeps_replaceFile (encloses.mono (by decide))
    (Bytes.ofText metadata.text)) world within
  have stored : (World.files (replaceFile ((context.shelfOf .policy).join PolicyMetadata.fileName)
    (Bytes.ofText metadata.text)) : Sync ρ Unit) world = (.ok (), after) := done
  rw [stored] at withinAfter
  obtain ⟨replacing, sameSite⟩ := Zone.files_ok stored
  refine Context.Exports.quiet withinAfter (by rw [sameSite]) fun stands => ?_
  have replaced := replaced_of_replaceFile
    (endsInName_join _ AssetKind.policy.isEntry_directory) stands entry draft replacing
  refine ⟨replaced.touches.isDirectory stands, fun past stock => ?_⟩
  refine stock.of_sidecar noting.notBlank_staging isAsked rfl ?_ replaced
  intro delivery member isPolicy same
  have zip : namedWith (delivery.name ++ ".zip") "zip" :=
    namedWith_append ".zip" (by decide) (by decide) (stock.plain delivery member).1
  have metadata : namedWith PolicyMetadata.fileName "zip" = false := by decide
  change delivery.name ++ ".zip" = _ at same
  rw [same, metadata] at zip
  cases zip

theorem exportPolicies_supplies (isAsked : asked .policy)
    (offers : Offers context.query log offer)
    (plain : ∀ name ∈ offer.selected .policy patterns, IsPlain name) (count : Nat) :
    context.Supplies zone log asked context.staging (exportPolicies context patterns) count
      (offer.Met .policy patterns (some count)) := by
  refine noting.inDirectory_supplies isAsked (.behind offers.policies.ask fun listed isOffered => ?_)
  obtain rfl := isOffered
  intro world after within done
  obtain ⟨report, fetched, fetching, done⟩ := exceptBind_ok done
  obtain ⟨_, stored, storing, done⟩ := exceptBind_ok done
  obtain ⟨_, _, settled, done⟩ := exceptBind_ok done
  obtain ⟨rfl, rfl⟩ := pure_ok done
  obtain ⟨clean, rfl⟩ := settle_ok settled
  obtain ⟨counted, works⟩ := Batch.each_ok fetching (failures_of_batchResult clean)
  have exports := exports_map works (fun policy member world after withinWorld written => by
    obtain ⟨content, between, asking, written⟩ := exceptBind_ok written
    obtain ⟨_, ⟨rfl, rfl⟩, asks⟩ :=
      (offers.archives policy (mem_of_mem_filter member)).ask content withinWorld asking
    exact asks.trans (noting.write_ok isAsked rfl
      (plain _ (Offer.mem_selected_of_mem offer.files_policies rfl member)) asks.within written))
      within
  rw [counted]
  exact ⟨_, Offer.met_values offer.files_policies rfl patterns,
    exports.andQuiet (noting.storeMetadata_ok isAsked exports.within storing)⟩

/-! ## All kinds -/

theorem exportKind_supplies (isAsked : asked kind) (offers : Offers context.query log offer)
    (plain : ∀ name ∈ offer.selected kind patterns, IsPlain name) (count : Option Nat) :
    context.Supplies zone log asked context.staging (exportKind context kind patterns) count
      (offer.Met kind patterns count) := by
  -- a kind whose assets are delivered one by one under their names
  have ofKeys : ∀ step : Sync ρ Nat, kind ≠ .metricConfig → kind.isQueried = false →
      (∀ count, context.Supplies zone log asked context.staging step count
        (Covers kind (offer.selected kind patterns) count)) →
      context.Supplies zone log asked context.staging (some <$> step) count
        (offer.Met kind patterns count) := by
    intro step notConfig notQueried law
    refine .map_some (fun count world after within done => ?_) count
    obtain ⟨added, ⟨number, keys⟩, exports⟩ := law count within done
    exact ⟨added, ⟨number, .of_keys notConfig notQueried keys⟩, exports⟩
  cases kind with
  | view =>
    exact ofKeys _ (by decide) rfl fun _ => noting.exportListed_supplies (puts_stageView zone)
      (by decide) isAsked offers.views plain
  | dashboard =>
    exact ofKeys _ (by decide) rfl fun _ => noting.exportDashboards_supplies isAsked plain
  | report =>
    exact ofKeys _ (by decide) rfl fun _ => noting.exportListed_supplies (puts_stageReport zone)
      (by decide) isAsked offers.reports plain
  | superMetric =>
    exact ofKeys _ (by decide) rfl fun _ => noting.exportListed_supplies
      (puts_stageSuperMetric zone) (by decide) isAsked offers.superMetrics plain
  | metricConfig =>
    intro world after within done
    obtain ⟨added, ⟨number, areConfigs⟩, exports⟩ :=
      noting.exportMetricConfigs_supplies isAsked plain count within done
    exact ⟨added, ⟨number, areConfigs.kinds, by simp, fun _ => areConfigs, nofun⟩, exports⟩
  | alertDefinition =>
    exact .map_some (noting.exportDefinitions_supplies .alert isAsked offers plain) count
  | symptomDefinition =>
    exact .map_some (noting.exportDefinitions_supplies .symptom isAsked offers plain) count
  | recommendation =>
    exact .map_some (noting.exportDefinitions_supplies .recommendation isAsked offers plain) count
  | customGroup => exact noting.exportCustomGroups_supplies isAsked offers plain count
  | policy => exact .map_some (noting.exportPolicies_supplies isAsked offers plain) count

/-- Kinds are exported one after another. -/
theorem exportKinds_ok (offers : Offers context.query log offer)
    (plain : ∀ kind patterns, descriptor.patterns kind = some patterns →
      ∀ name ∈ offer.selected kind patterns, IsPlain name) {kinds : List AssetKind}
    (distinct : kinds.Nodup) {final : ExportStats} (within : zone.Within world)
    (done : exportKinds context descriptor stats kinds world = (.ok final, after)) :
    (∀ kind, final.assets.count kind =
        stats.assets.count kind + if kind ∈ kinds then offer.number descriptor kind else 0) ∧
      ∃ added, offer.Fulfils descriptor kinds added ∧
        context.Exports zone log descriptor.asksFor context.staging added world after := by
  induction kinds generalizing stats world with
  | nil =>
    cases done
    exact ⟨by simp, [], ⟨by simp, by simp⟩, Context.Exports.refl within⟩
  | cons kind rest ih =>
    obtain ⟨new, distinctRest⟩ := nodup_cons.1 distinct
    unfold exportKinds at done
    cases asking : descriptor.patterns kind with
    | none =>
      rw [asking] at done
      obtain ⟨counts, added, fulfils, exports⟩ := ih distinctRest within done
      refine ⟨fun other => ?_, added, fulfils.skip asking, exports⟩
      rw [counts other]
      by_cases same : other = kind
      · simp [same, new, Offer.number, asking]
      · simp [same]
    | some patterns =>
      rw [asking] at done
      obtain ⟨count, between, exported, done⟩ := exceptBind_ok done
      have isAsked : descriptor.asksFor kind := by rw [Descriptor.asksFor, asking]; rfl
      obtain ⟨first, ⟨number, delivers⟩, exportsFirst⟩ :=
        noting.exportKind_supplies isAsked offers (plain kind patterns asking) count within exported
      have counted : ∃ next : ExportStats,
          exportKinds context descriptor next rest between = (.ok final, after) ∧
            ∀ other, next.assets.count other =
              stats.assets.count other + if other = kind then count.getD 0 else 0 := by
        cases count with
        | none => exact ⟨stats, done, by simp⟩
        | some count => exact ⟨_, done, fun other => Counts.count_add _ _ _ _⟩
      obtain ⟨next, done, counted⟩ := counted
      obtain ⟨counts, added, fulfils, exports⟩ := ih distinctRest exportsFirst.within done
      refine ⟨fun other => ?_, _, fulfils.cons asking new delivers, exportsFirst.trans exports⟩
      rw [counts other, counted other, number]
      by_cases same : other = kind
      · simp [same, new, offer.number_of_asked asking]
      · simp [same]

theorem exportAll_ok (offers : Offers context.query log offer)
    (plain : ∀ kind patterns, descriptor.patterns kind = some patterns →
      ∀ name ∈ offer.selected kind patterns, IsPlain name) (within : zone.Within world)
    (done : exportAll context descriptor world = (.ok stats, after)) :
    (∀ kind, stats.assets.count kind = offer.number descriptor kind) ∧
      ∃ added, offer.Fulfils descriptor AssetKind.all added ∧
        context.Exports zone log descriptor.asksFor context.staging added world after := by
  obtain ⟨counts, exports⟩ := noting.exportKinds_ok offers plain (by decide) within done
  refine ⟨fun kind => ?_, exports⟩
  have isKind : kind ∈ AssetKind.all := by cases kind <;> decide
  rw [counts, if_pos isKind]
  exact Nat.zero_add _

end Context.Noting

end Export

end OpsContent
