import Mathlib.Data.List.Perm.Basic
import OpsContent.Proofs.DependentDefinitions
import OpsContent.Proofs.JsonTexts
import OpsContent.Proofs.PushedAssets
import OpsContent.Proofs.QueriedProjects

/-!
# What is pushed of a project

An import makes calls of a server.  If the project holds what a descriptor asks for of an offer, and
the server accepts what is pushed, then the calls are one push of definitions for each kind that is
asked for, one for each policy and one for each custom group, with the contents of the offer.
-/

namespace OpsContent

open OpsContent.Path Disk List

variable {ρ : Type} {kind : AssetKind} {α β : Type}

/-! ## Calls that are made -/

/-- Calls were made, and the disk is as it was. -/
structure Made (calls : List Call) (before after : World (Traced ρ)) : Prop where
  disk : after.disk = before.disk
  traced : after.site.remote.calls = before.site.remote.calls ++ calls

namespace Made

theorem refl (world : World (Traced ρ)) : Made [] world world :=
  ⟨rfl, (append_nil _).symm⟩

theorem trans {first rest : List Call} {before between after : World (Traced ρ)}
    (left : Made first before between) (right : Made rest between after) :
    Made (first ++ rest) before after where
  disk := right.disk.trans left.disk
  traced := by rw [right.traced, left.traced, append_assoc]

theorem ignoresLog (calls : List Call) (before : World (Traced ρ)) :
    IgnoresLog (Made calls before) :=
  fun _ _ _ made => ⟨made.disk, made.traced⟩

theorem answer (call : Call) (step : StateM (Site ρ) α) (world : World (Traced ρ)) :
    Made [call] world (World.onSite (Traced.answer call step) world).2 :=
  ⟨rfl, rfl⟩

end Made

/-- The server accepts whatever is pushed. -/
structure Query.Accepts (query : Query ρ) : Prop where
  definitions : ∀ kind definitions dependents site,
    (query.importDefinitions kind definitions dependents site).1 = .ok ()
  groups : ∀ name payload policies site,
    (query.importCustomGroup name payload policies site).1 = .ok ()
  policies : ∀ name content overwrite site,
    (query.importPolicy name content overwrite site).1 = .ok ()

theorem Reaches.askTraced {step : QueryAction ρ Unit} (call : Call) (world : World (Traced ρ))
    (accepted : ∀ site, (step site).1 = .ok ()) :
    Reaches (Query.ask (Traced.answer call step)) world fun _ after => Made [call] world after := by
  have answered : ((Traced.answer call step : QueryAction (Traced ρ) Unit) world.site).1 = .ok () :=
    accepted _
  refine (Reaches.ask answered).mono fun _ after reached => ?_
  rw [reached.2]
  exact Made.answer call step world

namespace Batch

theorem each_map (kind : AssetKind) (name : β → String) (work : β → Sync ρ Unit) (make : α → β)
    (report : Report) (values : List α) :
    each kind name work report (values.map make) =
      each kind (fun value => name (make value)) (fun value => work (make value)) report
        values := by
  induction values generalizing report with
  | nil => rfl
  | cons value rest ih => exact bind_congr fun outcome => ih _

end Batch

/-! ## Offers that can be read back -/

/-- What makes an offer come back from its files: in each kind the names are plain and different,
definitions have different identifiers, and contents are texts that are read as they were written.
The name of a custom group is the one in its content, if there is one. -/
structure Offer.Legible (offer : Offer) : Prop where
  plain : ∀ kind, ∀ file ∈ offer.files kind, IsPlain file.1
  distinct : ∀ kind, ((offer.files kind).map Prod.fst).Nodup
  definitions : ∀ kind, ∀ asset ∈ offer.definitions kind,
    asset.content.isObject = true ∧ asset.content.isExact 100 = true
  identified : ∀ kind, ∀ asset ∈ offer.definitions kind,
    (asset.content.textField? "id").isSome = true
  identifiers : ∀ kind,
    ((offer.definitions kind).map fun asset => asset.content.textField? "id").Nodup
  groups : ∀ group ∈ offer.groups, group.content.isExact 100 = true
  groupNames : ∀ group ∈ offer.groups, ∀ found,
    RemoteAsset.ofCustomGroup? group.content = some found → found.name = group.name

/-- Does the descriptor ask for the name? -/
def Descriptor.selects (descriptor : Descriptor) (kind : AssetKind) (name : String) : Bool :=
  (descriptor.patterns kind).any fun patterns => Pattern.anyAccepts patterns name

theorem Descriptor.selects_of_asked {descriptor : Descriptor} {patterns : List String}
    (isAsked : descriptor.patterns kind = some patterns) (name : String) :
    descriptor.selects kind name = Pattern.anyAccepts patterns name := by
  rw [selects, isAsked]
  rfl

namespace Offer.HeldBelow

variable {offer : Offer} {descriptor : Descriptor} {root : Path} {disk : Disk} {kind : AssetKind}
  {β : Type} {values : List β} {file : β → String × Bytes}

/-- The assets of a kind in their order on the disk. -/
theorem assetNames_eq (held : offer.HeldBelow descriptor root disk)
    (distinct : ((offer.files kind).map Prod.fst).Nodup)
    (isFiles : offer.files kind = values.map file) :
    ∃ ordered : List β,
      ordered.Perm (values.filter fun value => descriptor.selects kind (file value).1) ∧
        disk.assetNames root kind = ordered.map (fun value => kind.entry (file value).1) ∧
        ∀ value ∈ ordered, IsEntry (kind.entry (file value).1) ∧
          disk.readFile ((root.join kind.directory).join (kind.entry (file value).1)) =
            .ok (file value).2 := by
  cases isAsked : descriptor.patterns kind with
  | none =>
    have away : ¬ disk.isDirectory (root.join kind.directory) := by
      rw [held.shelves kind, Descriptor.asksFor, isAsked]
      simp
    refine ⟨[], ?_, if_neg away, by simp⟩
    simp [Descriptor.selects, isAsked]
  | some patterns =>
    have isMatched : offer.matched kind patterns =
        (values.filter fun value => descriptor.selects kind (file value).1).map file := by
      rw [matched_eq isFiles]
      simp only [Descriptor.selects_of_asked isAsked]
    have nodup : ((offer.matched kind patterns).map fun one => kind.entry one.1).Nodup := by
      have names : ((offer.matched kind patterns).map Prod.fst).Nodup :=
        (filter_sublist.map Prod.fst).nodup distinct
      have entries := names.map fun _ _ => kind.entry_injective
      rwa [map_map] at entries
    have listedOnce : (disk.assetNames root kind).Nodup := by
      refine (sorted_assetNames disk root kind).imp ?_
      rintro left right less rfl
      exact String.lt_irrefl _ less
    have same : (disk.assetNames root kind).Perm
        ((values.filter fun value => descriptor.selects kind (file value).1).map
          fun value => kind.entry (file value).1) := by
      have listed : (disk.assetNames root kind).Perm
          ((offer.matched kind patterns).map fun one => kind.entry one.1) := by
        rw [perm_ext_iff_of_nodup listedOnce nodup]
        intro entry
        rw [held.assets kind patterns isAsked entry, mem_map]
        simp only [eq_comm]
      rwa [isMatched, map_map] at listed
    obtain ⟨ordered, isOrdered, permuted⟩ :=
      (congrFun₂ (eq_map_comp_perm fun value => kind.entry (file value).1) _ _).mpr same
    refine ⟨ordered, permuted, isOrdered, fun value member => ?_⟩
    have inMatched : file value ∈ offer.matched kind patterns := by
      rw [isMatched]
      exact mem_map_of_mem (permuted.subset member)
    have listed := (held.assets kind patterns isAsked _).2 ⟨_, inMatched, rfl⟩
    exact ⟨((mem_assetNames_iff held.named).1 listed).1,
      held.content kind patterns isAsked _ inMatched⟩

end Offer.HeldBelow

/-! ## Definitions -/

theorem Table.find?_ofList_iff {entries : List (String × α)}
    (distinct : (entries.map Prod.fst).Nodup) {key : String} {value : α} :
    (ofList entries).find? key = some value ↔ (key, value) ∈ entries := by
  suffices general : ∀ start : Table α,
      Table.find? (entries.foldl (fun table entry => table.insert entry.1 entry.2) start) key =
          some value ↔
        (key, value) ∈ entries ∨ (key ∉ entries.map Prod.fst ∧ start.find? key = some value) by
    refine (general []).trans ?_
    simp
  induction entries with
  | nil => simp
  | cons entry rest ih =>
    obtain ⟨first, old⟩ := entry
    obtain ⟨new, distinctRest⟩ := nodup_cons.1 distinct
    intro start
    rw [foldl_cons, ih distinctRest, find?_insert]
    by_cases same : key = first
    · subst same
      have absent : (key, value) ∉ rest := fun member =>
        new (mem_map.2 ⟨_, member, rfl⟩)
      simp [absent, new, eq_comm]
    · simp [same]

def Push.call (push : Push) : Call :=
  .importDefinitions push.kind push.definitions push.dependents

/-- The push carries the definitions of its kind that are asked for, each under its identifier, and
nothing else. -/
def Offer.Defines (offer : Offer) (descriptor : Descriptor) (push : Push) : Prop :=
  push.definitions.Sorted ∧ ∀ id content, push.definitions.find? id = some content ↔
    ∃ asset ∈ offer.definitions push.kind,
      descriptor.selects push.kind.assetKind asset.name = true ∧
        asset.content.textField? "id" = some id ∧ asset.content = content

namespace Import

variable {context : Context ρ} {descriptor : Descriptor} {offer : Offer} {disk : Disk}

theorem readJson_pretty {file : Path} {value : Json} (exact : value.isExact 100)
    (read : disk.readFile file = .ok (Bytes.ofText value.pretty)) :
    readJson disk file = .ok value := by
  have text : disk.readText file = .ok value.pretty := by
    rw [readText, read]
    dsimp only
    rw [Bytes.toText?_ofText]
  rw [readJson, text]
  dsimp only
  rw [Json.parse_pretty (by decide) exact]
  rfl

/-- The definitions of a kind are read under their identifiers. -/
theorem readDefinitions_held (held : offer.HeldBelow descriptor context.staging disk)
    (legible : offer.Legible) (kind : DefinitionKind) :
    ∃ found : List (String × Json),
      (disk.listFiles (context.directory kind.assetKind) (some "json")).map (readDefinition disk) =
          found.map .ok ∧ (found.map Prod.fst).Nodup ∧
        ∀ id content, (id, content) ∈ found ↔ ∃ asset ∈ offer.definitions kind,
          descriptor.selects kind.assetKind asset.name ∧
            asset.content.textField? "id" = some id ∧ asset.content = content := by
  obtain ⟨ordered, permuted, listed, read⟩ :=
    held.assetNames_eq (legible.distinct _) (offer.files_definitions kind)
  have inOffer : ∀ asset ∈ ordered, asset ∈ offer.definitions kind := fun asset member =>
    mem_of_mem_filter (permuted.subset member)
  have identified : ∀ asset ∈ offer.definitions kind,
      asset.content.textField? "id" = some ((asset.content.textField? "id").getD "") := by
    intro asset member
    obtain ⟨id, isId⟩ := Option.isSome_iff_exists.1 (legible.identified kind asset member)
    rw [isId]
    rfl
  refine ⟨ordered.map fun asset => ((asset.content.textField? "id").getD "", asset.content),
    ?_, ?_, ?_⟩
  · rw [Context.directory, listFiles_definitions, listed, map_map, map_map, map_map]
    refine map_congr_left fun asset member => ?_
    obtain ⟨-, isRead⟩ := read asset member
    obtain ⟨isObject, exact⟩ := legible.definitions kind asset (inOffer asset member)
    have parsed := readJson_pretty exact isRead
    change readDefinition disk _ = _
    unfold readDefinition
    rw [parsed]
    change (if asset.content.isObject then _ else _) = _
    rw [if_pos isObject, identified asset (inOffer asset member)]
    rfl
  · have ids : (ordered.map fun asset => asset.content.textField? "id").Nodup :=
      (permuted.map _).nodup_iff.2 ((filter_sublist.map _).nodup (legible.identifiers kind))
    have written : ordered.map (fun asset => asset.content.textField? "id") =
        ((ordered.map fun asset => ((asset.content.textField? "id").getD "", asset.content)).map
          Prod.fst).map some := by
      rw [map_map, map_map]
      exact map_congr_left fun asset member => identified asset (inOffer asset member)
    rw [written] at ids
    exact ids.of_map
  · intro id content
    constructor
    · intro member
      obtain ⟨asset, inOrder, same⟩ := mem_map.1 member
      obtain ⟨rfl, rfl⟩ := Prod.mk.inj same
      obtain ⟨isOffered, isSelected⟩ := mem_filter.1 (permuted.subset inOrder)
      exact ⟨asset, isOffered, isSelected, identified asset isOffered, rfl⟩
    · rintro ⟨asset, isOffered, isSelected, isId, rfl⟩
      have inOrder := permuted.symm.subset (mem_filter.2 ⟨isOffered, isSelected⟩)
      exact mem_map.2 ⟨asset, inOrder, by rw [isId]; rfl⟩

theorem readable_of_ok {files : List Path} {found : List (String × Json)}
    (read : files.map (readDefinition disk) = found.map .ok) (kind : AssetKind) :
    readable disk files = found ∧ unreadable kind disk files = [] := by
  constructor
  · have each := congrArg (List.filterMap Except.toOption) read
    rw [filterMap_map, filterMap_map] at each
    exact each.trans filterMap_some
  · refine filterMap_eq_nil_iff.2 fun file member => ?_
    obtain ⟨entry, -, isRead⟩ := mem_map.1 (read ▸ mem_map_of_mem member)
    rw [← isRead]
    rfl

section

variable {world : World (Traced ρ)} (accepts : context.query.Accepts)

include accepts

theorem pushKind_accepted {kind : DefinitionKind} {found : List (String × Json)}
    (stands : world.disk.isDirectory (context.directory kind.assetKind))
    (read : (world.disk.listFiles (context.directory kind.assetKind) (some "json")).map
      (readDefinition world.disk) = found.map .ok) (progress : Progress) :
    ∃ push : Push, push.kind = kind ∧ push.definitions = Table.ofList found ∧
      (pushKind context.traced kind progress world).1.failures = progress.failures ∧
        Made [push.call] world (pushKind context.traced kind progress world).2 := by
  obtain ⟨isFound, allRead⟩ := readable_of_ok read kind.assetKind
  rcases pushKind_cases context.traced kind progress world with
    ⟨away, -⟩ | ⟨-, between, answer, sent, after, quiet, ran, noted, done⟩
  · cases away.symm.trans stands
  · obtain rfl : answer = .ok () := (congrArg Prod.fst ran).symm.trans (accepts.definitions _ _ _ _)
    obtain rfl : _ = sent := congrArg Prod.snd ran
    have nothing := quiet _ (Made.ignoresLog [] world) (Made.refl world)
    rw [done]
    refine ⟨⟨kind, _, _⟩, rfl, congrArg Table.ofList isFound, ?_,
      noted _ (Made.ignoresLog _ world) (nothing.trans (Made.answer _ _ between))⟩
    have noFailure := congrArg (progress.failures ++ · ++ []) allRead
    exact noFailure.trans (by simp)

theorem pushKinds_accepted (held : offer.HeldBelow descriptor context.staging world.disk)
    (legible : offer.Legible) (kinds : List DefinitionKind) (progress : Progress) :
    ∃ pushes : List Push, pushes.map Push.kind =
        kinds.filter (fun kind => descriptor.asksFor kind.assetKind) ∧
      (∀ push ∈ pushes, offer.Defines descriptor push) ∧
      (pushKinds context.traced progress kinds world).1.failures = progress.failures ∧
      Made (pushes.map Push.call) world (pushKinds context.traced progress kinds world).2 := by
  induction kinds generalizing progress world with
  | nil => exact ⟨[], rfl, by simp, rfl, Made.refl world⟩
  | cons kind rest ih =>
    by_cases isAsked : descriptor.asksFor kind.assetKind
    · obtain ⟨found, read, distinct, members⟩ := readDefinitions_held held legible kind
      obtain ⟨push, isKind, isTable, clean, made⟩ :=
        pushKind_accepted accepts ((held.shelves _).2 isAsked) read progress
      cases first : pushKind context.traced kind progress world with
      | mk next between =>
        rw [first] at clean made
        have stillHeld : offer.HeldBelow descriptor context.staging between.disk := by
          rw [made.disk]
          exact held
        obtain ⟨pushes, kinds, define, cleanRest, madeRest⟩ := ih stillHeld next
        rw [pushKinds, bind_of_eq first]
        refine ⟨push :: pushes, ?_, ?_, cleanRest.trans clean, made.trans madeRest⟩
        · rw [map_cons, kinds, isKind, filter_cons, if_pos isAsked]
        · intro other member
          rcases mem_cons.1 member with rfl | later
          · refine ⟨by rw [isTable]; exact Table.sorted_ofList found, fun id content => ?_⟩
            rw [isTable, Table.find?_ofList_iff distinct, members, isKind]
          · exact define other later
    · have away : ¬ world.disk.isDirectory (context.traced.directory kind.assetKind) :=
        fun stands => isAsked ((held.shelves _).1 stands)
      have skipped : pushKind context.traced kind progress world = (progress, world) := by
        rcases pushKind_cases context.traced kind progress world with ⟨-, done⟩ | ⟨stands, -⟩
        · exact done
        · exact absurd stands away
      obtain ⟨pushes, kinds, define, clean, made⟩ := ih held progress
      rw [pushKinds, bind_of_eq skipped]
      refine ⟨pushes, ?_, define, clean, made⟩
      rw [kinds, filter_cons, if_neg isAsked]

theorem reaches_pushDefinitions (held : offer.HeldBelow descriptor context.staging world.disk)
    (legible : offer.Legible) (stats : ImportStats) :
    Reaches (pushDefinitions context.traced stats) world fun _ after => ∃ pushes : List Push,
      pushes.map Push.kind =
          DefinitionKind.importOrder.filter (fun kind => descriptor.asksFor kind.assetKind) ∧
        (∀ push ∈ pushes, offer.Defines descriptor push) ∧
        Made (pushes.map Push.call) world after := by
  obtain ⟨pushes, kinds, define, clean, made⟩ :=
    pushKinds_accepted accepts held legible DefinitionKind.importOrder { stats }
  have pushed : Reaches
      (World.always (pushKinds context.traced { stats } DefinitionKind.importOrder) :
        Sync (Traced ρ) Progress) world fun progress after =>
          progress.failures = [] ∧ Made (pushes.map Push.call) world after :=
    Reaches.always rfl ⟨clean, made⟩
  refine pushed.bind fun progress between reached => ?_
  exact (Reaches.settle (batchResult_nil reached.1 _) reached.2).bind fun _ _ madeAll =>
    Reaches.pure ⟨pushes, kinds, define, madeAll⟩

end

/-! ## Policies and custom groups -/

theorem baseName_entry (queried : kind.isQueried) (directory : Path) {name : String}
    (plain : IsPlain name) : (directory.join (kind.entry name)).baseName = name := by
  have json : splitName (name ++ ".json") = (name, some "json") :=
    splitName_append (by decide) (by decide) plain.1
  have zip : splitName (name ++ ".zip") = (name, some "zip") :=
    splitName_append (by decide) (by decide) plain.1
  rw [baseName_join directory (kind.isEntry_entry plain)]
  cases kind with
  | policy => exact congrArg Prod.fst zip
  | alertDefinition | symptomDefinition | recommendation | customGroup =>
    exact congrArg Prod.fst json
  | view | dashboard | report | superMetric | metricConfig => cases queried

theorem reaches_pushEach {push : Path → Sync (Traced ρ) Unit} {made : β → Call → Prop}
    {values : List β} {file : β → Path} {world : World (Traced ρ)}
    (step : ∀ value ∈ values, ∀ between, between.disk = world.disk →
      Reaches (push (file value)) between fun _ after =>
      ∃ call, made value call ∧ Made [call] between after) :
    Reaches (World.always (Batch.each kind Path.baseName push {} (values.map file)) :
      Sync (Traced ρ) Batch.Report) world fun report after => report.failures = [] ∧
        ∃ calls, List.Forall₂ made values calls ∧ Made calls world after := by
  rw [Batch.each_map]
  refine Batch.reaches_each (fun past after =>
    ∃ calls, List.Forall₂ made past calls ∧ Made calls world after) ?_ ⟨[], .nil, Made.refl world⟩
  rintro past value between member ⟨calls, all, sofar⟩
  refine (step value member between sofar.disk).mono fun _ after reached => ?_
  obtain ⟨call, isMade, called⟩ := reached
  exact ⟨calls ++ [call], rel_append all (.cons isMade .nil), sofar.trans called⟩

end Import

def Offer.policyCall (offer : Offer) (policy : PolicySummary) : Call :=
  .importPolicy policy.name (offer.archive policy) true

/-- The call pushes a custom group, whose policy may be another one. -/
def RemoteAsset.GroupCall (group : RemoteAsset) (call : Call) : Prop :=
  ∃ payload policies, call = .importCustomGroup group.name payload policies ∧
    (payload = group.content ∨ ∃ (fields : Table Json) (id : String),
      group.content = .object fields ∧ payload = .object (fields.insert "policy" (.string id)))

namespace Import

variable {context : Context ρ} {descriptor : Descriptor} {offer : Offer}
  {world : World (Traced ρ)} (accepts : context.query.Accepts)
  (held : offer.HeldBelow descriptor context.staging world.disk) (legible : offer.Legible)

include accepts held legible in
/-- All policies are pushed. -/
theorem reaches_pushPolicies (stats : ImportStats) :
    Reaches (pushPolicies context.traced stats) world fun _ after => ∃ calls : List Call,
      calls.Perm ((offer.policies.filter fun policy =>
        descriptor.selects .policy policy.name).map offer.policyCall) ∧ Made calls world after := by
  obtain ⟨ordered, permuted, listed, read⟩ :=
    held.assetNames_eq (legible.distinct _) offer.files_policies
  have isListed : world.disk.listFiles (context.traced.directory .policy) (some "zip") =
      ordered.map fun policy =>
        (context.directory .policy).join (AssetKind.policy.entry policy.name) := by
    refine (listFiles_policies context.traced _).trans ?_
    exact (congrArg _ listed).trans map_map
  have plain : ∀ policy ∈ ordered, IsPlain policy.name := fun policy member =>
    legible.plain .policy _ (mem_map_of_mem (mem_of_mem_filter (permuted.subset member)))
  have pushed : Reaches (World.always (Batch.each .policy Path.baseName (pushPolicy context.traced)
      {} (world.disk.listFiles (context.traced.directory .policy) (some "zip"))) :
        Sync (Traced ρ) Batch.Report) world fun report after => report.failures = [] ∧
          ∃ calls, List.Forall₂ (fun policy call => offer.policyCall policy = call) ordered calls ∧
            Made calls world after := by
    rw [isListed]
    refine reaches_pushEach fun policy member between sameDisk => ?_
    have content : (between.disk.readFile ((context.directory .policy).join
        (AssetKind.policy.entry policy.name))).mapError SyncError.io =
          .ok (offer.archive policy) := by
      rw [sameDisk, Context.directory, (read policy member).2]
      rfl
    refine .afterLook (.afterSettle content ?_)
    rw [baseName_entry rfl _ (plain policy member)]
    exact (Reaches.askTraced (offer.policyCall policy) between (accepts.policies _ _ _)).mono
      fun _ after made => ⟨_, rfl, made⟩
  refine .afterLook (pushed.bind ?_)
  rintro report after ⟨clean, calls, areCalls, made⟩
  rw [← forall₂_map_left_iff, forall₂_eq_eq_eq] at areCalls
  subst areCalls
  exact .afterSettle (batchResult_nil clean _)
    (.pure ⟨_, permuted.map offer.policyCall, made⟩)

omit accepts held legible in
theorem resolvePolicy_cases (policies : PolicyMetadata) (payload : Json) (site : Site ρ) :
    (resolvePolicy policies payload site).1 = payload ∨ ∃ (fields : Table Json) (id : String),
      payload = .object fields ∧
        (resolvePolicy policies payload site).1 =
          .object (fields.insert "policy" (.string id)) := by
  cases payload with
  | object fields =>
    rcases resolvePolicy_object policies fields with
      ⟨_, id, -, -, -, same⟩ | ⟨-, same | ⟨_, same⟩⟩ <;> rw [same]
    · exact .inr ⟨fields, id, rfl, rfl⟩
    · exact .inl rfl
    · exact .inl rfl
  | _ => exact .inl rfl

omit held in
include accepts legible in
theorem reaches_pushGroup {group : RemoteAsset} (isOffered : group ∈ offer.groups)
    (policies : PolicyMetadata)
    (read : world.disk.readFile ((context.directory .customGroup).join
      (AssetKind.customGroup.entry group.name)) = .ok group.file.2) :
    Reaches (pushGroup context.traced policies ((context.directory .customGroup).join
      (AssetKind.customGroup.entry group.name))) world fun _ after =>
        ∃ call, group.GroupCall call ∧ Made [call] world after := by
  have plain : IsPlain group.name := legible.plain .customGroup _ (mem_map_of_mem isOffered)
  have isName : ((RemoteAsset.ofCustomGroup? group.content).map (·.name)).getD group.name =
      group.name := by
    cases named : RemoteAsset.ofCustomGroup? group.content with
    | none => rfl
    | some found => exact legible.groupNames group isOffered found named
  refine .afterLook (.afterSettle
    (readJson_pretty (legible.groups group isOffered) read) (.afterAlways ?_))
  rw [baseName_entry rfl _ plain, isName]
  have resolved := keeps_resolvePolicy (Made.ignoresLog [] world) policies group.content world
    (Made.refl world)
  refine (Reaches.askTraced _ _ (accepts.groups _ _ _)).mono fun _ after made => ?_
  exact ⟨_, ⟨_, policies, rfl, resolvePolicy_cases policies group.content _⟩, resolved.trans made⟩

include accepts held legible in
/-- The custom groups that are asked for are pushed. -/
theorem reaches_pushGroups (stats : ImportStats) :
    Reaches (pushGroups context.traced stats) world fun _ after => ∃ ordered calls,
      ordered.Perm (offer.groups.filter fun group => descriptor.selects .customGroup group.name) ∧
        List.Forall₂ RemoteAsset.GroupCall ordered calls ∧ Made calls world after := by
  obtain ⟨ordered, permuted, listed, read⟩ :=
    held.assetNames_eq (legible.distinct _) offer.files_groups
  have isListed : world.disk.listFiles (context.traced.directory .customGroup) (some "json") =
      ordered.map fun group =>
        (context.directory .customGroup).join (AssetKind.customGroup.entry group.name) := by
    refine (listFiles_groups context.traced _).trans ?_
    exact (congrArg _ listed).trans map_map
  refine .afterLook ?_
  dsimp only
  split
  next away =>
    have nothing : world.disk.assetNames context.staging .customGroup = [] :=
      if_neg (by simpa [Context.directory, Context.traced] using away)
    rw [nothing, eq_comm, map_eq_nil_iff] at listed
    subst listed
    exact .pure ⟨[], [], permuted, .nil, Made.refl world⟩
  · refine .afterAlways ?_
    have loaded := keeps_load (Made.ignoresLog [] world) context.staging world (Made.refl world)
    rw [isListed]
    have pushed : Reaches (World.always (Batch.each .customGroup Path.baseName
        (pushGroup context.traced (PolicyMetadata.load context.staging world).1) {}
          (ordered.map fun group =>
            (context.directory .customGroup).join (AssetKind.customGroup.entry group.name))) :
        Sync (Traced ρ) Batch.Report) (PolicyMetadata.load context.staging world).2
        fun report after => report.failures = [] ∧
          ∃ calls, List.Forall₂ RemoteAsset.GroupCall ordered calls ∧
            Made calls (PolicyMetadata.load context.staging world).2 after := by
      refine reaches_pushEach fun group member between sameDisk => ?_
      refine reaches_pushGroup accepts legible
        (mem_of_mem_filter (permuted.subset member)) _ ?_
      rw [sameDisk, loaded.disk]
      exact (read group member).2
    refine pushed.bind ?_
    rintro report after ⟨clean, calls, areCalls, made⟩
    exact .afterSettle (batchResult_nil clean _)
      (.pure ⟨ordered, calls, permuted, areCalls, loaded.trans made⟩)

end Import

/-! ## The whole import -/

/-- What is pushed is what a descriptor asks for of an offer: for each kind of definitions one push
of all of them, in the order of kinds, and for each policy and each custom group one call. -/
structure Offer.PushedBy (offer : Offer) (descriptor : Descriptor) (pushes : List Push)
    (policies groups : List Call) : Prop where
  kinds : pushes.map Push.kind =
    DefinitionKind.importOrder.filter fun kind => descriptor.asksFor kind.assetKind
  definitions : ∀ push ∈ pushes, offer.Defines descriptor push
  policies : policies.Perm
    ((offer.policies.filter fun policy => descriptor.selects .policy policy.name).map
      offer.policyCall)
  groups : ∃ ordered, ordered.Perm
      (offer.groups.filter fun group => descriptor.selects .customGroup group.name) ∧
    List.Forall₂ RemoteAsset.GroupCall ordered groups

namespace Import

variable {context : Context ρ} {descriptor : Descriptor} {offer : Offer}
  {world : World (Traced ρ)}

theorem enqueueKinds_away {world : World ρ} (away : ∀ kind : ChannelKind,
      ¬ world.disk.isDirectory (context.directory kind.assetKind)) (stats : ImportStats)
    (kinds : List ChannelKind) : enqueueKinds context stats kinds world = (.ok stats, world) := by
  induction kinds with
  | nil => rfl
  | cons kind rest ih =>
    have nothing : sources context world.disk kind = [] := by
      rw [sources_eq, sourceNames, if_neg (away kind)]
      rfl
    have looked : (World.look : Sync ρ Disk) world = (.ok world.disk, world) := rfl
    have skipped : enqueueEach context kind (build kind) stats [] world =
      (.ok stats, world) := rfl
    rw [enqueueKinds, exceptBind_of_ok looked, nothing, exceptBind_of_ok skipped]
    exact ih

theorem submit_idle {world : World ρ} (idle : context.channel.queued world.site.remote = 0)
    (stats : ImportStats) : submit context stats world = (.ok stats, world) := by
  have asked : (World.always context.channel.hasQueued : Sync ρ Bool) world =
      (.ok false, world) := by
    simp [World.always, Channel.hasQueued, idle]
  rw [submit, exceptBind_of_ok asked]
  rfl

/-- An import of a directory that holds what is asked for of an offer pushes that, and makes no
other call. -/
theorem reaches_importAll (live : context.dryRun = false) (accepts : context.query.Accepts)
    (held : offer.HeldBelow descriptor context.staging world.disk) (legible : offer.Legible)
    (queried : ∀ kind, descriptor.asksFor kind → kind.isQueried)
    (idle : context.channel.queued world.site.remote.server = 0) :
    Reaches (importAll context.traced) world fun _ after => ∃ pushes policies groups,
      offer.PushedBy descriptor pushes policies groups ∧
        Made (pushes.map Push.call ++ policies ++ groups) world after := by
  have away : ∀ kind : ChannelKind,
      ¬ world.disk.isDirectory (context.traced.directory kind.assetKind) := by
    intro kind stands
    have isQueried := queried _ ((held.shelves kind.assetKind).1 stands)
    cases kind <;> cases isQueried
  have enqueued := enqueueKinds_away away {} ChannelKind.all
  have submitted : submit context.traced {} world = (.ok {}, world) := submit_idle idle {}
  have rest : Reaches (pushDefinitions context.traced {} >>= fun stats =>
      pushPolicies context.traced stats >>= fun stats =>
      pushGroups context.traced stats >>= applySharing context.traced) world fun _ after =>
        ∃ pushes policies groups, offer.PushedBy descriptor pushes policies groups ∧
          Made (pushes.map Push.call ++ policies ++ groups) world after := by
    refine (reaches_pushDefinitions accepts held legible {}).bind ?_
    rintro stats defined ⟨pushes, kinds, define, madePushes⟩
    rw [← madePushes.disk] at held away
    refine (reaches_pushPolicies accepts held legible stats).bind ?_
    rintro stats governed ⟨policies, arePolicies, madePolicies⟩
    rw [← madePolicies.disk] at held away
    refine (reaches_pushGroups accepts held legible stats).bind ?_
    rintro stats grouped ⟨ordered, groups, permuted, areGroups, madeGroups⟩
    rw [← madeGroups.disk] at away
    refine .afterLook ?_
    rw [if_pos (by simpa [ChannelKind.assetKind] using away .dashboard)]
    exact .pure ⟨pushes, policies, groups,
      ⟨kinds, define, arePolicies, ordered, permuted, areGroups⟩,
      (madePushes.trans madePolicies).trans madeGroups⟩
  refine .after enqueued (.after submitted ?_)
  rw [if_neg (by simp [Context.traced, live])]
  exact rest

end Import

end OpsContent
