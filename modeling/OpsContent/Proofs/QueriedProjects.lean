import OpsContent.Proofs.AnsweredExports
import OpsContent.Proofs.LocalAssets
import OpsContent.Proofs.ProjectShelves

/-!
# Projects of definitions, policies and custom groups

An export of kinds of the query interface succeeds, and leaves a project that holds exactly what was
asked for: a directory for each kind, and in it a file for each asset with its content.  A mirror of
the project holds the same, and there is one wherever there is room for it.
-/

namespace OpsContent

open OpsContent.Path Disk List

variable {ρ : Type} {file : String × Bytes}

/-- The directory holds what a descriptor asks for of an offer: directories of kinds with files of
assets, and nothing else but sidecars. -/
structure Offer.HeldBelow (offer : Offer) (descriptor : Descriptor) (root : Path) (disk : Disk) :
    Prop where
  stands : disk.isDirectory root = true
  named : disk.NamedBelow (disk.place root)
  room : offer.FitsBelow descriptor root ""
  shelves : ∀ kind : AssetKind, disk.isDirectory (root.join kind.directory) = true ↔
    descriptor.asksFor kind = true
  ways : ∀ way, way ≠ [] → (disk.get? (disk.place root ++ way)).isSome = true →
    (∃ kind, descriptor.asksFor kind = true ∧ way = [kind.directory]) ∨
      ∃ kind file, offer.HasFile descriptor kind file ∧ way = [kind.directory, file]
  assets : ∀ kind patterns, descriptor.patterns kind = some patterns → ∀ entry,
    entry ∈ disk.assetNames root kind ↔
      ∃ file ∈ offer.matched kind patterns, entry = kind.entry file.1
  content : ∀ kind patterns, descriptor.patterns kind = some patterns →
    ∀ file ∈ offer.matched kind patterns,
      disk.readFile ((root.join kind.directory).join (kind.entry file.1)) = .ok file.2

namespace Offer.HeldBelow

variable {offer : Offer} {descriptor : Descriptor} {source destination : Path}
  {before after : Disk}

theorem of_mirrors (held : offer.HeldBelow descriptor source before)
    (mirrors : Mirrors source destination before after)
    (stands : after.isDirectory destination) (room : offer.FitsBelow descriptor destination "") :
    offer.HeldBelow descriptor destination after := by
  have named := mirrors.namedBelow held.named
  refine ⟨stands, named, room, fun kind => ?_, fun way notEmpty isThere => ?_, ?_, ?_⟩
  · have same := mirrors.node?_extend (cons_ne_nil kind.directory [])
      (by simpa using kind.isEntry_directory)
    rw [← held.shelves kind, isDirectory_iff_node?, isDirectory_iff_node?]
    exact ⟨fun found => same.symm.trans found, fun found => same.trans found⟩
  · obtain ⟨node, found⟩ := Option.isSome_iff_exists.1 isThere
    exact held.ways way notEmpty (by simp [mirrors.nodes way notEmpty node found])
  · intro kind patterns isAsked entry
    rw [← held.assets kind patterns isAsked entry,
      assetNames_congr held.named named fun name isEntry =>
        mirrors.node?_extend (cons_ne_nil _ _) (kind.isEntry_below isEntry)]
  · intro kind patterns isAsked file member
    have listed := (held.assets kind patterns isAsked _).2 ⟨file, member, rfl⟩
    have isEntry := ((mem_assetNames_iff held.named).1 listed).1
    have read := held.content kind patterns isAsked file member
    rw [readFile_eq_ok_iff] at read ⊢
    exact mirrors.reached _ (kind.isEntry_below isEntry) _ read

theorem fits (held : offer.HeldBelow descriptor source before)
    (fitsBelow : offer.FitsBelow descriptor destination "")
    (free : ∀ rest, rest ≠ [] → before.get? (before.place destination ++ rest) = none) :
    ∀ item ∈ before.walkTree source, before.fits source destination item := by
  have roomFor : ∀ root, offer.FitsBelow descriptor root "" → ∀ way name,
      (before.get? (before.place source ++ (way ++ [name]))).isSome → Room (root.extend way) name := by
    intro root fitsRoot way name isThere
    rcases held.ways _ (by simp) isThere with ⟨kind, isAsked, same⟩ | ⟨kind, file, isFile, same⟩
    · have whole : way ++ [name] = [] ++ [kind.directory] := same
      obtain ⟨rfl, isName⟩ := append_inj' whole rfl
      rw [singleton_inj.1 isName]
      exact fitsRoot.shelves kind isAsked
    · have whole : way ++ [name] = [kind.directory] ++ [file] := same
      obtain ⟨rfl, isName⟩ := append_inj' whole rfl
      have room := fitsRoot.files kind file isFile
      rw [String.append_empty] at room
      rw [singleton_inj.1 isName]
      exact room
  refine fits_of_room held.stands held.named free fun way name entries listed => ?_
  obtain ⟨node, isNode⟩ := Option.isSome_iff_exists.1 listed
  have isThere := Option.isSome_of_eq_some (get?_of_listed? entries isNode)
  exact ⟨roomFor source held.room way name isThere, roomFor destination fitsBelow way name isThere⟩

end Offer.HeldBelow

/-! ## What is staged -/

theorem lastUnder_of_nodup {files : List (String × Bytes)} (distinct : (files.map Prod.fst).Nodup)
    (member : file ∈ files) : lastUnder files file.1 = some file.2 := by
  obtain ⟨other, isOther, sameName, last⟩ := lastUnder_of_mem member
  rw [last, inj_on_of_nodup_map distinct isOther member sameName]

namespace Offer.Fulfils

variable {offer : Offer} {descriptor : Descriptor} {added : List Delivery} {kind : AssetKind}
  {patterns : List String} (fulfils : offer.Fulfils descriptor AssetKind.all added)
  (queried : kind.isQueried) (isAsked : descriptor.patterns kind = some patterns)

include fulfils queried isAsked

theorem filter_kind_eq : added.filter (fun delivery => delivery.kind = kind) =
    (offer.matched kind patterns).map fun file => ⟨kind, file.1, some file.2⟩ :=
  (fulfils.delivers kind (by cases kind <;> decide) patterns isAsked).files queried

theorem mem_matched {delivery : Delivery} (member : delivery ∈ added)
    (isKind : delivery.kind = kind) :
    ∃ file ∈ offer.matched kind patterns, delivery = ⟨kind, file.1, some file.2⟩ := by
  have inFilter : delivery ∈ added.filter fun delivery => delivery.kind = kind := by
    simp [member, isKind]
  rw [fulfils.filter_kind_eq queried isAsked] at inFilter
  obtain ⟨file, isFile, same⟩ := mem_map.1 inFilter
  exact ⟨file, isFile, same.symm⟩

theorem assets_eq_lastUnder (name : String) :
    Delivery.assets added kind name = lastUnder (offer.matched kind patterns) name :=
  Delivery.assets_of_files (fulfils.filter_kind_eq queried isAsked)
    (AssetKind.sort_of_isQueried queried).2.2.2 name

end Offer.Fulfils

namespace Export.Context.Stock

variable {context : Context ρ} {descriptor : Descriptor} {offer : Offer} {added : List Delivery}
  {disk : Disk} (stock : context.Stock descriptor.asksFor added disk)
  (fulfils : offer.Fulfils descriptor AssetKind.all added)

include stock fulfils

theorem isShelf_or_isFile
    (queried : ∀ kind, descriptor.asksFor kind → kind.isQueried)
    {place : Location} {node : Node}
    (found : disk.get? (disk.place context.staging ++ place) = some node) (notEmpty : place ≠ []) :
    (∃ kind, descriptor.asksFor kind ∧ place = [kind.directory]) ∨
      ∃ kind file, offer.HasFile descriptor kind file ∧ place = [kind.directory, file] := by
  cases stock.only place node found with
  | root => exact absurd rfl notEmpty
  | @directory kind isAsked => exact Or.inl ⟨kind, isAsked, rfl⟩
  | @beside kind rest isAsked isBeside =>
    right
    rcases isBeside with ⟨hasTexts, -⟩ | ⟨file, isSidecar, rfl⟩
    · rw [(AssetKind.sort_of_isQueried (queried kind isAsked)).2.2.1] at hasTexts
      cases hasTexts
    · exact ⟨kind, file, .sidecar isAsked isSidecar, rfl⟩
  | @part delivery rest isAsked member hasPart =>
    right
    obtain ⟨notReport, notConfig, -⟩ := AssetKind.sort_of_isQueried (queried _ isAsked)
    obtain ⟨patterns, isPatterns, selected⟩ := fulfils.mem_selected member notConfig
    rw [AssetKind.HasPart, if_neg notReport] at hasPart
    exact ⟨delivery.kind, _, .asset isPatterns selected, by rw [hasPart]⟩

section

variable {kind : AssetKind} {patterns : List String} (queried : kind.isQueried)
  (isAsked : descriptor.patterns kind = some patterns)

include queried isAsked

theorem shelf_of_queried :
    Shelf kind.shelving (context.shelfOf kind) (Delivery.assets added kind) disk := by
  refine stock.shelf (fun delivery member _ => ?_) fun delivery member isKind => ?_
  · refine ⟨stock.plain delivery member, fun isDashboard => ?_⟩
    rw [isDashboard] at queried
    cases queried
  · obtain ⟨file, -, rfl⟩ := fulfils.mem_matched queried isAsked member isKind
    rw [Delivery.content?, Option.bind_some, (AssetKind.sort_of_isQueried queried).2.2.2 file.2]
    rfl

theorem mem_assetNames_of_queried (named : disk.NamedBelow (disk.place context.staging))
    (entry : String) : entry ∈ disk.assetNames context.staging kind ↔
      ∃ file ∈ offer.matched kind patterns, entry = kind.entry file.1 := by
  rw [mem_assetNames_of_shelf named (stock.shelf_of_queried fulfils queried isAsked)]
  constructor
  · rintro ⟨name, isAsset, rfl⟩
    obtain ⟨content, holds⟩ := Option.isSome_iff_exists.1 isAsset
    obtain ⟨delivery, member, isKind, rfl, -⟩ := Delivery.mem_of_assets holds
    obtain ⟨file, isFile, rfl⟩ := fulfils.mem_matched queried isAsked member isKind
    exact ⟨file, isFile, rfl⟩
  · rintro ⟨file, isFile, rfl⟩
    obtain ⟨other, -, -, last⟩ := lastUnder_of_mem isFile
    exact ⟨file.1, by rw [fulfils.assets_eq_lastUnder queried isAsked, last]; rfl, rfl⟩

/-- An asset that matches is held in its file. -/
theorem readFile_entry (distinct : ((offer.files kind).map Prod.fst).Nodup)
    (member : file ∈ offer.matched kind patterns) :
    disk.readFile ((context.shelfOf kind).join (kind.entry file.1)) = .ok file.2 := by
  have unique : ((offer.matched kind patterns).map Prod.fst).Nodup :=
    (filter_sublist.map Prod.fst).nodup distinct
  have last := (fulfils.assets_eq_lastUnder queried isAsked file.1).trans
    (lastUnder_of_nodup unique member)
  have read := stock.held kind file.1 file.2 last
  have inner : kind.shelving.inner = [] :=
    AssetKind.inner_eq_nil (AssetKind.sort_of_isQueried queried).1
  rw [Shelving.file, inner, extend_nil] at read
  exact read

end

theorem heldBelow (queried : ∀ kind, descriptor.asksFor kind → kind.isQueried)
    (distinct : ∀ kind, ((offer.files kind).map Prod.fst).Nodup)
    (stands : disk.isDirectory context.staging)
    (named : disk.NamedBelow (disk.place context.staging))
    (room : offer.FitsBelow descriptor context.staging "")
    (shelves : ∀ kind, descriptor.asksFor kind →
      disk.isDirectory (context.shelfOf kind)) :
    offer.HeldBelow descriptor context.staging disk := by
  refine ⟨stands, named, room, fun kind => ⟨fun stood => ?_, shelves kind⟩, ?_, ?_, ?_⟩
  · have there := get?_of_node? (isDirectory_iff_node?.1 stood)
    rw [place_join _ _ kind.isEntry_directory] at there
    rcases stock.isShelf_or_isFile fulfils queried there (by simp) with
      ⟨other, isAsked, same⟩ | ⟨other, file, -, same⟩
    · rwa [AssetKind.directory_injective (singleton_inj.1 same)]
    · simp at same
  · intro way notEmpty isThere
    obtain ⟨node, found⟩ := Option.isSome_iff_exists.1 isThere
    exact stock.isShelf_or_isFile fulfils queried found notEmpty
  · intro kind patterns isAsked entry
    have isQueried := queried kind (Descriptor.asksFor_of_patterns isAsked)
    exact stock.mem_assetNames_of_queried fulfils isQueried isAsked named entry
  · intro kind patterns isAsked file member
    have isQueried := queried kind (Descriptor.asksFor_of_patterns isAsked)
    exact stock.readFile_entry fulfils isQueried isAsked (distinct kind) member

end Export.Context.Stock

/-! ## Servers without a channel -/

namespace Channel

/-- A channel on which nothing can be done. -/
def dead : Channel ρ where
  describe _ := ""
  queued _ := 0
  connect := pure ()
  close := pure ()
  exportAsset _ _ _ := throw ⟨"export", "no channel"⟩
  enqueue _ _ _ := pure ()
  importFiles := pure ()
  share _ _ := pure ()
  unshare _ _ := pure ()
  cleanup := pure ()

theorem confined_dead : (dead : Channel ρ).Confined where
  connect _ fit := fit
  close _ fit := fit
  tags _ _ _ _ fit := fit
  current _ _ _ _ := rfl
  outside _ _ _ _ _ _ _ := rfl
  entries _ _ _ _ _ _ isThere := Or.inl isThere

theorem records_dead : (dead : Channel ρ).Records fun _ => [] where
  connect _ := rfl
  close _ := rfl
  exported _ _ _ _ _ done := by cases done
  failed _ _ _ _ _ _ _ := rfl

end Channel

theorem Answered.offering {α : Type} {question : QueryAction ρ α} {value : α}
    (answered : Answered question value) :
    Export.Offering (fun _ => []) question (· = value) where
  tags := answered.tags
  silent _ := rfl
  yields site found after ran := by
    have answer := answered.answer site
    rw [ran] at answer
    exact Except.ok.inj answer

namespace Synchronizer

open Export

variable {synchronizer : Synchronizer ρ} {package : Package} {descriptor : Descriptor}
  {offer : Offer} {world : World ρ}

/-- The server with a dead channel, whose other listings are those of an offer. -/
def queriedOnly (synchronizer : Synchronizer ρ) (offer : Offer) : Synchronizer ρ where
  query := { synchronizer.query with
    listViews := pure (offer.views.map (Listing.mk none))
    listReports := pure (offer.reports.map (Listing.mk none))
    listSuperMetrics := pure (offer.superMetrics.map (Listing.mk none)) }
  channel := Channel.dead
  scratch := synchronizer.scratch

theorem offers_queriedOnly (answers : synchronizer.query.Answers offer) :
    Offers (synchronizer.queriedOnly offer).query (fun _ => []) offer := by
  have listing : ∀ names : List String,
      Offering (fun _ => []) (pure (names.map (Listing.mk none)) : QueryAction ρ (List Listing))
        fun listed => listed.map (·.name) = names := by
    intro names
    refine ⟨fun _ fit => fit, fun _ => rfl, fun site found after ran => ?_⟩
    cases ran
    rw [map_map]
    exact map_id names
  exact ⟨listing _, listing _, listing _, fun kind => (answers.definitions kind).offering,
    answers.groups.offering, answers.policies.offering,
    fun policy member => (answers.archives policy member).offering⟩

theorem stagePackage_queriedOnly
    (queried : ∀ kind, descriptor.asksFor kind → kind.isQueried) (workspace : Path) :
    (synchronizer.queriedOnly offer).stagePackage package descriptor workspace =
      synchronizer.stagePackage package descriptor workspace := by
  have kinds : ∀ (kinds : List AssetKind) (stats : ExportStats),
      exportKinds ((synchronizer.queriedOnly offer).exportContext package workspace) descriptor
          stats kinds =
        exportKinds (synchronizer.exportContext package workspace) descriptor stats kinds := by
    intro kinds
    induction kinds with
    | nil => exact fun _ => rfl
    | cons kind rest ih =>
      intro stats
      unfold exportKinds
      cases isAsked : descriptor.patterns kind with
      | none => exact ih stats
      | some patterns =>
        have isQueried := queried kind (Descriptor.asksFor_of_patterns isAsked)
        have same :
            exportKind ((synchronizer.queriedOnly offer).exportContext package workspace) kind
                patterns =
              exportKind (synchronizer.exportContext package workspace) kind patterns := by
          cases kind with
          | alertDefinition | symptomDefinition | recommendation | customGroup | policy => rfl
          | view | dashboard | report | superMetric | metricConfig => cases isQueried
        dsimp only
        rw [same]
        refine bind_congr fun count => ?_
        cases count with
        | none => exact ih stats
        | some count => exact ih _
  exact bind_congr fun _ => kinds AssetKind.all {}

/-! ## The export -/

/-- There is room for an export into an empty project: the workspace can be made under a new name,
beside the project, and it and the project have room for what is asked for. -/
structure ExportRoom (synchronizer : Synchronizer ρ) (package : Package) (descriptor : Descriptor)
    (offer : Offer) (world : World ρ) : Prop where
  fresh : world.Fresh synchronizer.scratch "vrsync-export"
  workspace : (makeDirectories (synchronizer.workspace world) world.disk).1 = .ok ()
  staging : Room (synchronizer.workspace world) "vrops-export"
  staged : offer.FitsBelow descriptor (stagingIn (synchronizer.workspace world)) ".tmp"
  empty : world.disk.IsEmptyDirectory package.path
  passes : world.disk.PassesBy package.path synchronizer.scratch
  project : offer.FitsBelow descriptor package.path ""

variable (answers : synchronizer.query.Answers offer)
  (queried : ∀ kind, descriptor.asksFor kind → kind.isQueried)
  (plain : ∀ kind patterns, descriptor.patterns kind = some patterns →
    ∀ name ∈ offer.selected kind patterns, IsPlain name)

include answers queried plain

theorem reaches_stagePackage {workspace : Path} (empty : world.disk.IsEmptyDirectory workspace)
    (room : Room workspace "vrops-export")
    (fits : offer.FitsBelow descriptor (stagingIn workspace) ".tmp") :
    Reaches (synchronizer.stagePackage package descriptor workspace) world fun _ staged =>
      staged.disk.isDirectory (stagingIn workspace) ∧
        ∀ kind, descriptor.asksFor kind →
          staged.disk.isDirectory ((stagingIn workspace).join kind.directory) := by
  obtain ⟨opened, made, advances, stands⟩ := empty.flat.makeDirectories room
  have opens := (makeDirectories_join_ok room.entry empty.stands made).1
  have emptyStaging : opened.IsEmptyDirectory (stagingIn workspace) := by
    refine ⟨stands, fun rest notEmpty => ?_⟩
    rw [stagingIn, place_join _ _ room.entry, place_congr opens.current, append_assoc,
      opens.elsewhere _ (by simpa using notEmpty)]
    exact empty.free _ (by simp)
  refine (Reaches.files made).bind fun _ between reached => ?_
  have isFlat : between.disk.Flat (synchronizer.exportContext package workspace).staging := by
    rw [reached.2]
    exact emptyStaging.flat
  refine (reaches_exportKinds answers plain fits queried isFlat).mono fun _ staged both => ?_
  exact ⟨both.1.flat.stands, fun kind isAsked => both.2 kind (by cases kind <;> decide) isAsked⟩

theorem heldBelow_stagePackage {zone : Zone} {result : ExportStats} {start staged : World ρ}
    (distinct : ∀ kind, ((offer.files kind).map Prod.fst).Nodup) (within : zone.Within start)
    (empty : start.disk.IsEmptyDirectory zone.root)
    (staging : synchronizer.stagePackage package descriptor zone.root start = (.ok result, staged))
    (stands : staged.disk.isDirectory (stagingIn zone.root))
    (room : offer.FitsBelow descriptor (stagingIn zone.root) ".tmp")
    (shelves : ∀ kind, descriptor.asksFor kind →
      staged.disk.isDirectory ((stagingIn zone.root).join kind.directory)) :
    zone.Within staged ∧ offer.HeldBelow descriptor (stagingIn zone.root) staged.disk := by
  -- the channel has no part in it, so that it may as well be dead
  have onlyQueried : (synchronizer.queriedOnly offer).stagePackage package descriptor zone.root
      start = (.ok result, staged) := by
    rw [stagePackage_queriedOnly queried]
    exact staging
  have confined : (synchronizer.queriedOnly offer).channel.Confined := Channel.confined_dead
  obtain ⟨withinStaged, -, added, fulfils, -, stocks⟩ := stagePackage_ok confined
    Channel.records_dead (offers_queriedOnly answers) plain within empty onlyQueried
  have regular : ∀ delivery ∈ added, delivery.Regular := by
    intro delivery member
    have isQueried := queried _ (fulfils.asked delivery member).2
    unfold Delivery.Regular
    split <;> simp_all [AssetKind.isQueried]
  obtain ⟨-, stock⟩ := stocks regular
  have encloses : zone.Encloses 1 (stagingIn zone.root) :=
    zone.encloses_root.joinEntry Context.Noting.isEntry_staging
  exact ⟨withinStaged, stock.heldBelow fulfils queried distinct stands
    (withinStaged.disk.namedBelow encloses) (room.withoutEnding plain) shelves⟩

/-- An export of kinds of the query interface into an empty project succeeds, and leaves there what
was asked for. -/
theorem exportPackage_holds (distinct : ∀ kind, ((offer.files kind).map Prod.fst).Nodup)
    (room : synchronizer.ExportRoom package descriptor offer world) :
    ∃ stats after,
      synchronizer.exportPackage package descriptor false world = (.ok stats, after) ∧
        offer.HeldBelow descriptor package.path after.disk := by
  obtain ⟨base, made⟩ : ∃ base, world.Made synchronizer.scratch "vrsync-export" base :=
    ⟨_, room.fresh.made (Prod.ext room.workspace rfl)⟩
  have emptyBase := made.isEmptyDirectory
  have stages : Reaches
      (synchronizer.stagePackage package descriptor (synchronizer.workspace world))
      (world.drawn base) _ :=
    reaches_stagePackage answers queried plain emptyBase room.staging room.staged
  obtain ⟨result, staged, staging, stands, shelves⟩ := stages
  obtain ⟨within, held⟩ := heldBelow_stagePackage answers queried plain distinct made.within
    emptyBase staging stands room.staged shelves
  obtain ⟨overlaid, succeeds⟩ :=
    overlaid_exportPackage made room.empty.stands room.passes staging within stands
  -- nothing came to the project before
  have untouched := (made.touchesBelow room.empty.stands room.passes).trans
    (within.disk.touchesBelow (made.beside room.empty.stands room.passes))
  have free : ∀ rest, rest ≠ [] →
      staged.disk.get? (staged.disk.place package.path ++ rest) = none := by
    intro rest notEmpty
    rw [place_congr untouched.current, untouched.elsewhere rest (by simp)]
    exact room.empty.free rest notEmpty
  have all : synchronizer.laidWays package world staged.disk =
      staged.disk.walkTree (stagingIn (synchronizer.workspace world)) :=
    takeWhile_eq_self_iff.2 (held.fits room.project free)
  rw [all] at overlaid
  have mirrors := overlaid.mirrors room.empty
    (fun _ => room.passes.outside_of_onWay room.empty.stands) stands
  exact ⟨_, _, Prod.ext (succeeds.2 all) rfl, held.of_mirrors mirrors overlaid.stands
    room.project⟩

end Synchronizer

end OpsContent
