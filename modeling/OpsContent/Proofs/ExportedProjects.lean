import OpsContent.Proofs.ExportedKinds
import OpsContent.Proofs.Projects

/-!
# Exported projects

What an export that succeeds has brought to its project: every asset that was asked for stands in
the directory of its kind with the content that was delivered last, and no other file has changed
but texts and sidecars of the kinds that were asked for.
-/

namespace OpsContent

open OpsContent.Path Disk

variable {ρ : Type} {added : List Delivery} {node : Node}

theorem Delivery.regular_of_carried
    (regular : ∀ delivery ∈ added.filter Delivery.carried, delivery.Regular) :
    ∀ delivery ∈ added, delivery.Regular := by
  intro delivery member
  by_cases carried : delivery.carried
  · exact regular delivery (List.mem_filter.2 ⟨member, carried⟩)
  · obtain ⟨kind, name, file⟩ := delivery
    cases kind <;> trivial

namespace Export

/-- What was delivered has come to a project, and nothing else was done there but to texts and
sidecars of the kinds that were asked for. -/
structure Arrived (project : Path) (asked : AssetKind → Bool) (added : List Delivery)
    (before after : Disk) : Prop where
  stands : ∀ delivery ∈ added, ∃ node,
    after.node? ((project.join delivery.kind.directory).join
        (delivery.kind.entry delivery.name)) = some node ∧
      node.isFile = decide (delivery.kind ≠ .report)
  held : ∀ kind name content, Delivery.assets added kind name = some content →
    after.readFile (kind.shelving.file (project.join kind.directory) name) = .ok content
  elsewhere : ∀ location, after.get? location = before.get? location ∨
    (before.get? location = none ∧ after.get? location = some .directory) ∨
    ∃ kind place, location = before.place project ++ kind.directory :: place ∧
      asked kind = true ∧ (kind.IsBeside place ∨
        ∃ delivery ∈ added, delivery.kind = kind ∧ kind.HasPart delivery.name place)

variable {context : Context ρ} {asked : AssetKind → Bool} {added : List Delivery} {project : Path}
  {onWay : Location → Prop} {staged before after : Disk}

/-- A stock that was laid over a project has come there. -/
theorem Context.Stock.arrived (stock : context.Stock asked added staged)
    (stands : staged.isDirectory context.staging)
    (overlaid : Overlaid context.staging project (staged.walkTree context.staging) onWay staged before
      after) : Arrived project asked added before after := by
  have entries : ∀ delivery ∈ added, ∀ inner : List String, (∀ name ∈ inner, IsEntry name) →
      ∀ name ∈ delivery.kind.directory :: delivery.kind.entry delivery.name :: inner,
        IsEntry name := by
    intro delivery member inner proper
    simpa using ⟨AssetKind.isEntry_directory _,
      delivery.kind.isEntry_entry (stock.plain delivery member), proper⟩
  refine ⟨?_, ?_, ?_⟩
  · intro delivery member
    obtain ⟨node, found, sort⟩ := stock.stands delivery member
    exact ⟨node, brought_of_node? overlaid.reached stands (by simp)
      (entries delivery member [] (by simp)) found, sort⟩
  · intro kind name content holds
    have held := readFile_eq_ok_iff.1 (stock.held kind name content holds)
    obtain ⟨delivery, member, rfl, rfl, -⟩ := Delivery.mem_of_assets holds
    rw [readFile_eq_ok_iff]
    have there := brought_of_node? overlaid.reached stands (by simp)
      (entries delivery member _ delivery.kind.shelving.proper) held
    exact there
  · intro location
    by_cases walked : ∃ way ∈ staged.walkTree context.staging, location = before.place project ++ way
    · obtain ⟨way, member, rfl⟩ := walked
      obtain ⟨proper, node, isNode, -, reached⟩ := overlaid.reached way member
      have inStaging := get?_of_listed? proper isNode
      have inProject := get?_of_node? reached
      rw [place_extend _ _ proper, place_congr overlaid.current] at inProject
      cases stock.only way node inStaging with
      | root => exact absurd rfl (ne_nil_of_mem_walkTree member)
      | @directory kind isAsked =>
        have sorts := overlaid.sorts _ member
        cases stood : before.get? (before.place project ++ [kind.directory]) with
        | none => exact .inr (.inl ⟨rfl, inProject⟩)
        | some old =>
          left
          rw [inProject, (sorts old stood).2 inStaging]
      | beside isAsked isBeside =>
        exact .inr (.inr ⟨_, _, rfl, isAsked, Or.inl isBeside⟩)
      | @part delivery place isAsked isMember hasPart =>
        exact .inr (.inr ⟨_, _, rfl, isAsked, Or.inr ⟨delivery, isMember, rfl, hasPart⟩⟩)
    · rcases overlaid.elsewhere location fun way member same => walked ⟨way, member, same⟩ with
        same | ⟨none, directory, -⟩
      · exact .inl same
      · exact .inr (.inl ⟨none, directory⟩)

end Export

namespace Synchronizer

open Export

variable {synchronizer : Synchronizer ρ} {package : Package} {descriptor : Descriptor}
  {log : ρ → List Delivery} {offer : Offer} {zone : Zone} {stats : ExportStats} {world : World ρ}

theorem noting_exportContext (package : Package) (zone : Zone)
    (confined : synchronizer.channel.Confined) (records : synchronizer.channel.Records log) :
    (synchronizer.exportContext package zone.root).Noting zone log :=
  ⟨⟨rfl, zone.encloses_root.joinEntry Context.Noting.isEntry_staging, confined⟩, rfl, records⟩

theorem stagePackage_ok (confined : synchronizer.channel.Confined)
    (records : synchronizer.channel.Records log) (offers : Offers synchronizer.query log offer)
    (plain : ∀ kind patterns, descriptor.patterns kind = some patterns →
      ∀ name ∈ offer.selected kind patterns, IsPlain name) {start staged : World ρ}
    (within : zone.Within start) (empty : start.disk.IsEmptyDirectory zone.root)
    (done : synchronizer.stagePackage package descriptor zone.root start = (.ok stats, staged)) :
    zone.Within staged ∧ (∀ kind, stats.assets.count kind = offer.number descriptor kind) ∧
      ∃ added, offer.Fulfils descriptor AssetKind.all added ∧
        log staged.site.remote = log start.site.remote ++ added.filter Delivery.carried ∧
        ((∀ delivery ∈ added, delivery.Regular) →
          staged.disk.isDirectory (stagingIn zone.root) ∧
            (synchronizer.exportContext package zone.root).Stock descriptor.asksFor added
              staged.disk) := by
  have noting := noting_exportContext package zone confined records
  obtain ⟨_, opened, making, exporting⟩ := exceptBind_ok done
  have withinOpened := Zone.keeps_files (Zone.keeps_makeDirectories noting.inside.staging) start within
  change zone.Within ((World.files (makeDirectories (stagingIn zone.root)) : Sync ρ Unit) start).2
    at withinOpened
  rw [making] at withinOpened
  obtain ⟨made, sameSite⟩ := Zone.files_ok making
  obtain ⟨counts, added, fulfils, exports⟩ :=
    noting.exportAll_ok offers plain withinOpened exporting
  refine ⟨exports.within, counts, added, fulfils, by rw [exports.logged, sameSite], fun regular => ?_⟩
  obtain ⟨opens, stands, -⟩ :=
    makeDirectories_join_ok Context.Noting.isEntry_staging empty.stands made
  obtain ⟨standsAfter, stocks⟩ := exports.fills regular stands
  refine ⟨standsAfter, stocks [] (Context.Stock.empty _ ?_)⟩
  intro place notEmpty
  have free := empty.free ("vrops-export" :: place) (by simp)
  have there : opened.disk.place (synchronizer.exportContext package zone.root).staging =
      start.disk.place zone.root ++ ["vrops-export"] := by
    rw [place_congr opens.current]
    exact place_join _ _ Context.Noting.isEntry_staging
  rw [there, List.append_assoc]
  refine (opens.elsewhere _ ?_).trans free
  simpa using notEmpty

theorem directory_ne_nextName (kind : AssetKind) (world : World ρ) :
    kind.directory ≠ world.nextName "vrsync-export" := by
  intro same
  have chars := congrArg (fun text => text.toList.take 6) same
  have starts : (world.nextName "vrsync-export").toList.take 6 = ['v', 'r', 's', 'y', 'n', 'c'] := by
    simp [World.nextName]
  rw [starts] at chars
  revert chars
  cases kind <;> decide

theorem clear_of_stocked {way : Location} (fresh : world.Fresh synchronizer.scratch "vrsync-export")
    (unmentioned : world.nextName "vrsync-export" ∉ package.path.pieces)
    (aside : ∀ kind, descriptor.asksFor kind →
      isBelow (world.disk.place package.path ++ [kind.directory])
      (world.disk.place synchronizer.scratch) = false)
    (atTop : zone.top = world.disk.place synchronizer.scratch ++ [world.nextName "vrsync-export"])
    (stocked : Stocked descriptor.asksFor added way node) :
    isBelow zone.top (world.disk.place package.path ++ way) = false := by
  have free := Disk.notMem_of_onWay fresh.current unmentioned (onWay_place world.disk package.path)
  have inKind : ∀ kind place, descriptor.asksFor kind →
      isBelow zone.top (world.disk.place package.path ++ kind.directory :: place) = false := by
    intro kind place isAsked
    have outside := aside kind isAsked
    have notIn : world.nextName "vrsync-export" ∉
        world.disk.place package.path ++ [kind.directory] := by
      simpa using ⟨free, (directory_ne_nextName kind world).symm⟩
    rw [← Bool.not_eq_true, isBelow_iff] at outside ⊢
    intro below
    rw [atTop, List.append_cons (world.disk.place package.path)] at below
    -- the workspace would be the directory of the kind, or lie in it
    rcases List.prefix_or_prefix_of_prefix below (List.prefix_append _ place) with inner | outer
    · exact notIn (inner.subset (by simp))
    · rcases List.prefix_concat_iff.1 outer with same | early
      · exact notIn (by simp [same])
      · exact outside early
  cases stocked with
  | root =>
    rw [List.append_nil, ← Bool.not_eq_true, isBelow_iff, atTop]
    intro below
    exact free (below.subset (by simp))
  | directory isAsked => exact inKind _ [] isAsked
  | beside isAsked => exact inKind _ _ isAsked
  | part isAsked => exact inKind _ _ isAsked

/-- What is assumed of an export: the channel writes only to the directory of each call and notes
what it leaves there, the query interface has an offer, the names that are asked for are plain, the
name of the workspace is new, and workspaces do not lie in a directory that is exported to. -/
structure ExportSetting (synchronizer : Synchronizer ρ) (package : Package)
    (descriptor : Descriptor) (log : ρ → List Delivery) (offer : Offer) (world : World ρ) :
    Prop where
  confined : synchronizer.channel.Confined
  records : synchronizer.channel.Records log
  offers : Offers synchronizer.query log offer
  plain : ∀ kind patterns, descriptor.patterns kind = some patterns →
    ∀ name ∈ offer.selected kind patterns, IsPlain name
  fresh : world.Fresh synchronizer.scratch "vrsync-export"
  unmentioned : world.nextName "vrsync-export" ∉ package.path.pieces
  notBlank : package.path.pieces ≠ [""]
  aside : ∀ kind, descriptor.asksFor kind = true →
    isBelow (world.disk.place package.path ++ [kind.directory])
      (world.disk.place synchronizer.scratch) = false

theorem exportPackage_delivers {after : World ρ}
    (setting : synchronizer.ExportSetting package descriptor log offer world)
    (done : synchronizer.exportPackage package descriptor false world = (.ok stats, after)) :
    (∀ kind, stats.assets.count kind = offer.number descriptor kind) ∧
      ∃ added, offer.Fulfils descriptor AssetKind.all added ∧
        log after.site.remote = log world.site.remote ++ added.filter Delivery.carried ∧
        ((∀ delivery ∈ added, delivery.Regular) → ∃ workspace staged,
          staged.isDirectory (stagingIn workspace) ∧
          staged.NamedBelow (staged.place (stagingIn workspace)) ∧
          (synchronizer.exportContext package workspace).Stock descriptor.asksFor added staged ∧
          Overlaid (stagingIn workspace) package.path (staged.walkTree (stagingIn workspace))
            (fun location => world.disk.OnWay synchronizer.scratch location ∨
              world.disk.OnWay package.path location) staged world.disk after.disk) := by
  obtain ⟨zone, start, staged, result, opened, withinStart, empty, sameStart, sameAfter, atTop,
    staging, rfl, brings⟩ :=
    exportPackage_ok setting.fresh setting.unmentioned setting.notBlank done
  obtain ⟨within, counts, added, fulfils, logged, stocks⟩ := stagePackage_ok setting.confined
    setting.records setting.offers setting.plain withinStart empty staging
  refine ⟨counts, added, fulfils, by rw [sameAfter, logged, sameStart], fun regular => ?_⟩
  obtain ⟨stands, stock⟩ := stocks regular
  obtain ⟨keeps, overlays⟩ := brings within stands
  have noting := noting_exportContext package zone setting.confined setting.records
  have stockOpened := stock.of_touches noting.notBlank_staging keeps (fun _ _ _ _ => id)
    fun _ _ => False.elim
  have standsOpened := keeps.stands stands
  refine ⟨zone.root, opened, standsOpened, ?_, stockOpened, overlays fun way stood => ?_⟩
  · exact (Mirrors.of_touches keeps stands).namedBelow
      (within.disk.namedBelow noting.inside.staging)
  · obtain ⟨node, found⟩ := Option.isSome_iff_exists.1 stood
    exact clear_of_stocked setting.fresh setting.unmentioned setting.aside atTop
      (stockOpened.only way node found)

end Synchronizer

end OpsContent
