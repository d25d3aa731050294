import OpsContent.Proofs.StagedAssets

/-!
# Stocks

Exporting an asset makes a server hand out a file.  What it has handed out is noted in a list of
deliveries, and a staging directory has a stock of them: nothing else lies there but what is beside
the assets, every asset stands, and it has the content of its last delivery.
-/

namespace OpsContent

open OpsContent.Path Disk List Delivery

variable {ρ : Type}
variable {disk : Disk} {aside name : String} {after : Disk}

namespace Delivery

/-- What an export over the channel has left in a directory.  A metric config that is not there is
no delivery. -/
def left (disk : Disk) (directory : Path) (kind : ChannelKind) (name : String) : List Delivery :=
  let file := (disk.readFile (directory.join (kind.fileName name))).toOption
  if kind = .metricConfig ∧ file = none then [] else [⟨kind.assetKind, name, file⟩]

/-- Did the asset come over the channel? -/
def carried (delivery : Delivery) : Bool :=
  ChannelKind.all.any fun kind => kind.assetKind = delivery.kind

end Delivery

/-- A channel that notes what it leaves. -/
structure Channel.Records (channel : Channel ρ) (log : ρ → List Delivery) : Prop where
  connect : ∀ site, log (channel.connect site).2.remote = log site.remote
  close : ∀ site, log (channel.close site).2.remote = log site.remote
  exported : ∀ kind name directory world after,
    channel.exportAsset kind name directory world = (.ok (), after) →
      log after.site.remote =
        log world.site.remote ++ Delivery.left after.disk directory kind name
  failed : ∀ kind name directory world cause after,
    channel.exportAsset kind name directory world = (.error cause, after) →
      log after.site.remote = log world.site.remote

theorem Zone.touchesBelow_aside {zone : Zone} (entry : IsEntry name) (different : aside ≠ name)
    (holds : zone.Holds disk) (holdsAfter : zone.Holds after)
    (outside : ∀ location, isBelow (zone.top ++ [aside]) location = false →
      after.get? location = disk.get? location) :
    TouchesBelow (zone.root.join name) (fun _ => False) disk after := by
  have current : after.current = disk.current := holdsAfter.current.trans holds.current.symm
  have reached : disk.place (zone.root.join name) = zone.top ++ [name] := by
    rw [place_join _ _ entry, place_congr holds.current]
    rfl
  have same : ∀ rest, after.get? (disk.place (zone.root.join name) ++ rest) =
      disk.get? (disk.place (zone.root.join name) ++ rest) := by
    intro rest
    apply outside
    rw [reached, append_assoc]
    exact notBelow_of_ne different.symm rest
  refine ⟨current, ?_, fun rest _ => same rest, fun rest stands => (same rest).trans stands⟩
  intro stands
  have found := isDirectory_iff_node?.1 stands
  have room := room_of_node? holds.isDirectory_root entry found
  have here := same []
  rw [append_nil, (isDirectory_iff.1 stands).2.2, place_join _ _ entry] at here
  rw [isDirectory_iff_node?, node?_join holdsAfter.isDirectory_root room, place_congr current]
  exact here

namespace Export

open Staging

variable {context : Context ρ} {zone : Zone} {log : ρ → List Delivery} {kind : AssetKind}

/-- An export inside of a zone, over a channel that notes what it leaves. -/
structure Context.Noting (context : Context ρ) (zone : Zone) (log : ρ → List Delivery) :
    Prop where
  inside : context.Inside zone
  staging : context.staging = Synchronizer.stagingIn zone.root
  records : context.channel.Records log

namespace Context.Noting

variable {world : World ρ}

theorem isEntry_staging : IsEntry "vrops-export" := by decide

theorem nextName_ne (kind : AssetKind) (world : World ρ) :
    world.nextName (Context.stem kind) ≠ "vrops-export" := by
  have starts : ∃ rest, (Context.stem kind).toList = 'i' :: rest := by
    cases kind <;> exact ⟨_, rfl⟩
  obtain ⟨rest, starts⟩ := starts
  intro same
  have chars := congrArg String.toList same
  simp [World.nextName, starts] at chars

variable (noting : context.Noting zone log)

include noting

theorem staging_eq : context.staging = zone.root.join "vrops-export" := noting.staging

theorem touches_aside (different : aside ≠ "vrops-export") (holds : zone.Holds disk)
    (holdsAfter : zone.Holds after)
    (outside : ∀ location, isBelow (zone.top ++ [aside]) location = false →
      after.get? location = disk.get? location) :
    TouchesBelow context.staging (fun _ => False) disk after := by
  rw [noting.staging_eq]
  exact Zone.touchesBelow_aside isEntry_staging different holds holdsAfter outside

theorem withScratch_ok {α : Type} {work : Path → Sync ρ α} {after : World ρ} {value : α}
    (within : zone.Within world)
    (done : withScratch context.scratch (Context.stem kind) work world = (.ok value, after)) :
    ∃ aside opened last, aside ≠ "vrops-export" ∧ IsEntry aside ∧ zone.Within opened ∧
      opened.disk.isDirectory (zone.root.join aside) ∧
      opened.site.remote = world.site.remote ∧
      TouchesBelow context.staging (fun _ => False) world.disk opened.disk ∧
      work (zone.root.join aside) opened = (.ok value, last) ∧
      after.site.remote = last.site.remote ∧
      (zone.Within last → TouchesBelow context.staging (fun _ => False) last.disk after.disk) := by
  have fits := Context.Inside.stem_fits kind
  have entry : IsEntry (world.nextName (Context.stem kind)) :=
    Zone.isEntry_scratchName fits.1 fits.2 (within.tags world.site.drawn)
  have different := nextName_ne kind world
  have encloses := zone.encloses_root.joinEntry entry
  rw [noting.inside.scratch] at done
  obtain ⟨base, last, made, worked, rfl⟩ := OpsContent.withScratch_ok done
  have holds := Zone.keeps_makeDirectories encloses world.disk within.disk
  have opens := touches_makeDirectories_join entry within.disk.isDirectory_root
  rw [made] at holds opens
  have stands := isDirectory_of_makeDirectories made encloses.pieces_ne_blank
  refine ⟨_, world.drawn base, last, different, entry, ⟨holds, within.tags⟩, stands, rfl, ?_, worked,
    remote_removeScratch _ _, ?_⟩
  · apply noting.touches_aside different within.disk holds
    intro location outside
    apply opens.elsewhere
    rintro rfl
    rw [place_congr within.disk.current, ← Zone.top, isBelow_iff.2 (prefix_refl _)] at outside
    cases outside
  · intro withinLast
    apply noting.touches_aside different withinLast.disk
      (Zone.keeps_removeScratch encloses _ withinLast).disk
    intro location outside
    apply get?_removeScratch_of_outside
    rw [place_join _ _ entry, place_congr withinLast.disk.current]
    exact outside

theorem exportAsset_aside (different : aside ≠ "vrops-export") (entry : IsEntry aside)
    (within : zone.Within world) (stands : world.disk.isDirectory (zone.root.join aside))
    (kind : ChannelKind) (name : String) :
    zone.Within (context.channel.exportAsset kind name (zone.root.join aside) world).2 ∧
      TouchesBelow context.staging (fun _ => False) world.disk
        (context.channel.exportAsset kind name (zone.root.join aside) world).2.disk := by
  have encloses : zone.Encloses 1 (zone.root.join aside) := zone.encloses_root.joinEntry entry
  have withinAfter :=
    Zone.keeps_exportAsset noting.inside.channel kind name encloses within stands
  refine ⟨withinAfter, noting.touches_aside different within.disk withinAfter.disk ?_⟩
  intro location outside
  apply noting.inside.channel.outside kind name _ world stands
  rw [place_join _ _ entry, place_congr within.disk.current]
  exact outside

end Context.Noting

/-! ## What was delivered -/

theorem notBlank_shelfOf (context : Context ρ) (kind : AssetKind) :
    (context.shelfOf kind).pieces ≠ [""] :=
  pieces_join_ne_blank _ kind.isEntry_directory

/-- What may lie at a place in a staging directory: the directories of the kinds that are asked for,
what was delivered of them, and what lies beside it. -/
inductive Stocked (asked : AssetKind → Bool) (deliveries : List Delivery) : Location → Node → Prop
  | root (node : Node) : Stocked asked deliveries [] node
  | directory {kind : AssetKind} (isAsked : asked kind = true) :
      Stocked asked deliveries [kind.directory] .directory
  | beside {kind : AssetKind} {place : Location} (isAsked : asked kind = true)
      (isBeside : kind.IsBeside place) (node : Node) :
      Stocked asked deliveries (kind.directory :: place) node
  | part {delivery : Delivery} {place : Location} (isAsked : asked delivery.kind = true)
      (member : delivery ∈ deliveries) (hasPart : delivery.kind.HasPart delivery.name place)
      (node : Node) : Stocked asked deliveries (delivery.kind.directory :: place) node

theorem Stocked.mono {asked : AssetKind → Bool} {deliveries more : List Delivery} {place : Location}
    {node : Node} (stocked : Stocked asked deliveries place node) (sub : deliveries ⊆ more) :
    Stocked asked more place node := by
  cases stocked with
  | root => exact .root _
  | directory isAsked => exact .directory isAsked
  | beside isAsked isBeside => exact .beside isAsked isBeside _
  | part isAsked member hasPart => exact .part isAsked (sub member) hasPart _

/-- The staging directory has a stock of what was delivered. -/
structure Context.Stock (context : Context ρ) (asked : AssetKind → Bool) (past : List Delivery)
    (disk : Disk) : Prop where
  plain : ∀ delivery ∈ past, IsPlain delivery.name
  only : ∀ place node, disk.get? (disk.place context.staging ++ place) = some node →
    Stocked asked past place node
  stands : ∀ delivery ∈ past, ∃ node,
    disk.node? ((context.shelfOf delivery.kind).join (delivery.kind.entry delivery.name)) =
        some node ∧ node.isFile = decide (delivery.kind ≠ .report)
  held : ∀ kind name content, Delivery.assets past kind name = some content →
    disk.readFile (kind.shelving.file (context.shelfOf kind) name) = .ok content

namespace Context.Stock

variable {asked : AssetKind → Bool} {past : List Delivery} {delivery : Delivery}
  {before after : Disk} {touched : Location → Prop}

theorem empty (asked : AssetKind → Bool)
    (free : ∀ place, place ≠ [] → disk.get? (disk.place context.staging ++ place) = none) :
    context.Stock asked [] disk := by
  refine ⟨by simp, ?_, by simp, by simp [assets]⟩
  intro place node found
  by_cases root : place = []
  · rw [root]
    exact .root _
  · rw [free place root] at found
    cases found

theorem isDirectory_shelf (stock : context.Stock asked past before) (member : delivery ∈ past) :
    before.isDirectory (context.shelfOf delivery.kind) := by
  obtain ⟨node, found, -⟩ := stock.stands delivery member
  exact isDirectory_of_node?_join (delivery.kind.isEntry_entry (stock.plain delivery member))
    (notBlank_shelfOf context delivery.kind) found

section

variable (notBlank : context.staging.pieces ≠ [""]) (stock : context.Stock asked past before)
  (touches : TouchesBelow context.staging touched before after)

include notBlank stock touches

theorem node?_kept (member : delivery ∈ past)
    (free : ∀ place, delivery.kind.HasPart delivery.name place →
      ¬ touched (delivery.kind.directory :: place))
    {names : List String} (proper : ∀ name ∈ names, IsEntry name)
    (parts : delivery.kind ≠ .report → names = []) :
    after.node?
        (((context.shelfOf delivery.kind).join (delivery.kind.entry delivery.name)).extend names) =
      before.node?
        (((context.shelfOf delivery.kind).join (delivery.kind.entry delivery.name)).extend names) := by
  have directory := delivery.kind.isEntry_directory
  have shelf := stock.isDirectory_shelf member
  have staging : before.isDirectory context.staging :=
    isDirectory_of_node?_join directory notBlank (isDirectory_iff_node?.1 shelf)
  have entries : ∀ one ∈ delivery.kind.directory :: delivery.kind.entry delivery.name :: names,
      IsEntry one := by
    simpa using ⟨directory, delivery.kind.isEntry_entry (stock.plain delivery member), proper⟩
  apply touches.node?_extend staging entries
  intro beginning notEmpty isPrefix
  rcases prefix_cons_iff.1 isPrefix with rfl | ⟨place, rfl, early⟩
  · exact absurd rfl notEmpty
  · rcases prefix_cons_iff.1 early with rfl | ⟨rest, rfl, last⟩
    · right
      rw [← place_join before context.staging directory]
      exact (isDirectory_iff.1 shelf).2.2
    · left
      apply free
      by_cases report : delivery.kind = .report
      · rw [AssetKind.HasPart, if_pos report]
        exact (prefix_append _ rest)
      · rw [parts report, prefix_nil] at last
        rw [last]
        exact delivery.kind.hasPart_entry delivery.name

theorem stands_kept (member : delivery ∈ past)
    (free : ∀ place, delivery.kind.HasPart delivery.name place →
      ¬ touched (delivery.kind.directory :: place)) :
    ∃ node, after.node? ((context.shelfOf delivery.kind).join
        (delivery.kind.entry delivery.name)) = some node ∧
      node.isFile = decide (delivery.kind ≠ .report) := by
  obtain ⟨node, found, sort⟩ := stock.stands delivery member
  refine ⟨node, ?_, sort⟩
  rw [← found]
  have none : ∀ one ∈ ([] : List String), IsEntry one := by simp
  exact stock.node?_kept notBlank touches member free none fun _ => rfl

theorem held_kept {content : Bytes} (holds : assets past kind name = some content)
    (free : ∀ place, kind.HasPart name place → ¬ touched (kind.directory :: place)) :
    after.readFile (kind.shelving.file (context.shelfOf kind) name) = .ok content := by
  have held := readFile_eq_ok_iff.1 (stock.held kind name content holds)
  obtain ⟨delivery, member, rfl, rfl, -⟩ := mem_of_assets holds
  rw [readFile_eq_ok_iff, ← held]
  exact stock.node?_kept notBlank touches member free delivery.kind.shelving.proper
    AssetKind.inner_eq_nil

theorem of_touches (free : ∀ delivery ∈ past, ∀ place, delivery.kind.HasPart delivery.name place →
      ¬ touched (delivery.kind.directory :: place)) (new : ∀ place node, touched place →
      after.get? (before.place context.staging ++ place) = some node →
        Stocked asked past place node) : context.Stock asked past after := by
  refine ⟨stock.plain, ?_, ?_, ?_⟩
  · intro place node found
    rw [place_congr touches.current] at found
    by_cases is : touched place
    · exact new place node is found
    · rw [touches.elsewhere place is] at found
      exact stock.only place node found
  · exact fun delivery member => stock.stands_kept notBlank touches member (free delivery member)
  · intro kind name content holds
    obtain ⟨delivery, member, rfl, rfl, -⟩ := mem_of_assets holds
    exact stock.held_kept notBlank touches holds (free delivery member)

end

end Context.Stock

/-- A delivery came to its place in the staging directory. -/
structure Context.Puts (context : Context ρ) (delivery : Delivery) (before after : Disk) : Prop where
  touches : TouchesBelow context.staging (fun place => ∃ rest,
      (delivery.kind.HasPart delivery.name rest ∨ delivery.kind.IsText rest) ∧
        place = delivery.kind.directory :: rest) before after
  stands : ∃ node, after.node? ((context.shelfOf delivery.kind).join
      (delivery.kind.entry delivery.name)) = some node ∧
    node.isFile = decide (delivery.kind ≠ .report)
  held : ∀ content, delivery.content? = some content →
    after.readFile (delivery.kind.shelving.file (context.shelfOf delivery.kind) delivery.name) =
      .ok content

section

variable {asked : AssetKind → Bool} {past : List Delivery} {delivery : Delivery}
  {before between after : Disk}

theorem Context.Puts.of_before
    (opens : TouchesBelow context.staging (fun _ => False) before between)
    (puts : context.Puts delivery between after) : context.Puts delivery before after :=
  ⟨(opens.mono fun _ => False.elim).trans puts.touches, puts.stands, puts.held⟩

/-- A delivery that came to its place adds to the stock. -/
theorem Context.Puts.stock (puts : context.Puts delivery before after)
    (notBlank : context.staging.pieces ≠ [""]) (isAsked : asked delivery.kind)
    (plain : IsPlain delivery.name) (stock : context.Stock asked past before) :
    context.Stock asked (past ++ [delivery]) after := by
  have free : ∀ other ∈ past, other.key ≠ delivery.key → ∀ place,
      other.kind.HasPart other.name place →
        ¬ ∃ rest, (delivery.kind.HasPart delivery.name rest ∨ delivery.kind.IsText rest) ∧
          other.kind.directory :: place = delivery.kind.directory :: rest := by
    rintro other - different place part ⟨rest, which, same⟩
    obtain ⟨sameDirectory, rfl⟩ := List.cons.inj same
    have sameKind := AssetKind.directory_injective sameDirectory
    rw [← sameKind] at which
    rcases which with otherPart | text
    · exact different (Prod.ext sameKind (part.name_eq otherPart))
    · exact part.notText text
  refine ⟨?_, ?_, ?_, ?_⟩
  · intro other member
    rcases mem_append.1 member with early | last
    · exact stock.plain other early
    · rwa [mem_singleton.1 last]
  · intro place node found
    rw [place_congr puts.touches.current] at found
    by_cases is : ∃ rest, (delivery.kind.HasPart delivery.name rest ∨ delivery.kind.IsText rest) ∧
        place = delivery.kind.directory :: rest
    · obtain ⟨rest, part | text, rfl⟩ := is
      · exact .part isAsked (by simp) part node
      · exact .beside isAsked (Or.inl text) node
    · rw [puts.touches.elsewhere place is] at found
      exact (stock.only place node found).mono (subset_append_left _ _)
  · intro other member
    by_cases same : other.key = delivery.key
    · obtain ⟨sameKind, sameName⟩ := Prod.mk.inj same
      rw [sameKind, sameName]
      exact puts.stands
    · rcases mem_append.1 member with early | last
      · exact stock.stands_kept notBlank puts.touches early (free other early same)
      · exact absurd (congrArg key (mem_singleton.1 last)) same
  · intro kind name content holds
    by_cases same : (kind, name) = delivery.key
    · obtain ⟨rfl, rfl⟩ := Prod.mk.inj same
      rw [assets_append, Function.update_self] at holds
      exact puts.held content holds
    · have earlier : assets past kind name = some content := by
        rw [← holds]
        by_cases sameKind : delivery.kind = kind
        · subst sameKind
          rw [assets_append, Function.update_of_ne]
          rintro rfl
          exact same rfl
        · rw [assets_append_of_ne past sameKind]
      refine stock.held_kept notBlank puts.touches earlier ?_
      obtain ⟨other, member, rfl, rfl, -⟩ := mem_of_assets earlier
      exact free other member same

end

/-! ## Files that are written -/

section

variable {asked : AssetKind → Bool} {kind : AssetKind} {past : List Delivery}
  {before after : Disk} {entry : String} {content : Bytes}

theorem Context.Stock.get?_draft (stock : context.Stock asked past before)
    (notReport : kind ≠ .report) (notConfig : kind ≠ .metricConfig) (text : String) :
    before.get? (before.place context.staging ++ [kind.directory, text ++ ".tmp"]) = none := by
  obtain ⟨notBeside, noPart⟩ := AssetKind.draft_free notReport notConfig text
  cases found : before.get? (before.place context.staging ++ [kind.directory, text ++ ".tmp"]) with
  | none => rfl
  | some node =>
    have stocked := stock.only _ node found
    generalize same : [kind.directory, text ++ ".tmp"] = place at stocked
    cases stocked with
    | root => cases same
    | directory => simp at same
    | beside isAsked isBeside =>
      obtain ⟨sameDirectory, rfl⟩ := List.cons.inj same
      rw [← AssetKind.directory_injective sameDirectory] at isBeside
      exact absurd isBeside notBeside
    | part isAsked member hasPart =>
      obtain ⟨sameDirectory, rfl⟩ := List.cons.inj same
      rw [← AssetKind.directory_injective sameDirectory] at hasPart
      exact absurd hasPart (noPart _)

theorem place_shelfOf (context : Context ρ) (kind : AssetKind) (disk : Disk) :
    disk.place (context.shelfOf kind) = disk.place context.staging ++ [kind.directory] :=
  place_join _ _ kind.isEntry_directory

theorem Context.Stock.touches_replaced (stock : context.Stock asked past before)
    (notReport : kind ≠ .report) (notConfig : kind ≠ .metricConfig)
    (replaced : Replaced (context.shelfOf kind) entry content before after) :
    TouchesBelow context.staging (· = [kind.directory, entry]) before after := by
  have touches := replaced.touches
  have gone := replaced.draft
  simp only [place_shelfOf, append_assoc, singleton_append] at touches gone
  refine ⟨touches.current, touches.isDirectory, ?_, fun _ => touches.directories _⟩
  intro place other
  by_cases draft : place = [kind.directory, entry ++ ".tmp"]
  · rw [draft, gone, stock.get?_draft notReport notConfig]
  · apply touches.elsewhere
    rw [append_cancel_left_eq, append_cancel_left_eq, not_or]
    exact ⟨other, draft⟩

theorem Context.Stock.puts_replaced (stock : context.Stock asked past before)
    (queried : kind.isQueried)
    (replaced : Replaced (context.shelfOf kind) (kind.entry name) content before after) :
    context.Puts ⟨kind, name, some content⟩ before after := by
  obtain ⟨notReport, notConfig, -, whole⟩ := AssetKind.sort_of_isQueried queried
  refine ⟨(stock.touches_replaced notReport notConfig replaced).mono ?_,
    ⟨_, replaced.found, by simp [Node.isFile, notReport]⟩, ?_⟩
  · rintro place rfl
    exact ⟨_, Or.inl (kind.hasPart_entry name), rfl⟩
  · intro other holds
    obtain rfl : content = other := Option.some.inj ((whole content).symm.trans holds)
    have here : kind.shelving.file (context.shelfOf kind) name =
        (context.shelfOf kind).join (kind.entry name) := by
      rw [Shelving.file, show kind.shelving.inner = [] from AssetKind.inner_eq_nil notReport]
      rfl
    rw [readFile_eq_ok_iff, here]
    exact replaced.found

theorem Context.Stock.of_sidecar (notBlank : context.staging.pieces ≠ [""])
    (stock : context.Stock asked past before) (isAsked : asked kind)
    (sidecar : kind.sidecar = some entry)
    (noPart : ∀ delivery ∈ past, delivery.kind = kind → kind.entry delivery.name ≠ entry)
    (replaced : Replaced (context.shelfOf kind) entry content before after) :
    context.Stock asked past after := by
  have sorts : kind ≠ .report ∧ kind ≠ .metricConfig := by
    constructor
    all_goals
      rintro rfl
      cases sidecar
  refine stock.of_touches notBlank (stock.touches_replaced sorts.1 sorts.2 replaced) ?_ ?_
  · intro delivery member place part same
    obtain ⟨sameDirectory, rfl⟩ := List.cons.inj same
    have sameKind := AssetKind.directory_injective sameDirectory
    obtain ⟨rest, isEntry⟩ := part.head
    rw [sameKind] at isEntry
    exact noPart delivery member sameKind (List.cons.inj isEntry).1.symm
  · rintro place node rfl -
    exact .beside isAsked (Or.inr ⟨entry, sidecar, rfl⟩) node

end

end Export

end OpsContent
