import OpsContent.Proofs.AssetLayouts

/-!
# Staged assets

The channel leaves an asset as a file in a scratch directory, and staging puts its content into the
directory of its kind.  Besides the asset itself, staging touches the scratch directory and the
texts.
-/

namespace OpsContent

open OpsContent.Path Disk

variable {ρ : Type} {depth : Nat}

theorem eq_ok_of_toOption {ε α : Type} {outcome : Except ε α} {value : α}
    (holds : outcome.toOption = some value) : outcome = .ok value := by
  cases outcome with
  | error cause => cases holds
  | ok _ =>
    cases holds
    rfl

/-- A delivered asset was staged: it stands in the directory of its kind, and little else was
touched. -/
structure Staged (delivery : Delivery) (scratch directory : Path) (before after : World ρ) :
    Prop where
  touches : Touches (fun location => isBelow (before.disk.place scratch) location = true ∨
      ∃ place, (delivery.kind.HasPart delivery.name place ∨ delivery.kind.IsText place) ∧
        location = before.disk.place directory ++ place) before.disk after.disk
  stands : ∃ node, after.disk.node? (directory.join (delivery.kind.entry delivery.name)) = some node ∧
    node.isFile = decide (delivery.kind ≠ .report)
  held : ∀ content, delivery.content? = some content →
    after.disk.readFile (delivery.kind.shelving.file directory delivery.name) = .ok content

/-- The place where an asset is staged: a scratch directory in a zone, and a directory of its kind
elsewhere in it. -/
structure StagingPlace (zone : Zone) (aside : String) (directory : Path) (world : World ρ) :
    Prop where
  within : zone.Within world
  entry : IsEntry aside
  toDirectory : zone.Encloses 2 directory
  stands : world.disk.isDirectory directory = true
  apart : Apart (world.disk.place (zone.root.join aside)) (world.disk.place directory)

theorem Zone.Holds.namedBelow {zone : Zone} {disk : Disk} (holds : zone.Holds disk) {path : Path}
    (encloses : zone.Encloses depth path) : disk.NamedBelow (disk.place path) := by
  obtain ⟨more, -, -, reached⟩ := encloses.reached holds.current
  intro rest stands
  rw [reached, List.append_assoc] at stands
  exact fun name member => holds.entries _ stands name (by simp [member])

namespace StagingPlace

variable {zone : Zone} {aside : String} {directory : Path} {kind : AssetKind} {name : String}
  {file : Option Bytes} {content : Bytes} {world moved after : World ρ} {bytes : Bytes}
  {resources : Path}

theorem mergeResources_touches (within : zone.Within world) (reads : zone.Encloses depth resources)
    (stands : world.disk.isDirectory directory) :
    Touches (fun location => isBelow (world.disk.place directory ++ ["resources"]) location)
      world.disk (Staging.mergeResources resources (directory.join "resources") world).2.disk :=
  Staging.touches_mergeResources stands Zone.isEntry_resources
    fun _ listed => within.disk.isEntry_of_listed reads listed

variable (place : StagingPlace zone aside directory world)

include place

theorem fromScratch : zone.Encloses 1 (zone.root.join aside) :=
  zone.encloses_root.joinEntry place.entry

/-- A file in the directory of its kind stays when the scratch directory and the texts are
touched. -/
theorem staged_of_moved (plain : IsPlain name) (isFile : kind ≠ .report)
    (holds : (⟨kind, name, file⟩ : Delivery).content? = some content)
    (first : Touches (fun location =>
      isBelow (world.disk.place (zone.root.join aside)) location ∨
      location = world.disk.place directory ++ [kind.entry name]) world.disk moved.disk)
    (read : moved.disk.readFile (directory.join (kind.entry name)) = .ok content)
    (second : Touches (fun location =>
      isBelow (world.disk.place (zone.root.join aside)) location ∨
      kind.hasTexts ∧
      isBelow (world.disk.place directory ++ ["resources"]) location)
      moved.disk after.disk) :
    Staged ⟨kind, name, file⟩ (zone.root.join aside) directory world after := by
  have entry := kind.isEntry_entry plain
  have found := readFile_eq_ok_iff.1 read
  have kept : after.disk.node? (directory.join (kind.entry name)) = some (.file content) := by
    rw [← found]
    apply second.node?_join (first.isDirectory place.stands) entry
    rw [place_congr first.current]
    rintro (below | ⟨texts, below⟩)
    · rw [place.apart.isBelow] at below
      cases below
    · rw [notBelow_of_ne (AssetKind.entry_ne_texts texts name)] at below
      cases below
  refine ⟨(first.mono ?_).trans (second.mono ?_), ⟨_, kept, ?_⟩, ?_⟩
  · rintro location (below | rfl)
    · exact .inl below
    · exact .inr ⟨_, Or.inl (kind.hasPart_entry name), rfl⟩
  · rintro location (below | ⟨texts, below⟩)
    · exact .inl below
    · obtain ⟨rest, rfl⟩ := isBelow_iff.1 below
      exact .inr ⟨"resources" :: rest, Or.inr ⟨texts, by simp⟩, by simp⟩
  · simp [Node.isFile, isFile]
  · intro other isOther
    rw [holds] at isOther
    cases isOther
    have noInner : kind.shelving.inner = [] := AssetKind.inner_eq_nil isFile
    rw [readFile_eq_ok_iff, Shelving.file, noInner, extend_nil]
    exact kept

theorem isDirectory_scratch {entry : String} (isEntry : IsEntry entry)
    (delivered : world.disk.readFile ((zone.root.join aside).join entry) = .ok bytes) :
    world.disk.isDirectory (zone.root.join aside) :=
  isDirectory_of_node?_join isEntry place.fromScratch.pieces_ne_blank
    (readFile_eq_ok_iff.1 delivered)

theorem of_touches {touched : Location → Prop} (within : zone.Within after)
    (touches : Touches touched world.disk after.disk) :
    StagingPlace zone aside directory after := by
  refine ⟨within, place.entry, place.toDirectory, touches.isDirectory place.stands, ?_⟩
  rw [place_congr touches.current, place_congr touches.current]
  exact place.apart

theorem move_ok {source : Path} {rest : Location} (plain : IsPlain name)
    (leaves : zone.Encloses 1 source)
    (reached : world.disk.place source = world.disk.place (zone.root.join aside) ++ rest)
    (stored : world.disk.get? (world.disk.place source) = some (.file content))
    (done : Export.move source (directory.join (kind.entry name)) world = (.ok (), moved)) :
    zone.Within moved ∧
      Touches (fun location =>
        isBelow (world.disk.place (zone.root.join aside)) location ∨
          location = world.disk.place directory ++ [kind.entry name]) world.disk moved.disk ∧
      moved.disk.readFile (directory.join (kind.entry name)) = .ok content := by
  have target : zone.Encloses 1 (directory.join (kind.entry name)) :=
    (place.toDirectory.joinEntry (kind.isEntry_entry plain)).mono (by decide)
  have within := Zone.keeps_move leaves target world place.within
  rw [done] at within
  obtain ⟨moving, -⟩ := Zone.files_ok done
  have apart : world.disk.place source ≠ world.disk.place directory ++ [kind.entry name] := by
    intro same
    have below := place.apart.isBelow [kind.entry name]
    rw [← same, reached, isBelow_append] at below
    cases below
  obtain ⟨touches, read⟩ := moveFile_ok place.stands (kind.isEntry_entry plain) stored apart moving
  refine ⟨within, touches.mono ?_, read⟩
  rintro location (rfl | here)
  · rw [reached]
    exact .inl (isBelow_append _ _)
  · exact .inr here

variable (plain : IsPlain name)

include plain

/-- A view or a dashboard: its archive is unpacked, and its content moves to the directory. -/
theorem stageUnpacked_ok {inside ending entry : String} {folder : Path} (notReport : kind ≠ .report)
    (texts : kind.hasTexts) (isNamed : kind.entry name = name ++ ending)
    (isContent : ∀ bytes, kind.content? bytes = Zip.file? bytes inside)
    (inFolder : zone.Encloses depth folder) (isEntry : IsEntry entry)
    (reached : ∀ disk : Disk,
      disk.place (folder.join entry) = disk.place (zone.root.join aside) ++ Zip.leadsTo inside)
    (delivered : (world.disk.readFile ((zone.root.join aside).join (name ++ ".zip"))).toOption = file)
    (holds : (⟨kind, name, file⟩ : Delivery).content? = some content)
    (done : Export.stageUnpacked name ending entry folder (zone.root.join aside) directory world =
      (.ok (), after)) :
    Staged ⟨kind, name, file⟩ (zone.root.join aside) directory world after := by
  have zipEntry : IsEntry (name ++ ".zip") :=
    isEntry_append plain.isEntry.noSlash (by decide) (by decide)
  obtain ⟨bytes, isBytes, isFile⟩ := Option.bind_eq_some_iff.1 holds
  dsimp only at isBytes isFile
  rw [isContent] at isFile
  have read := eq_ok_of_toOption (delivered.trans isBytes)
  have standsScratch := place.isDirectory_scratch zipEntry read
  have archive : zone.Encloses 0 ((zone.root.join aside).join (name ++ ".zip")) :=
    (place.fromScratch.joinEntry zipEntry).mono (by decide)
  rw [Export.stageUnpacked, ← isNamed] at done
  obtain ⟨_, unpacked, extracting, done⟩ := exceptBind_ok done
  obtain ⟨_, moved, moving, done⟩ := exceptBind_ok done
  obtain ⟨_, discarded, discarding, done⟩ := exceptBind_ok done
  have merging := always_ok done
  -- the archive is unpacked
  have within₁ := Zone.keeps_extractArchive ((zone.root.join aside).join (name ++ ".zip"))
    (place.fromScratch.mono (by decide)) world place.within
  rw [extracting] at within₁
  obtain ⟨-, _, _, made, readAgain, unpacks⟩ := Staging.extractArchive_ok extracting
  rw [makeDirectories_of_isDirectory standsScratch] at made
  cases made
  rw [read] at readAgain
  cases readAgain
  have unpacks := unpacks standsScratch
  have touches₁ := unpacks.touches
  have stored : unpacked.disk.get? (unpacked.disk.place (folder.join entry)) =
      some (.file content) := by
    rw [place_congr touches₁.current, reached]
    exact unpacks.files _ _ isFile
  -- its content moves
  obtain ⟨within₂, touches₂, readMoved⟩ :=
    (place.of_touches within₁ touches₁).move_ok plain ((inFolder.joinEntry isEntry).mono (by simp))
      (reached _) stored moving
  rw [place_congr touches₁.current, place_congr touches₁.current] at touches₂
  have first := (touches₁.mono fun _ => .inl).trans touches₂
  -- the archive is removed, and texts are merged
  have within₃ := Zone.keeps_discard archive moved within₂
  rw [discarding] at within₃
  obtain ⟨discarding, -⟩ := Zone.files_ok discarding
  have touches₃ := touches_removeFile (attempt_ok discarding)
  rw [place_congr first.current, place_join _ _ zipEntry] at touches₃
  have touches₄ := mergeResources_touches within₃ (inFolder.joinEntry Zone.isEntry_resources)
    (touches₃.isDirectory (first.isDirectory place.stands))
  rw [merging, place_congr touches₃.current, place_congr first.current] at touches₄
  refine place.staged_of_moved plain notReport holds first readMoved ?_
  apply (touches₃.mono _).trans (touches₄.mono _)
  · rintro location rfl
    exact .inl (isBelow_append _ _)
  · exact fun location below => .inr ⟨texts, below⟩

theorem stageView_ok
    (delivered : (world.disk.readFile ((zone.root.join aside).join (name ++ ".zip"))).toOption = file)
    (regular : (⟨.view, name, file⟩ : Delivery).Regular)
    (done : Export.stageView name (zone.root.join aside) directory world = (.ok (), after)) :
    Staged ⟨.view, name, file⟩ (zone.root.join aside) directory world after := by
  have entry : IsEntry "content.xml" := by decide
  obtain ⟨content, holds⟩ := Option.isSome_iff_exists.1 regular
  refine place.stageUnpacked_ok plain (by decide) rfl rfl (fun _ => rfl) place.fromScratch entry
    (fun disk => ?_) delivered holds done
  rw [place_join _ _ entry]
  rfl

theorem stageDashboard_ok
    (delivered : (world.disk.readFile ((zone.root.join aside).join (name ++ ".zip"))).toOption = file)
    (regular : (⟨.dashboard, name, file⟩ : Delivery).Regular)
    (done : Export.stageDashboard name (zone.root.join aside) directory world = (.ok (), after)) :
    Staged ⟨.dashboard, name, file⟩ (zone.root.join aside) directory world after := by
  have folder : IsEntry "dashboard" := by decide
  have entry : IsEntry "dashboard.json" := by decide
  obtain ⟨content, holds⟩ := Option.isSome_iff_exists.1 regular
  refine place.stageUnpacked_ok plain (by decide) rfl rfl (fun _ => rfl)
    (place.fromScratch.joinEntry folder) entry (fun disk => ?_) delivered holds done
  rw [place_join _ _ entry, place_join _ _ folder, List.append_assoc]
  rfl

theorem stageSuperMetric_ok
    (delivered : (world.disk.readFile ((zone.root.join aside).join (name ++ ".json"))).toOption = file)
    (regular : (⟨.superMetric, name, file⟩ : Delivery).Regular)
    (done : Export.stageSuperMetric name (zone.root.join aside) directory world = (.ok (), after)) :
    Staged ⟨.superMetric, name, file⟩ (zone.root.join aside) directory world after := by
  have entry : IsEntry (name ++ ".json") :=
    isEntry_append plain.isEntry.noSlash (by decide) (by decide)
  obtain ⟨content, holds⟩ := Option.isSome_iff_exists.1 regular
  obtain ⟨bytes, isBytes, same⟩ := Option.bind_eq_some_iff.1 holds
  cases same
  have read := eq_ok_of_toOption (delivered.trans isBytes)
  unfold Export.stageSuperMetric at done
  obtain ⟨_, moved, moving, done⟩ := exceptBind_ok done
  have merging := always_ok done
  obtain ⟨within, first, readMoved⟩ := @move_ok ρ zone aside directory .superMetric name
    content world moved place _ _ plain ((place.fromScratch.joinEntry entry).mono (by decide))
    (place_join _ _ entry) (get?_of_node? (readFile_eq_ok_iff.1 read)) moving
  have second := mergeResources_touches within
    (place.fromScratch.joinEntry Zone.isEntry_resources) (first.isDirectory place.stands)
  rw [merging, place_congr first.current] at second
  refine place.staged_of_moved plain (by decide) holds first readMoved (second.mono ?_)
  exact fun location below => .inr ⟨rfl, below⟩

theorem moveMetricConfig_ok
    (delivered : world.disk.readFile ((zone.root.join aside).join name) = .ok bytes)
    (done : Export.move ((zone.root.join aside).join name) (directory.join name) world =
      (.ok (), after)) :
    Staged ⟨.metricConfig, name, some bytes⟩ (zone.root.join aside) directory world after := by
  obtain ⟨-, first, read⟩ := @move_ok ρ zone aside directory .metricConfig name bytes world after
    place _ _ plain ((place.fromScratch.joinEntry plain.isEntry).mono (by decide))
    (place_join _ _ plain.isEntry) (get?_of_node? (readFile_eq_ok_iff.1 delivered)) done
  exact place.staged_of_moved plain (by decide) rfl first read (.refl _ _)

omit plain in
/-- Making a directory in the scratch directory touches nothing else, even if the scratch directory
itself has to be made again. -/
theorem touches_makeDirectories_scratch (entry : IsEntry name) {made : Disk}
    (making : makeDirectories ((zone.root.join aside).join name) world.disk = (.ok (), made)) :
    Touches (fun location =>
      isBelow (world.disk.place (zone.root.join aside)) location) world.disk made := by
  apply (opensOnly_made making).touches.mono
  rintro location ⟨onWay, free⟩
  rcases onWay_join entry onWay with rfl | above
  · rw [place_join _ _ entry]
    exact isBelow_append _ _
  · rcases onWay_join place.entry above with rfl | higher
    · exact isBelow_iff.2 (List.prefix_refl _)
    · rw [directory_of_onWay place.within.disk.isDirectory_root higher] at free
      cases free

/-- A report: its archive is unpacked, and everything in it is copied. -/
theorem stageReport_ok
    (delivered : (world.disk.readFile ((zone.root.join aside).join (name ++ ".zip"))).toOption = file)
    (done : Export.stageReport name (zone.root.join aside) directory world = (.ok (), after)) :
    Staged ⟨.report, name, file⟩ (zone.root.join aside) directory world after := by
  have entry := plain.isEntry
  have zipEntry : IsEntry (name ++ ".zip") :=
    isEntry_append plain.isEntry.noSlash (by decide) (by decide)
  have inner : IsEntry "content.xml" := by decide
  have source := place.fromScratch.joinEntry entry
  unfold Export.stageReport at done
  obtain ⟨_, unpacked, extracting, copying⟩ := exceptBind_ok done
  have within₁ := Zone.keeps_extractArchive ((zone.root.join aside).join (name ++ ".zip"))
    (source.mono (by decide)) world place.within
  rw [extracting] at within₁
  -- the archive is unpacked into a directory of its own
  obtain ⟨-, made, bytes, making, read, unpacks⟩ := Staging.extractArchive_ok extracting
  have opens := place.touches_makeDirectories_scratch entry making
  have standsMade := isDirectory_of_makeDirectories making (pieces_join_ne_blank _ entry)
  have unpacks := unpacks standsMade
  have first := opens.trans (unpacks.touches.mono fun location below => by
    rw [place_join _ _ entry, place_congr opens.current] at below
    exact isBelow_iff.2 ((List.prefix_append _ _).trans (isBelow_iff.1 below)))
  have placed := place.of_touches within₁ first
  have samePlace := fun path => place_congr first.current path
  have standsSource := unpacks.touches.isDirectory standsMade
  -- everything in it is copied
  obtain ⟨copying, -⟩ := Zone.files_ok copying
  obtain ⟨opened, making₂, copies⟩ := copied_of_copyTree copying
  obtain ⟨opens₂, standsOpened, -⟩ := makeDirectories_join_ok entry placed.stands making₂
  have holdsOpened := Zone.keeps_makeDirectories (placed.toDirectory.joinEntry entry) unpacked.disk
    within₁.disk
  rw [making₂] at holdsOpened
  have copied : Copied ((zone.root.join aside).join name) (directory.join name) opened
      after.disk := by
    refine copies (.of_apart (opens₂.isDirectory standsSource) standsOpened ?_
      (holdsOpened.namedBelow source))
    rw [place_join _ _ entry, place_join _ _ entry, place_congr opens₂.current,
      place_congr opens₂.current]
    exact placed.apart.append _ _
  refine ⟨?_, ⟨.directory, ?_, rfl⟩, ?_⟩
  · have touches := copied.touches
    rw [place_join _ _ entry, place_congr opens₂.current, samePlace] at touches
    rw [samePlace] at opens₂
    apply (first.mono _).trans ((opens₂.mono _).trans (touches.mono _))
    · exact fun location => .inl
    · rintro location rfl
      exact .inr ⟨_, Or.inl AssetKind.hasPart_of_report, rfl⟩
    · intro location below
      obtain ⟨rest, rfl⟩ := isBelow_iff.1 below
      exact .inr ⟨name :: rest, Or.inl AssetKind.hasPart_of_report, by simp⟩
  · exact copied.reached [] (by simp) _
      (isDirectory_iff_node?.1 (opens₂.isDirectory standsSource))
  · -- the archive that is read is the one that was delivered
    intro content holds
    obtain ⟨early, isEarly, isFile⟩ := Option.bind_eq_some_iff.1 holds
    have readEarly := eq_ok_of_toOption (delivered.trans isEarly)
    have standsScratch := place.isDirectory_scratch zipEntry readEarly
    have same : early = bytes := by
      have opensOne := (makeDirectories_join_ok entry standsScratch making).1
      rw [readFile_eq_ok_iff] at read readEarly
      rw [opensOne.node?_join standsScratch zipEntry (by simp), readEarly] at read
      cases read
      rfl
    subst same
    have found : unpacked.disk.node? (((zone.root.join aside).join name).join "content.xml") =
        some (.file content) := by
      rw [node?_join standsSource (unpacks.rooms _ _ isFile "content.xml" (by decide)),
        place_congr unpacks.touches.current]
      exact unpacks.files _ _ isFile
    have foundOpened : opened.node? (((zone.root.join aside).join name).join "content.xml") =
        some (.file content) := by
      rw [← found]
      apply opens₂.node?_join standsSource inner
      intro same
      have below := (placed.apart.append [name] []).isBelow [name]
      rw [List.append_nil, ← same, place_join _ _ entry, isBelow_append] at below
      cases below
    rw [readFile_eq_ok_iff]
    exact copied.reached ["content.xml"] (by simpa using inner) _ foundOpened

end StagingPlace

/-! ## Staging leaves the server alone -/

section

open Export Staging

variable {server : ρ} {name ending file : String} {folder scratch directory : Path}

theorem keepsRemote_stageUnpacked : Keeps (World.Has (· = server))
    (stageUnpacked name ending file folder scratch directory : Sync ρ Unit) := by
  refine .andThen (keepsRemote_extractArchive _ _) fun _ => ?_
  refine .andThen (keepsRemote_files _) fun _ => ?_
  refine .andThen (keepsRemote_files _) fun _ => ?_
  exact keepsRemote_mergeResources _ _

theorem keepsRemote_stageReport :
    Keeps (World.Has (· = server)) (stageReport name scratch directory : Sync ρ Unit) :=
  Keeps.andThen (keepsRemote_extractArchive _ _) fun _ => keepsRemote_files _

theorem keepsRemote_stageSuperMetric :
    Keeps (World.Has (· = server)) (stageSuperMetric name scratch directory : Sync ρ Unit) :=
  Keeps.andThen (keepsRemote_files _) fun _ => keepsRemote_mergeResources _ _

end

end OpsContent
