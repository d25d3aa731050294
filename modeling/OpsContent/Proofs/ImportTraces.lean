import OpsContent.Proofs.ImportCounts
import OpsContent.Proofs.QueuedArchives

/-!
# What an import leaves on the disk

An import unpacks its package, builds archives and removes their sources, all in a scratch
directory that is removed at the end.  Whatever the package holds, whatever the server answers and
wherever the import fails, all that can be left are directories on the way to the scratch
directory that were missing.
-/

namespace OpsContent

open OpsContent.Path Disk Staging List

variable {ρ : Type} {location : Location} {path directory : Path} {disk after before : Disk}

/-! ## Proper names -/

theorem Path.noSlash_join {name : String} (entry : IsEntry name)
    (noSlash : ∀ piece ∈ path.pieces, '/' ∉ piece.toList) :
    ∀ piece ∈ (path.join name).pieces, '/' ∉ piece.toList := by
  intro piece member
  rw [pieces_join_entry entry] at member
  rcases mem_append.1 member with early | last
  · exact noSlash piece ((stem_beginning path).subset early)
  · rw [mem_singleton.1 last]
    exact entry.noSlash

theorem Disk.OpensOnly.wellNamed {way : Location → Prop} (opens : OpensOnly way before after)
    (named : before.WellNamed) (proper : ∀ location, way location → ∀ name ∈ location, IsEntry name) :
    after.WellNamed := by
  intro location stands
  rcases opens.nodes location with same | ⟨onWay, -⟩
  · rw [same] at stands
    exact named location stands
  · exact proper location onWay

theorem Disk.isEntry_of_onWay (current : ∀ name ∈ disk.current, IsEntry name)
    (noSlash : ∀ piece ∈ path.pieces, '/' ∉ piece.toList) (onWay : disk.OnWay path location) :
    ∀ name ∈ location, IsEntry name := by
  obtain ⟨beginning, early, rfl⟩ := onWay
  intro name member
  rcases mem_follow member with started | ⟨passed, notIdle, notParent⟩
  · unfold Disk.start at started
    split at started
    · simp at started
    · exact current name started
  · simp only [isIdle, Bool.or_eq_false_iff, beq_eq_false_iff_ne] at notIdle
    exact ⟨notIdle.1, notIdle.2, notParent, noSlash name (early.subset passed)⟩

/-- A path does not pass below a directory. -/
def Disk.StaysOut (disk : Disk) (directory path : Path) : Prop :=
  ∀ rest, rest ≠ [] → ¬ disk.OnWay path (disk.place directory ++ rest)

theorem Disk.staysOut_iff :
    disk.StaysOut directory path ↔ ∀ beginning ∈ path.pieces.inits,
      isBelow (disk.place directory) (follow (disk.start path) beginning) →
        follow (disk.start path) beginning = disk.place directory := by
  have along : disk.StaysOut directory path ↔ ∀ location, disk.OnWay path location →
      isBelow (disk.place directory) location → location = disk.place directory := by
    constructor
    · intro staysOut location onWay below
      obtain ⟨rest, rfl⟩ := isBelow_iff.1 below
      by_cases here : rest = []
      · rw [here, append_nil]
      · exact absurd onWay (staysOut rest here)
    · intro ends rest inside onWay
      have back := ends _ onWay (isBelow_append _ _)
      exact inside (by simpa using back)
  exact along.trans forall_onWay_iff

theorem Disk.OpensOnly.get?_of_staysOut (opens : OpensOnly (before.OnWay path) before after)
    (staysOut : before.StaysOut directory path) {rest : Location} (inside : rest ≠ []) :
    after.get? (before.place directory ++ rest) = before.get? (before.place directory ++ rest) := by
  rcases opens.nodes (before.place directory ++ rest) with same | ⟨onWay, -⟩
  · exact same
  · exact absurd onWay (staysOut rest inside)

namespace Zone

variable {zone : Zone} {disk : Disk} {path source : Path}

theorem Holds.wellNamed (holds : zone.Holds disk) (named : zone.base.WellNamed) :
    disk.WellNamed := by
  intro location stands
  by_cases inside : zone.Contains location
  · obtain ⟨rest, -, rfl⟩ := inside
    have above : ∀ name ∈ zone.top, IsEntry name := by
      apply named
      rw [top, get?_of_node? (isDirectory_iff_node?.1 zone.stands)]
      rfl
    intro name member
    rcases mem_append.1 member with old | new
    · exact above name old
    · exact holds.entries rest stands name new
  · rw [holds.outside location inside] at stands
    exact named location stands

/-! ## Unpacking -/

theorem copyRules_of_wellNamed (named : zone.base.WellNamed) :
    CopyRules zone.Holds fun _ destination => True ∧ zone.Encloses 0 destination := by
  refine zone.writeRules.copyRules ?_
  intro source disk names _ holds listed name member
  exact ⟨holds.wellNamed named _ (isSome_of_mem_listNames listed member) name (by simp), trivial⟩

theorem keeps_unpack (named : zone.base.WellNamed) (package : Path) :
    Keeps zone.Within (unpack package zone.root : Sync ρ Unit) := by
  refine .andThen keeps_look fun disk => ?_
  split
  · exact keeps_files ((copyRules_of_wellNamed named).keeps_copyTree ⟨trivial, zone.encloses_root⟩)
  · split
    · exact keeps_extractArchive _ zone.encloses_root
    · exact .fail _

/-! ## Building archives -/

def HoldsOn (zone : Zone) (world : World ρ) : Prop :=
  zone.Holds world.disk

theorem keeps_writeArchive (encloses : zone.Encloses 0 path) (entries : List (String × Bytes)) :
    Keeps zone.HoldsOn (writeArchive path entries : Sync ρ Unit) := by
  have discarded (world : World ρ) (holds : zone.Holds world.disk) :
      zone.Holds (discardArchive path world).2.disk := by
    rcases discardArchive_disk path world with same | removed
    · rwa [same]
    · exact Holds.removeFile holds encloses removed
  intro world holds
  have written := written_writeArchive path entries world
  change zone.Holds (writeArchive path entries world).2.disk
  generalize writeArchive path entries world = result at written ⊢
  cases written with
  | unmade => exact discarded world holds
  | tooLarge lacks made => exact discarded _ (Holds.updateFile holds encloses made)
  | whole room made => exact Holds.updateFile holds encloses made

theorem keeps_removeSource (encloses : zone.Encloses 0 path) (what : String) :
    Keeps zone.HoldsOn (removeSource path what : StateM (World ρ) Unit) := by
  intro world holds
  rcases removeSource_disk path what world with same | removed
  · rw [HoldsOn, same]
    exact holds
  · exact Holds.removeFile holds encloses removed

theorem keeps_build {context : Import.Context ρ} (staged : context.staging = zone.root)
    (holds : zone.Holds disk) {kind : ChannelKind}
    (listed : source ∈ Import.sources context disk kind) :
    Keeps zone.HoldsOn (Import.build kind source : Sync ρ Path) := by
  rw [Import.sources_eq] at listed
  obtain ⟨name, member, rfl⟩ := mem_map.1 listed
  have named : disk.NamedBelow (disk.place context.staging) := by
    rw [staged, place_congr holds.current]
    exact holds.entries
  have entry := Import.isEntry_sourceNames named member
  have shelf : zone.Encloses 1 (context.directory kind.assetKind) := by
    rw [Import.Context.directory, staged]
    exact zone.encloses_root.joinEntry (AssetKind.isEntry_directory _)
  refine Import.keeps_build (fun entries => ?_) fun what => ?_
  · rw [Import.queuedFile_directory context kind entry]
    exact keeps_writeArchive
      ((shelf.joinEntry (Import.isEntry_queuedName kind entry)).mono (Nat.zero_le 2)) entries
  · exact keeps_removeSource ((shelf.joinEntry entry).mono (Nat.zero_le 2)) what

end Zone

/-! ## The import -/

theorem Import.keeps_importAll_of_build {context : Context ρ} {property : Disk → Prop}
    (built : ∀ disk kind, property disk → ∀ source ∈ sources context disk kind,
      Keeps (fun world : World ρ => property world.disk) (build kind source : Sync ρ Path)) :
    Keeps (fun world : World ρ => property world.disk) (importAll context) := by
  have ignores : IgnoresLog fun world : World ρ => property world.disk :=
    fun _ _ _ holds => holds
  have onSite : ∀ {α : Type} (step : StateM (Site ρ) α),
      Keeps (fun world : World ρ => property world.disk) (World.onSite step) :=
    fun _ _ holds => holds
  have frames := Channel.Frames.of_keeps (onSite context.channel.connect)
    (onSite context.channel.close)
  refine leads_importAll ?_ ?_ ?_ ?_ ?_ ?_ (fun _ holds => holds) fun _ holds => holds
  · exact keeps_enqueueKinds ignores (fun world kind holds source listed =>
      ⟨built world.disk kind holds source listed, fun disk => onSite _⟩) _ _
  · exact leads_submit ignores ignores (fun _ holds => holds) (fun _ => frames) (onSite _)
  · exact fun _ => keeps_pushDefinitions ignores fun _ _ _ => onSite _
  · exact keeps_pushPolicies ignores fun _ _ _ => onSite _
  · exact keeps_pushGroups ignores fun _ _ _ => onSite _
  · exact keeps_applySharing ignores ignores frames (fun _ => onSite _) (fun _ _ => onSite _)
      fun _ _ => onSite _

namespace Synchronizer

variable {synchronizer : Synchronizer ρ} {package : Package} {world : World ρ} {tag : String}

/-- The last piece of an import's directory name, without its tag. -/
def importName (package : Package) : String :=
  (ofText (importStem package)).pieces.getLastD ""

/-- The directory in which the scratch directory of a package is made, written with a slash at the
end.  It is the directory of all imports, unless the type of the package holds a slash: then what
stands before the last slash leads on from there. -/
def importHome (synchronizer : Synchronizer ρ) (package : Package) : Path :=
  let shared := synchronizer.scratch.join "vrops-import"
  { shared with
    pieces := shared.pieces ++ (ofText (importStem package)).pieces.dropLast ++ [""] }

theorem relative_importStem (package : Package) :
    (ofText (importStem package)).absolute = false := by
  have starts : (importStem package).toList =
      'i' :: ("mport-" ++ package.type ++ "-" ++ toString (package.id.getD 0)).toList := by
    simp [importStem]
  rw [ofText, starts]
  rfl

theorem noSlash_importName (package : Package) : '/' ∉ (importName package).toList := by
  rw [importName, getLastD_eq_getLast?]
  cases last : (ofText (importStem package)).pieces.getLast? with
  | none => simp
  | some piece => exact noSlash_of_mem_ofText (mem_of_getLast? last)

theorem isEntry_importName (package : Package) (fit : '/' ∉ tag.toList) :
    IsEntry (importName package ++ "-" ++ tag) := by
  have dash : '-' ∈ (importName package ++ "-" ++ tag).toList := by simp
  refine ⟨?_, ?_, ?_, ?_⟩
  · intro same
    simp [same] at dash
  · intro same
    simp [same] at dash
  · intro same
    simp [same] at dash
  · simp [noSlash_importName package, fit]

theorem eq_of_pieces {other : Path} (absolute : path.absolute = other.absolute)
    (pieces : path.pieces = other.pieces) : path = other := by
  cases path
  cases other
  cases absolute
  cases pieces
  rfl

theorem join_importStem (synchronizer : Synchronizer ρ) (package : Package) (fit : '/' ∉ tag.toList) :
    (synchronizer.scratch.join "vrops-import").join (importStem package ++ "-" ++ tag) =
      (synchronizer.importHome package).join (importName package ++ "-" ++ tag) := by
  have entry := isEntry_importName package fit
  have tagged : '/' ∉ ("-" ++ tag).toList := by simpa using fit
  have named := ofText_append_of_noSlash (relative_importStem package) tagged
  rw [← String.append_assoc, ← String.append_assoc] at named
  have relative : (ofText (importStem package ++ "-" ++ tag)).absolute = false := by rw [named]
  have shared : (synchronizer.scratch.join "vrops-import").EndsInName :=
    endsInName_join _ (by decide)
  have home : (synchronizer.importHome package).stem =
      (synchronizer.scratch.join "vrops-import").pieces ++
        (ofText (importStem package)).pieces.dropLast := by
    simp [stem, importHome]
  have sameStart : ((synchronizer.scratch.join "vrops-import").join
      (importStem package ++ "-" ++ tag)).absolute =
        ((synchronizer.importHome package).join (importName package ++ "-" ++ tag)).absolute := by
    rw [absolute_join relative, absolute_join_entry entry, importHome]
  have samePieces : ((synchronizer.scratch.join "vrops-import").join
      (importStem package ++ "-" ++ tag)).pieces =
        ((synchronizer.importHome package).join (importName package ++ "-" ++ tag)).pieces := by
    rw [pieces_join relative, pieces_join_entry entry, shared.stem, home, named, importName,
      append_assoc]
  exact eq_of_pieces sameStart samePieces

theorem withScratch_importHome {α : Type} {work : Path → Sync ρ α} (fit : world.site.TagsFit) :
    withScratch (synchronizer.scratch.join "vrops-import") (importStem package) work world =
      withScratch (synchronizer.importHome package) (importName package) work world := by
  rw [withScratch_apply, withScratch_apply, World.nextName, World.nextName,
    join_importStem synchronizer package (fit world.site.drawn)]

theorem onWay_importHome (onWay : disk.OnWay (synchronizer.scratch.join "vrops-import") location) :
    disk.OnWay (synchronizer.importHome package) location := by
  obtain ⟨beginning, early, rfl⟩ := onWay
  refine ⟨beginning, early.trans ?_, rfl⟩
  rw [importHome, append_assoc]
  exact prefix_append _ _

theorem noSlash_importStem (noSlash : '/' ∉ package.type.toList) :
    '/' ∉ (importStem package).toList := by
  have digits : '/' ∉ Nat.toDigits 10 (package.id.getD 0) := by
    intro member
    have isDigit := Nat.isDigit_of_mem_toDigits (by decide) (by decide) member
    revert isDigit
    decide
  simp [importStem, noSlash, digits]

theorem onWay_importHome_iff (noSlash : '/' ∉ package.type.toList) :
    disk.OnWay (synchronizer.importHome package) location ↔
      disk.OnWay (synchronizer.scratch.join "vrops-import") location := by
  refine ⟨?_, onWay_importHome⟩
  rintro ⟨beginning, early, rfl⟩
  have home : (synchronizer.importHome package).pieces =
      (synchronizer.scratch.join "vrops-import").pieces ++ [""] := by
    simp [importHome, ofText_of_noSlash (noSlash_importStem noSlash)]
  rw [home] at early
  rcases prefix_concat_iff.1 early with rfl | shorter
  · refine ⟨_, prefix_refl _, ?_⟩
    rw [follow_append]
    rfl
  · exact ⟨beginning, shorter, rfl⟩

theorem noSlash_importHome (scratch : ∀ piece ∈ synchronizer.scratch.pieces, '/' ∉ piece.toList) :
    ∀ piece ∈ (synchronizer.importHome package).pieces, '/' ∉ piece.toList := by
  have shared : IsEntry "vrops-import" := by decide
  intro piece member
  rw [importHome] at member
  simp only [mem_append, mem_singleton] at member
  rcases member with ((inShared | inStem) | rfl)
  · exact noSlash_join shared scratch piece inShared
  · exact noSlash_of_mem_ofText (dropLast_subset _ inStem)
  · simp

theorem holds_importWork {zone : Zone} (named : zone.base.WellNamed) (dryRun : Bool)
    {started : World ρ} (within : zone.Within started) :
    zone.HoldsOn ((do
      unpack package.path zone.root
      World.concluding (Import.importAll (synchronizer.importContext package dryRun zone.root))
        synchronizer.channel.tidy : Sync ρ ImportStats) started).2 := by
  have unpacked : Leads zone.Within zone.HoldsOn (unpack package.path zone.root : Sync ρ Unit) :=
    fun world within => (Zone.keeps_unpack named package.path world within).disk
  have imported : Keeps zone.HoldsOn
      (Import.importAll (synchronizer.importContext package dryRun zone.root)) :=
    Import.keeps_importAll_of_build fun disk kind holds source listed =>
      Zone.keeps_build rfl holds listed
  have tidied : Keeps zone.HoldsOn synchronizer.channel.tidy :=
    Leads.tidy (fun _ _ _ holds => holds) fun _ holds => holds
  exact Leads.andThen unpacked (fun _ holds => holds)
    (fun _ => .concluding imported tidied) started within

theorem opensOnly_importPackage (dryRun : Bool)
    (fresh : world.Fresh (synchronizer.importHome package) (importName package))
    (named : world.disk.WellNamed) (current : ∀ name ∈ world.disk.current, IsEntry name)
    (scratch : ∀ piece ∈ synchronizer.scratch.pieces, '/' ∉ piece.toList) :
    OpensOnly (world.disk.OnWay (synchronizer.importHome package)) world.disk
      (synchronizer.importPackage package dryRun world).2.disk := by
  have opens : OpensOnly (world.disk.OnWay (synchronizer.importHome package)) world.disk
      (makeDirectories (synchronizer.scratch.join "vrops-import") world.disk).2 :=
    (makeDirectories_opensOnly _ _).mono fun _ => onWay_importHome
  unfold importPackage
  cases opening : makeDirectories (synchronizer.scratch.join "vrops-import") world.disk with
  | mk outcome opened =>
    rw [opening] at opens
    cases outcome with
    | error cause =>
      have failed : (World.files (makeDirectories (synchronizer.scratch.join "vrops-import")) :
          Sync ρ Unit) world = (.error (.io cause), { world with disk := opened }) := by
        simp [World.files, World.onDisk, opening]
      rw [exceptBind_apply, failed]
      exact opens
    | ok _ =>
      have freshOpened := fresh.of_opensOnly opens
      rw [exceptBind_of_ok (files_of_ok opening), withScratch_importHome freshOpened.tags]
      have sameWay : ∀ location, opened.OnWay (synchronizer.importHome package) location →
          world.disk.OnWay (synchronizer.importHome package) location :=
        fun _ => onWay_congr opens.current
      refine opens.trans (OpensOnly.mono ?_ sameWay)
      have entry : IsEntry (World.nextName ⟨opened, world.site⟩ (importName package)) :=
        isEntry_importName package (freshOpened.tags world.site.drawn)
      refine freshOpened.opensOnly_withScratch_of_holds entry fun zone root made started => ?_
      refine holds_importWork (made.wellNamed ?_ ?_) dryRun
      · exact opens.wellNamed named fun _ =>
          isEntry_of_onWay current (noSlash_importHome scratch)
      · intro location
        rw [root]
        exact isEntry_of_onWay (by rwa [opens.current])
          (noSlash_join entry (noSlash_importHome scratch))

/-- An import leaves no trace on the disk and never touches its package, whatever the package
holds, whatever the server and the channel do and however the import ends.  What stood before
stands as it did.  New are at most directories that were missing on the way to the directory in
which the scratch directory is made, and without a slash in the type of the package this is the
directory of all imports.  So a package that the way does not lead into is the same with all that
is below it, and so are the entries of the directory of all imports. -/
theorem importPackage_leaves_no_trace (synchronizer : Synchronizer ρ) (package : Package)
    (dryRun : Bool) (world : World ρ)
    (fresh : world.Fresh (synchronizer.importHome package) (importName package))
    (named : world.disk.WellNamed) (current : ∀ name ∈ world.disk.current, IsEntry name)
    (scratch : ∀ piece ∈ synchronizer.scratch.pieces, '/' ∉ piece.toList) :
    OpensOnly (world.disk.OnWay (synchronizer.importHome package)) world.disk
        (synchronizer.importPackage package dryRun world).2.disk ∧
      ((world.disk.get? (world.disk.place package.path)).isSome = true →
        world.disk.StaysOut package.path (synchronizer.importHome package) →
          ∀ rest, (synchronizer.importPackage package dryRun world).2.disk.get?
              (world.disk.place package.path ++ rest) =
            world.disk.get? (world.disk.place package.path ++ rest)) ∧
      ('/' ∉ package.type.toList →
        OpensOnly (world.disk.OnWay (synchronizer.scratch.join "vrops-import")) world.disk
            (synchronizer.importPackage package dryRun world).2.disk ∧
          (world.disk.StaysOut (synchronizer.scratch.join "vrops-import")
              (synchronizer.scratch.join "vrops-import") →
            ∀ rest, rest ≠ [] → (synchronizer.importPackage package dryRun world).2.disk.get?
                (world.disk.place (synchronizer.scratch.join "vrops-import") ++ rest) =
              world.disk.get?
                (world.disk.place (synchronizer.scratch.join "vrops-import") ++ rest))) := by
  have opens := opensOnly_importPackage dryRun fresh named current scratch
  refine ⟨opens, ?_, fun noSlash => ?_⟩
  · intro stands staysOut rest
    by_cases here : rest = []
    · obtain ⟨node, stood⟩ := Option.isSome_iff_exists.1 stands
      rw [here, List.append_nil, stood, opens.stands stood]
    · exact opens.get?_of_staysOut staysOut here
  · have opensShared := opens.mono fun _ => (onWay_importHome_iff noSlash).1
    exact ⟨opensShared, fun staysOut rest => opensShared.get?_of_staysOut staysOut⟩

/-- A package that is an archive with an entry that climbs out, and an older entry where imports
are unpacked. -/
def climbingArchive : World Scripted.Memory where
  disk := { current := [], nodes :=
    [(["work"], .file (Zip.write [("supermetrics/disk.json", Bytes.ofText "1"),
        ("../../escaped", Bytes.ofText "2")])),
      (["tmp"], .directory), (["tmp", "vrops-import"], .directory),
      (["tmp", "vrops-import", "older"], .file [])] }
  site := { tags := fun _ => "0", remote := {} }

/-- An archive that climbs out is refused midway, and nothing of it is left. -/
theorem importPackage_leaves_no_trace_climbing :
    (acceptingServer.importPackage bareProject false climbingArchive).1 =
        .error (.archive .badPath) ∧
      climbingArchive.disk.get? ["tmp", "vrops-import", "older"] = some (.file []) ∧
      (∀ rest, (acceptingServer.importPackage bareProject false climbingArchive).2.disk.get?
        (["work"] ++ rest) = climbingArchive.disk.get? (["work"] ++ rest)) ∧
      ∀ rest, rest ≠ [] →
        (acceptingServer.importPackage bareProject false climbingArchive).2.disk.get?
            (["tmp", "vrops-import"] ++ rest) =
          climbingArchive.disk.get? (["tmp", "vrops-import"] ++ rest) := by
  have fresh : climbingArchive.Fresh (acceptingServer.importHome bareProject)
      (importName bareProject) :=
    .of_nodes (fun _ => (by decide : '/' ∉ "0".toList)) (by decide) (by decide)
      (by decide)
  have refused : (acceptingServer.importPackage bareProject false climbingArchive).1 =
      .error (.archive .badPath) := by decide +kernel
  have named : climbingArchive.disk.WellNamed := wellNamed_of_nodes (by decide)
  obtain ⟨-, package, noSlash⟩ := importPackage_leaves_no_trace acceptingServer bareProject false
    climbingArchive fresh named (fun _ member => by cases member) (by decide)
  have isPlace : climbingArchive.disk.place (acceptingServer.scratch.join "vrops-import") =
      ["tmp", "vrops-import"] := by decide
  have kept := (noSlash (by decide)).2 (staysOut_iff.2 (by decide))
  rw [isPlace] at kept
  exact ⟨refused, rfl, package rfl (staysOut_iff.2 (by decide)), kept⟩

def partedPackage : Package :=
  { bareProject with type := "a/b" }

/-- The scratch directory is made in a directory of its own then, and that one stays. -/
theorem importPackage_leaves_directory :
    bareWorld.disk.get? ["tmp", "vrops-import", "import-a"] = none ∧
      (acceptingServer.importPackage partedPackage false bareWorld).2.disk.get?
        ["tmp", "vrops-import", "import-a"] = some .directory := by
  decide +kernel

end Synchronizer

end OpsContent
