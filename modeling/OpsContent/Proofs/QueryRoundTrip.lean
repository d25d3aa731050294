import OpsContent.Proofs.ExportEscapes
import OpsContent.Proofs.ImportTraces
import OpsContent.Proofs.NotedServers
import OpsContent.Proofs.PushedCalls
import OpsContent.Proofs.TreeOverlays

/-!
# From one server to another over the query interface

An export of definitions, policies and custom groups fills an empty project with what was asked for,
and an import of the project pushes what it holds.  So what is pushed to the other server is what
was asked for of the first one.
-/

namespace OpsContent

open OpsContent.Path Disk Staging

variable {ρ σ : Type}

theorem Offer.Legible.plain_selected {offer : Offer} (legible : offer.Legible)
    {descriptor : Descriptor}
    (queried : ∀ kind, descriptor.asksFor kind → kind.isQueried) :
    ∀ kind patterns, descriptor.patterns kind = some patterns →
      ∀ name ∈ offer.selected kind patterns, IsPlain name := by
  intro kind patterns isAsked name member
  rw [← offer.map_matched (queried kind (Descriptor.asksFor_of_patterns isAsked))] at member
  obtain ⟨file, isMatched, rfl⟩ := List.mem_map.1 member
  exact legible.plain kind file (List.mem_of_mem_filter isMatched)

namespace Synchronizer

open Import

variable {synchronizer : Synchronizer ρ} {package : Package} {descriptor : Descriptor}
  {offer : Offer}

def nextStaging (synchronizer : Synchronizer ρ) (package : Package) (world : World ρ) : Path :=
  synchronizer.importStaging package (world.site.tags world.site.drawn)

/-- There is room for the import of a project: its scratch directory can be made under a new name,
beside the project, and has room for what was asked for. -/
structure ImportRoom (synchronizer : Synchronizer ρ) (package : Package) (descriptor : Descriptor)
    (offer : Offer) (world : World ρ) : Prop where
  fresh : world.Fresh (synchronizer.importHome package) (importName package)
  made : ∃ opened base,
    makeDirectories (synchronizer.scratch.join "vrops-import") world.disk = (.ok (), opened) ∧
      makeDirectories (synchronizer.nextStaging package world) opened = (.ok (), base)
  passes : world.disk.PassesBy package.path (synchronizer.importHome package)
  staging : offer.FitsBelow descriptor (synchronizer.nextStaging package world) ""

/-- A project that holds what was asked for is unpacked as it is. -/
theorem unpackPackage_holds {world : World ρ}
    (room : synchronizer.ImportRoom package descriptor offer world)
    (held : offer.HeldBelow descriptor package.path world.disk) :
    ∃ unpacked, synchronizer.unpackPackage package world =
        (.ok (synchronizer.nextStaging package world), unpacked) ∧
      offer.HeldBelow descriptor (synchronizer.nextStaging package world) unpacked.disk ∧
      unpacked.site.remote = world.site.remote := by
  have fresh := room.fresh
  obtain ⟨opened, base, opening, making⟩ := room.made
  have opens : OpensOnly (world.disk.OnWay (synchronizer.importHome package)) world.disk
      opened := (opensOnly_made opening).mono fun _ => onWay_importHome
  have isHome : synchronizer.nextStaging package world =
      (synchronizer.importHome package).join (world.nextName (importName package)) :=
    join_importStem synchronizer package (fresh.tags world.site.drawn)
  have entry : IsEntry (world.nextName (importName package)) :=
    isEntry_importName package (fresh.tags world.site.drawn)
  have ready := fresh.readyFor_made entry opens (isHome ▸ making) held.stands room.passes
  rw [← isHome] at ready
  have heldBase := held.of_mirrors ready.mirrors ready.stands held.room
  have copyReady : CopyReady package.path (synchronizer.nextStaging package world) base :=
    .of_apart ready.stands ready.empty.stands ready.apart heldBase.named
  have lays := lays_copyTree (makeDirectories_of_isDirectory ready.empty.stands) copyReady
  cases copied : copyTree package.path (synchronizer.nextStaging package world) base with
  | mk outcome after =>
    have succeeds := lays.whole.2 (heldBase.fits room.staging ready.empty.free)
    rw [copied] at succeeds
    obtain rfl : outcome = .ok () := succeeds
    have unpacking : unpack package.path (synchronizer.nextStaging package world)
        (world.drawn base) = (.ok (), { world.drawn base with disk := after }) := by
      have looked : (World.look : Sync ρ Disk) (world.drawn base) =
        (.ok base, world.drawn base) := rfl
      rw [unpack, exceptBind_of_ok looked, if_pos ready.stands]
      exact files_of_ok copied
    obtain ⟨stands, mirrors, sameSite⟩ := unpack_mirrors ready.stands heldBase.named ready.empty
      ready.apart unpacking
    exact ⟨_, unpackPackage_ok_iff.2 ⟨opened, base, opening, rfl, making, unpacking⟩,
      heldBase.of_mirrors mirrors stands room.staging, by rw [sameSite]; rfl⟩

/-- An import of a project that holds what was asked for of an offer pushes that, cleans up and
makes no other call. -/
theorem importPackage_pushes {importer : Synchronizer σ} {world : World (Traced σ)}
    (accepts : importer.query.Accepts) (legible : offer.Legible)
    (queried : ∀ kind, descriptor.asksFor kind → kind.isQueried)
    (idle : importer.channel.queued world.site.remote.server = 0)
    (room : importer.traced.ImportRoom package descriptor offer world)
    (held : offer.HeldBelow descriptor package.path world.disk) :
    ∃ result after pushes policies groups,
      importer.traced.importPackage package false world = (.ok result, after) ∧
        offer.PushedBy descriptor pushes policies groups ∧
        after.site.remote.calls = world.site.remote.calls ++
          (pushes.map Push.call ++ policies ++ groups ++ [.cleanup]) := by
  obtain ⟨unpacked, unpacking, heldUnpacked, sameRemote⟩ := unpackPackage_holds room held
  have stillIdle : importer.channel.queued unpacked.site.remote.server = 0 := by
    rw [sameRemote]
    exact idle
  have reaches : Reaches (importAll (importer.importContext package false
      (importer.traced.nextStaging package world)).traced) unpacked _ :=
    reaches_importAll rfl accepts heldUnpacked legible queried stillIdle
  obtain ⟨result, imported, ran, pushes, policies, groups, pushed, made⟩ := reaches
  have cleaned : Leads (· = imported) (Made [.cleanup] imported)
      (World.onSite importer.traced.channel.cleanup) := by
    intro state same
    rw [same]
    exact Made.answer .cleanup importer.channel.cleanup imported
  have tidied := Leads.tidy (Made.ignoresLog [.cleanup] imported) cleaned imported rfl
  have concluded : World.concluding (importAll (importer.traced.importContext package false
      (importer.traced.nextStaging package world))) importer.traced.channel.tidy unpacked =
        (.ok result, (importer.traced.channel.tidy imported).2) := by
    have same : importAll (importer.traced.importContext package false
      (importer.traced.nextStaging package world)) unpacked = (.ok result, imported) := ran
    rw [World.concluding, same]
    rfl
  have whole : importer.traced.importPackage package false world = _ :=
    importPackage_of_unpackPackage unpacking
  rw [concluded] at whole
  refine ⟨result, _, pushes, policies, groups, whole, pushed, ?_⟩
  rw [SparesServer.removeScratch, (made.trans tidied).traced, sameRemote]

/-- Content of the query interface makes the round trip.  A server has definitions, policies and
custom groups on offer, whose names are plain and different in each kind, whose definitions have
different identifiers, and whose contents are objects of whole numbers, nested at most a hundred
deep.  A descriptor asks for kinds of these only, and there is room for what it asks for.  Then an
export into an empty project succeeds.  An import of the project on a server that accepts every
push succeeds too, and apart from a cleanup it makes these calls: for each kind of definitions that
is asked for one push that carries exactly the matching definitions under their identifiers, one
for each matching policy with its name and its archive, and one for each matching custom group with
its name and its content, of which only the policy may have changed. -/
theorem queriedContent_roundTrips {exporter : Synchronizer ρ} {importer : Synchronizer σ}
    {package : Package} {descriptor : Descriptor} {offer : Offer} {world : World ρ}
    (queried : ∀ kind, descriptor.asksFor kind = true → kind.isQueried = true)
    (answers : exporter.query.Answers offer) (legible : offer.Legible)
    (room : exporter.ExportRoom package descriptor offer world)
    (accepts : importer.query.Accepts) :
    ∃ stats after, exporter.exportPackage package descriptor false world = (.ok stats, after) ∧
      ∀ later : World (Traced σ),
        TouchesBelow package.path (fun _ => False) after.disk later.disk →
        importer.channel.queued later.site.remote.server = 0 →
        importer.traced.ImportRoom package descriptor offer later →
        ∃ result imported pushes policies groups,
          importer.traced.importPackage package false later = (.ok result, imported) ∧
            offer.PushedBy descriptor pushes policies groups ∧
            imported.site.remote.calls = later.site.remote.calls ++
              (pushes.map Push.call ++ policies ++ groups ++ [.cleanup]) := by
  obtain ⟨stats, after, exported, held⟩ := exportPackage_holds answers queried
    (legible.plain_selected queried) legible.distinct room
  refine ⟨stats, after, exported, fun later untouched idle importRoom => ?_⟩
  have heldLater := held.of_mirrors (Mirrors.of_touches untouched held.stands)
    (untouched.stands held.stands) held.room
  exact importPackage_pushes accepts legible queried idle importRoom heldLater

/-! ## A round trip -/

/-- Two symptom definitions, of which one matches the descriptor below, a policy, and a custom group
that refers to the policy by its name. -/
def alarms : Scripted.Answers where
  definitions
    | .symptom =>
      [⟨"cpu.high", none, .object [("id", .string "s1"), ("level", .number (.integer (-3))),
          ("states", .array [.null, .bool true])]⟩,
        ⟨"disk", none, .object [("id", .string "s2")]⟩]
    | _ => []
  policies := [⟨"p1", "Default"⟩]
  customGroups := [⟨"web", none, .object [("policy", .string "Default"),
    ("resourceKey", .object [("name", .string "web")])]⟩]

def alarmKinds : Descriptor :=
  ((Descriptor.set {} .symptomDefinition ["cpu*"]).set .policy ["*"]).set .customGroup ["*"]

def alarmServer : Synchronizer Scripted.Memory :=
  { acceptingServer with query := alarms.query }

def alarmExport : Except SyncError ExportStats × World Scripted.Memory :=
  alarmServer.exportPackage bareProject alarmKinds false bareWorld

def alarmWorld : World (Traced Scripted.Memory) where
  disk := alarmExport.2.disk
  site := { tags := fun _ => "1", remote := { server := {} } }

theorem fitsBelow_alarms {root : Path} {ending : String}
    (rooms : ∀ kind ∈ [AssetKind.symptomDefinition, .policy, .customGroup],
      Room root kind.directory ∧ ∀ file ∈ ["cpu.high.json", "Default.zip", "web.json",
        PolicyMetadata.fileName], Room (root.join kind.directory) (file ++ ending)) :
    alarms.offer.FitsBelow alarmKinds root ending := by
  have isKind : ∀ kind, alarmKinds.asksFor kind →
      kind ∈ [AssetKind.symptomDefinition, .policy, .customGroup] := by
    intro kind
    cases kind <;> decide
  refine ⟨fun kind isAsked => (rooms kind (isKind kind isAsked)).1, fun kind file isFile => ?_⟩
  cases isFile with
  | @asset patterns name isAsked selected =>
    have entries : ∀ kind patterns, alarmKinds.patterns kind = some patterns →
        ∀ name ∈ alarms.offer.selected kind patterns, kind.entry name ∈
          ["cpu.high.json", "Default.zip", "web.json", PolicyMetadata.fileName] :=
      Descriptor.forall_asked (by decide +kernel)
    exact (rooms kind (isKind kind (Descriptor.asksFor_of_patterns isAsked))).2 _
      (entries kind patterns isAsked name selected)
  | sidecar isAsked isSidecar =>
    refine (rooms kind (isKind kind isAsked)).2 file ?_
    have member := isKind kind isAsked
    simp only [List.mem_cons, List.not_mem_nil, or_false] at member
    rcases member with rfl | rfl | rfl <;> cases isSidecar
    decide

theorem legible_alarms : alarms.offer.Legible where
  plain kind := by cases kind <;> decide
  distinct kind := by cases kind <;> decide
  definitions kind := by cases kind <;> decide
  identified kind := by cases kind <;> decide
  identifiers kind := by cases kind <;> decide
  groups := by decide
  groupNames group member found named := by
    obtain rfl := List.mem_singleton.1 member
    have isName : (RemoteAsset.ofCustomGroup? (.object [("policy", .string "Default"),
      ("resourceKey", .object [("name", .string "web")])])).map (·.name) = some "web" := by
        decide +kernel
    rw [named] at isName
    exact Option.some.inj isName

theorem accepts_acceptingServer : acceptingServer.query.Accepts :=
  ⟨fun _ _ _ _ => rfl, fun _ _ _ _ => rfl, fun _ _ _ _ => rfl⟩

theorem exportRoom_alarmServer :
    alarmServer.ExportRoom bareProject alarmKinds alarms.offer bareWorld where
  fresh := fresh_bareWorld _ (by decide +kernel)
  workspace := by decide +kernel
  staging := by decide +kernel
  staged := fitsBelow_alarms (by decide +kernel)
  empty := Scripted.isEmptyDirectory_start
  passes := passesBy_iff.2 (by decide +kernel)
  project := fitsBelow_alarms (by decide +kernel)

theorem outcome_alarmExport :
    alarmExport.1 = .ok { assets := [("customGroup", 1), ("policy", 1), ("symptomDefinition", 1)],
                          written := true } ∧
      (∀ entry ∈ alarmWorld.disk.nodes, alarmWorld.nextName (importName bareProject) ∉ entry.1) ∧
      alarmWorld.disk.current = [] ∧
      (makeDirectories (acceptingServer.scratch.join "vrops-import") alarmWorld.disk).1 = .ok () ∧
      (makeDirectories (acceptingServer.traced.nextStaging bareProject alarmWorld)
        (makeDirectories (acceptingServer.scratch.join "vrops-import") alarmWorld.disk).2).1 =
          .ok () := by
  decide +kernel

theorem importRoom_alarmWorld :
    acceptingServer.traced.ImportRoom bareProject alarmKinds alarms.offer alarmWorld := by
  obtain ⟨-, new, isCurrent, opens, makes⟩ := outcome_alarmExport
  have fresh : alarmWorld.Fresh (acceptingServer.traced.importHome bareProject)
      (importName bareProject) :=
    .of_nodes (fun _ => (by decide : '/' ∉ "1".toList)) new (by rw [isCurrent]; simp)
      (by decide +kernel)
  have passes : bareWorld.disk.PassesBy bareProject.path
      (acceptingServer.traced.importHome bareProject) := passesBy_iff.2 (by decide +kernel)
  exact ⟨fresh, ⟨_, _, eq_mk_of_fst_eq opens, eq_mk_of_fst_eq makes⟩, passes.congr isCurrent,
    fitsBelow_alarms (by decide +kernel)⟩

/-- The definition, the policy and the custom group come to the other server. -/
theorem queriedContent_roundTrips_alarms :
    alarmExport.1 = .ok { assets := [("customGroup", 1), ("policy", 1), ("symptomDefinition", 1)],
                          written := true } ∧
      ∃ result imported pushes policies groups,
        acceptingServer.traced.importPackage bareProject false alarmWorld = (.ok result, imported) ∧
          alarms.offer.PushedBy alarmKinds pushes policies groups ∧
          imported.site.remote.calls =
            pushes.map Push.call ++ policies ++ groups ++ [.cleanup] := by
  have queried : ∀ kind, alarmKinds.asksFor kind = true → kind.isQueried = true := by
    intro kind
    cases kind <;> decide
  obtain ⟨stats, after, exported, imports⟩ := queriedContent_roundTrips queried
    (alarms.answers_offer rfl) legible_alarms exportRoom_alarmServer
    accepts_acceptingServer
  have isExport : alarmExport = (.ok stats, after) := exported
  have untouched : TouchesBelow bareProject.path (fun _ => False) after.disk
      alarmWorld.disk := by
    unfold alarmWorld
    dsimp only
    rw [isExport]
    exact TouchesBelow.refl _ _ _
  have noCalls : alarmWorld.site.remote.calls = [] := rfl
  obtain ⟨result, imported, pushes, policies, groups, isResult, pushed, called⟩ :=
    imports alarmWorld untouched rfl importRoom_alarmWorld
  rw [noCalls, List.nil_append] at called
  exact ⟨outcome_alarmExport.1, result, imported, pushes, policies, groups, isResult, pushed,
    called⟩

/-! ## Projects without room -/

/-- A definition is written over a draft, whose name must not be too long either. -/
theorem short_of_exportPackage {asset : RemoteAsset} {name : String} {world after : World ρ}
    {stats : ExportStats} (isName : asset.name = name) (plain : IsPlain name)
    (done : (synchronizer.serving asset).exportPackage package symptomDescriptor false world =
      (.ok stats, after)) :
    isTooLong (name ++ ".json" ++ ".tmp") = false := by
  obtain ⟨base, last, making, worked, -⟩ := withScratch_ok done
  obtain ⟨_, staged, staging, -⟩ := exceptBind_ok worked
  obtain ⟨disk, -, stands, written⟩ := written_of_stagePackage staging
  have entry : IsEntry (name ++ ".json") :=
    isEntry_append plain.isEntry.noSlash (by decide) (by decide)
  have draft : IsEntry (name ++ ".json" ++ ".tmp") :=
    isEntry_append entry.noSlash (by decide) (by decide)
  rw [isName] at written
  unfold Export.writeJson symptomFile at written
  rw [replaceFile_join (endsInName_join _ AssetKind.symptomDefinition.isEntry_directory) stands
    entry] at written
  split at written
  · cases written
  next wrote => exact (room_of_updateFile draft wrote).short

/-- A name of the given length. -/
def longName (count : Nat) : String := String.ofList (List.replicate count 'a')

theorem isPlain_longName {count : Nat} (long : 2 < count) : IsPlain (longName count) := by
  have size : (longName count).length = count := by simp [longName]
  refine ⟨?_, ?_, ?_, by simp [longName], by simp [longName]⟩ <;>
  · intro same
    rw [same] at size
    have short : count ≤ 2 := by
      rw [← size]
      decide
    omega

/-- A definition with the given name. -/
def symptomNamed (name : String) : RemoteAsset := ⟨name, none, .object [("id", .string "s1")]⟩

theorem legible_oneSymptom {name : String} (plain : IsPlain name) :
    (oneSymptom (symptomNamed name)).offer.Legible where
  plain kind file member := by
    cases kind with
    | symptomDefinition =>
      obtain rfl := List.mem_singleton.1 member
      exact plain
    | _ => cases member
  distinct kind := by
    cases kind <;> simp [Offer.files, Scripted.Answers.offer, oneSymptom, symptomNamed]
  definitions kind asset member := by
    cases kind with
    | symptom =>
      obtain rfl := List.mem_singleton.1 member
      exact ⟨rfl, rfl⟩
    | _ => cases member
  identified kind asset member := by
    cases kind with
    | symptom =>
      obtain rfl := List.mem_singleton.1 member
      rfl
    | _ => cases member
  identifiers kind := by
    cases kind <;> simp [Scripted.Answers.offer, oneSymptom, symptomNamed]
  groups _ member := by cases member
  groupNames _ member := by cases member

/-- A project that is always copied into itself cannot be imported. -/
theorem importPackage_error_of_copyTree {world : World ρ} {dryRun : Bool} {staging : Path}
    (isStaging : staging = (synchronizer.scratch.join "vrops-import").join
      (world.nextName (importStem package)))
    (fails : ∀ opened base,
      makeDirectories (synchronizer.scratch.join "vrops-import") world.disk = (.ok (), opened) →
      makeDirectories staging opened = (.ok (), base) →
        base.isDirectory package.path ∧ (copyTree package.path staging base).1 ≠ .ok ()) :
    ∃ cause, (synchronizer.importPackage package dryRun world).1 = .error cause := by
  cases ran : synchronizer.importPackage package dryRun world with
  | mk outcome after =>
    cases outcome with
    | error cause => exact ⟨cause, rfl⟩
    | ok stats =>
      obtain ⟨_, _, _, unpacking, -⟩ := importPackage_ok ran
      obtain ⟨opened, base, opening, rfl, making, unpacking⟩ := unpackPackage_ok_iff.1 unpacking
      rw [← isStaging] at making unpacking
      obtain ⟨stands, fails⟩ := fails opened base opening making
      have looked : (World.look : Sync ρ Disk) (world.drawn base) = (.ok base, world.drawn base) :=
        rfl
      rw [unpack, exceptBind_of_ok looked, if_pos stands] at unpacking
      exact absurd (congrArg Prod.fst (Zone.files_ok unpacking).1) fails

/-- A server whose scratch directories are made in the project. -/
def innerServer : Synchronizer Scripted.Memory :=
  { acceptingServer.serving (symptomNamed "cpu") with scratch := bareProject.path.join "tmp" }

def innerExport : Except SyncError ExportStats × World Scripted.Memory :=
  innerServer.exportPackage bareProject symptomDescriptor false bareWorld

/-- Where the project is unpacked, which is inside of it. -/
def innerStaging : Path :=
  (innerServer.scratch.join "vrops-import").join (innerExport.2.nextName (importStem bareProject))

def innerDisk : Disk :=
  (makeDirectories innerStaging
    (makeDirectories (innerServer.scratch.join "vrops-import") innerExport.2.disk).2).2

theorem outcome_innerExport :
    innerExport.1 = .ok { assets := [("symptomDefinition", 1)], written := true } ∧
      innerDisk.isDirectory bareProject.path ∧
      innerDisk.place innerStaging =
        innerDisk.place bareProject.path ++ ["tmp", "vrops-import", "import-vrops-0-0"] ∧
      ∀ way ∈ ["tmp", "vrops-import", "import-vrops-0-0"].inits,
        innerDisk.get? (innerDisk.place bareProject.path ++ way) = some .directory := by
  decide +kernel

/-- A definition can have a name that is short enough for its file, but not for its draft.  Then it
cannot be exported.  And a project in which the scratch directories are made can be filled, but not
imported, since it would be copied into itself. -/
theorem roundTrip_lacks_room :
    ((oneSymptom (symptomNamed (longName 250))).offer.Legible ∧
      isTooLong (longName 250 ++ ".json") = false ∧
      ∃ cause, ((acceptingServer.serving (symptomNamed (longName 250))).exportPackage bareProject
        symptomDescriptor false bareWorld).1 = .error cause) ∧
    (oneSymptom (symptomNamed "cpu")).offer.Legible ∧
      innerExport.1 = .ok { assets := [("symptomDefinition", 1)], written := true } ∧
      ∃ cause, (innerServer.importPackage bareProject false innerExport.2).1 = .error cause := by
  obtain ⟨exported, stands, inside, chain⟩ := outcome_innerExport
  have plain : IsPlain (longName 250) := isPlain_longName (by decide)
  have isStaging : innerStaging = (innerServer.scratch.join "vrops-import").join
      (innerExport.2.nextName (importStem bareProject)) := by rw [innerStaging]
  refine ⟨⟨legible_oneSymptom plain, by decide +kernel, ?_⟩, legible_oneSymptom (by decide),
    exported, importPackage_error_of_copyTree isStaging ?_⟩
  · cases ran : (acceptingServer.serving (symptomNamed (longName 250))).exportPackage bareProject
      symptomDescriptor false bareWorld with
    | mk outcome after =>
      cases outcome with
      | error cause => exact ⟨cause, rfl⟩
      | ok stats =>
        have long : isTooLong (longName 250 ++ ".json" ++ ".tmp") = true := by decide +kernel
        rw [short_of_exportPackage (by rw [symptomNamed]) plain ran] at long
        cases long
  · intro opened base opening making
    have isBase : innerDisk = base := by
      rw [innerDisk, opening]
      -- without this, the rewriting compares the arguments by evaluating the export
      dsimp only
      rw [making]
    rw [← isBase]
    exact ⟨stands, copyTree_into_itself (by decide) (by decide) inside fun way isPrefix =>
      chain way ((List.mem_inits _ _).2 isPrefix)⟩

end Synchronizer

end OpsContent
