import OpsContent.Import.Queue
import OpsContent.Proofs.Archives
import OpsContent.Proofs.FileNames
import OpsContent.Proofs.Listings

/-!
# Files for upload

Every source of a kind is queued as one file in its own directory: an archive with the content of
the source under a fixed name, or the source itself.  Making that file touches nothing but the
file and, for views and dashboards, the source that it replaces.
-/

namespace OpsContent

open OpsContent.Path Disk

variable {ρ : Type} {name : String}

theorem concluding_ok {σ ε α : Type} {steps : ExceptT ε (StateM σ) α} {last : StateM σ Unit}
    {state after : σ} {value : α}
    (done : World.concluding steps last state = (.ok value, after)) :
    ∃ between, steps state = (.ok value, between) ∧ after = (last between).2 := by
  unfold World.concluding at done
  cases ran : steps state with
  | mk outcome between =>
    rw [ran] at done
    cases done
    exact ⟨between, rfl, rfl⟩

theorem mapError_ok {ε δ α : Type} {change : ε → δ} {outcome : Except ε α} {value : α}
    (done : outcome.mapError change = .ok value) : outcome = .ok value := by
  cases outcome with
  | error cause => cases done
  | ok found =>
    cases done
    rfl

namespace Staging

variable {entries : List (String × Bytes)} {world after : World ρ} {archive path source : Path}
  {resources : Option Path} {layout : Layout} {key : String}

/-! ## Archives -/

theorem discard_disk (path : Path) (warning : IoError → String) (world : World ρ) :
    (discard path warning world).2.disk = world.disk ∨
      removeFile path world.disk = .ok (discard path warning world).2.disk := by
  rw [discard, bind_of_eq (World.readDisk_eq world)]
  cases removeFile path world.disk with
  | ok after => exact .inr rfl
  | error cause => exact .inl rfl

theorem remote_discard (path : Path) (warning : IoError → String) (world : World ρ) :
    (discard path warning world).2.site.remote = world.site.remote := by
  rw [discard, bind_of_eq (World.readDisk_eq world)]
  cases removeFile path world.disk with
  | ok after => rfl
  | error cause => rfl

theorem discardArchive_disk (path : Path) (world : World ρ) :
    (discardArchive path world).2.disk = world.disk ∨
      removeFile path world.disk = .ok (discardArchive path world).2.disk := by
  rw [discardArchive, bind_of_eq (World.readDisk_eq world)]
  split
  · exact discard_disk path _ world
  · exact .inl rfl

theorem remote_discardArchive (path : Path) (world : World ρ) :
    (discardArchive path world).2.site.remote = world.site.remote := by
  rw [discardArchive, bind_of_eq (World.readDisk_eq world)]
  split
  · exact remote_discard path _ world
  · rfl

/-- What writing an archive comes to: the file cannot be made, an entry has no room, or the archive
stands. -/
inductive Written (path : Path) (entries : List (String × Bytes)) (world : World ρ) :
    Except SyncError Unit × World ρ → Prop
  | unmade {cause : IoError}
      (failed : writeFile path (Zip.write (entries.takeWhile Zip.hasRoom)) world.disk =
        .error cause) :
      Written path entries world (.error (.io cause), (discardArchive path world).2)
  | tooLarge {disk : Disk} {cause : IoError} (lacks : ¬ entries.all Zip.hasRoom = true)
      (made : writeFile path (Zip.write (entries.takeWhile Zip.hasRoom)) world.disk = .ok disk) :
      Written path entries world
        (.error (.io cause), (discardArchive path { world with disk := disk }).2)
  | whole {disk : Disk} (room : entries.all Zip.hasRoom = true)
      (made : writeFile path (Zip.write entries) world.disk = .ok disk) :
      Written path entries world (.ok (), { world with disk := disk })

theorem written_writeArchive (path : Path) (entries : List (String × Bytes)) (world : World ρ) :
    Written path entries world (writeArchive path entries world) := by
  have looked : (World.look : Sync ρ Disk) world = (.ok world.disk, world) := rfl
  rw [writeArchive, exceptBind_of_ok looked]
  cases made : writeFile path (Zip.write (entries.takeWhile Zip.hasRoom)) world.disk with
  | error cause => exact .unmade made
  | ok disk =>
    by_cases room : entries.all Zip.hasRoom
    · rw [List.takeWhile_eq_self_iff.2 (List.all_eq_true.1 room)] at made
      simp only [room, Bool.not_true, Bool.false_eq_true, if_false]
      exact .whole room made
    · simp only [room, Bool.not_false, if_true]
      exact .tooLarge room made

theorem writeArchive_ok (done : writeArchive path entries world = (.ok (), after)) :
    writeFile path (Zip.write entries) world.disk = .ok after.disk ∧
      (∀ entry ∈ entries, Zip.hasRoom entry) ∧ after.site = world.site := by
  have written := written_writeArchive path entries world
  rw [done] at written
  cases written with
  | whole room made => exact ⟨made, List.all_eq_true.1 room, rfl⟩

theorem removeSource_disk (path : Path) (what : String) (world : World ρ) :
    (removeSource path what world).2.disk = world.disk ∨
      removeFile path world.disk = .ok (removeSource path what world).2.disk :=
  discard_disk path _ world

theorem remote_removeSource (path : Path) (what : String) (world : World ρ) :
    (removeSource path what world).2.site.remote = world.site.remote :=
  remote_discard path _ world

theorem archiveEntries_ok {disk : Disk} {content : Bytes}
    (done : archiveEntries disk layout content resources key = .ok entries) :
    ∃ texts, entries = (layout.content, content) :: texts := by
  unfold archiveEntries at done
  dsimp only at done
  cases resources with
  | none =>
    cases done
    exact ⟨[], rfl⟩
  | some directory =>
    dsimp only at done
    cases found : resourceEntries disk directory layout key with
    | error cause =>
      rw [found] at done
      cases done
    | ok texts =>
      rw [found] at done
      cases done
      exact ⟨texts, rfl⟩

/-- The content of a source was put into an archive. -/
structure Packed (layout : Layout) (source archive : Path) (before after : World ρ)
    (content : Bytes) (texts : List (String × Bytes)) : Prop where
  read : before.disk.readFile source = .ok content
  written : writeFile archive (Zip.write ((layout.content, content) :: texts)) before.disk =
    .ok after.disk
  room : ∀ entry ∈ (layout.content, content) :: texts, Zip.hasRoom entry = true
  remote : after.site.remote = before.site.remote

theorem packed_ok {words : IoError → SyncError} {last : Sync ρ α} {value : α} (done : (do
      let content ← World.settle ((world.disk.readFile source).mapError words)
      let entries ← World.settle (archiveEntries world.disk layout content resources key)
      writeArchive archive entries
      last : Sync ρ α) world = (.ok value, after)) :
    ∃ content texts between, Packed layout source archive world between content texts ∧
      archiveEntries world.disk layout content resources key =
        .ok ((layout.content, content) :: texts) ∧
      last between = (.ok value, after) := by
  obtain ⟨content, read, done⟩ := settleBind_ok done
  obtain ⟨entries, made, done⟩ := settleBind_ok done
  obtain ⟨texts, rfl⟩ := archiveEntries_ok made
  obtain ⟨_, between, written, done⟩ := exceptBind_ok done
  obtain ⟨packed, room, site⟩ := writeArchive_ok written
  exact ⟨content, texts, between, ⟨mapError_ok read, packed, room, by rw [site]⟩, made, done⟩

theorem removeSource_ok {what : String} (done : (do
      World.always (removeSource source what)
      pure path : Sync ρ Path) world = (.ok archive, after)) :
    archive = path ∧ after = (removeSource source what world).2 := by
  obtain ⟨_, last, removed, done⟩ := exceptBind_ok done
  obtain ⟨rfl, rfl⟩ := pure_ok done
  exact ⟨rfl, (congrArg Prod.snd (always_ok removed)).symm⟩

theorem buildView_ok {view : Path} (done : buildView view world = (.ok archive, after)) :
    archive = archivePath view view.baseName ∧
      ∃ id content texts between, Packed contentLayout view archive world between content texts ∧
        viewId world.disk view = .ok id ∧
        archiveEntries world.disk contentLayout content (siblingResources view) ("view." ++ id) =
          .ok ((contentLayout.content, content) :: texts) ∧
        after = (removeSource view "view" between).2 := by
  replace done := lookBind_eq done
  obtain ⟨id, named, done⟩ := settleBind_ok done
  obtain ⟨content, texts, between, packed, made, done⟩ := packed_ok done
  obtain ⟨rfl, removed⟩ := removeSource_ok done
  exact ⟨rfl, id, content, texts, between, packed, named, made, removed⟩

theorem buildDashboard_ok {dashboard : Path}
    (done : buildDashboard dashboard world = (.ok archive, after)) :
    archive = archivePath dashboard dashboard.baseName ∧
      ∃ content texts between,
        Packed dashboardLayout dashboard archive world between content texts ∧
        archiveEntries world.disk dashboardLayout content (siblingResources dashboard)
            dashboard.baseName = .ok ((dashboardLayout.content, content) :: texts) ∧
        after = (removeSource dashboard "dashboard" between).2 := by
  replace done := lookBind_eq done
  obtain ⟨content, texts, between, packed, made, done⟩ := packed_ok done
  obtain ⟨rfl, removed⟩ := removeSource_ok done
  exact ⟨rfl, content, texts, between, packed, made, removed⟩

theorem buildReport_ok {report : Path} (done : buildReport report world = (.ok archive, after)) :
    archive = archivePath report (report.fileName?.getD "") ∧
      ∃ content texts, Packed contentLayout (report.join "content.xml") archive world after
        content texts ∧
        archiveEntries world.disk contentLayout content (some (report.join "resources"))
            (report.fileName?.getD "") = .ok ((contentLayout.content, content) :: texts) := by
  replace done := lookBind_eq done
  obtain ⟨content, texts, between, packed, made, done⟩ := packed_ok done
  obtain ⟨rfl, rfl⟩ := pure_ok done
  exact ⟨rfl, content, texts, packed, made⟩

end Staging

namespace Import

open Staging

/-! ## What is queued for a source -/

/-- How a kind is packed, if it is. -/
def layoutOf : ChannelKind → Option Layout
  | .view | .report => some contentLayout
  | .dashboard => some dashboardLayout
  | .superMetric | .metricConfig => none

/-- The file that is queued for a source. -/
def queuedFile : ChannelKind → Path → Path
  | .view, source | .dashboard, source => archivePath source source.baseName
  | .report, source => archivePath source (source.fileName?.getD "")
  | .superMetric, source | .metricConfig, source => source

/-- The name of the file that is queued for a source of the given name. -/
def queuedName : ChannelKind → String → String
  | .view, name | .dashboard, name => (splitName name).1 ++ ".zip"
  | .report, name => name ++ ".zip"
  | .superMetric, name | .metricConfig, name => name

/-- The file of an asset that holds its content. -/
def contentFile : ChannelKind → Path → Path
  | .report, source => source.join "content.xml"
  | _, source => source

/-- The bytes that are queued for a content: an archive in which the content stands first, which
is what a reader finds in it, or the content itself. -/
def Packs (kind : ChannelKind) (content bytes : Bytes) : Prop :=
  match layoutOf kind with
  | none => bytes = content
  | some layout => ∃ texts, bytes = Zip.write ((layout.content, content) :: texts) ∧
      (Zip.Fits ((layout.content, content) :: texts) →
        Zip.read bytes = .ok ((layout.content, content) :: texts))

/-- The names that are touched when a source is put into its file. -/
def touched : ChannelKind → String → List String
  | .view, name => [queuedName .view name, name]
  | .dashboard, name => [queuedName .dashboard name, name]
  | .report, name => [queuedName .report name]
  | .superMetric, _ | .metricConfig, _ => []

theorem isEntry_queuedName (kind : ChannelKind) (entry : IsEntry name) :
    IsEntry (queuedName kind name) := by
  cases kind with
  | view => exact isEntry_base_append entry (by decide) (by decide)
  | dashboard => exact isEntry_base_append entry (by decide) (by decide)
  | report =>
    apply isEntry_of_length
    · rw [queuedName, String.length_append]
      exact Nat.le_add_left_of_le (by decide)
    · simp [queuedName, entry.noSlash]
  | superMetric => exact entry
  | metricConfig => exact entry

theorem queuedFile_join {directory : Path} (ends : directory.EndsInName) (kind : ChannelKind)
    (entry : IsEntry name) :
    queuedFile kind (directory.join name) = directory.join (queuedName kind name) := by
  cases kind with
  | view =>
    rw [queuedFile, queuedName, archivePath, withFileName_join ends entry,
      baseName_join directory entry]
  | dashboard =>
    rw [queuedFile, queuedName, archivePath, withFileName_join ends entry,
      baseName_join directory entry]
  | report =>
    rw [queuedFile, queuedName, archivePath, withFileName_join ends entry,
      fileName?_join directory entry, Option.getD_some]
  | superMetric => rfl
  | metricConfig => rfl

/-- A source was put into the file that is queued for it. -/
structure Prepared (kind : ChannelKind) (directory : Path) (name : String)
    (before after : World ρ) : Prop where
  room : Room directory (queuedName kind name)
  remote : after.site.remote = before.site.remote
  differ : FilesDiffer (before.disk.place directory) before.disk after.disk
  others : ∀ other, other ∉ touched kind name →
    after.disk.get? (before.disk.place directory ++ [other]) =
      before.disk.get? (before.disk.place directory ++ [other])
  packs : ∃ content bytes,
    before.disk.readFile (contentFile kind (directory.join name)) = .ok content ∧
      Packs kind content bytes ∧
      after.disk.get? (before.disk.place directory ++ [queuedName kind name]) = some (.file bytes)

section

variable {kind : ChannelKind} {directory : Path} {name : String} {layout : Layout}
  {before between after : World ρ} {content : Bytes} {texts : List (String × Bytes)}

theorem packs_write (isLayout : layoutOf kind = some layout) (content : Bytes)
    (texts : List (String × Bytes)) :
    Packs kind content (Zip.write ((layout.content, content) :: texts)) := by
  rw [Packs, isLayout]
  exact ⟨texts, rfl, fun fits => Zip.read_write fits⟩

theorem put_of_packed (entry : IsEntry name)
    (packed : Packed layout (contentFile kind (directory.join name))
      (directory.join (queuedName kind name)) before after content texts) :
    before.disk.get? (before.disk.place directory ++ [queuedName kind name]) ≠ some .directory ∧
      after.disk = before.disk.put (before.disk.place directory ++ [queuedName kind name])
        (.file (Zip.write ((layout.content, content) :: texts))) := by
  obtain ⟨-, notDirectory, _, put⟩ := updateFile_ok packed.written
  rw [place_join before.disk directory (isEntry_queuedName kind entry)] at notDirectory put
  exact ⟨notDirectory, put⟩

theorem prepared_of_packed (isLayout : layoutOf kind = some layout) (entry : IsEntry name)
    (touches : queuedName kind name ∈ touched kind name)
    (packed : Packed layout (contentFile kind (directory.join name))
      (directory.join (queuedName kind name)) before after content texts) :
    Prepared kind directory name before after := by
  obtain ⟨notDirectory, put⟩ := put_of_packed entry packed
  refine ⟨room_of_updateFile (isEntry_queuedName kind entry) packed.written, packed.remote, ?_, ?_,
    content, _, packed.read, packs_write isLayout content texts, ?_⟩
  · rw [put]
    exact FilesDiffer.put _ _ (isEntry_queuedName kind entry) _ notDirectory
  · intro other untouched
    rw [put, get?_put _ _ _ _ (by simp), if_neg]
    rintro same
    obtain rfl : other = queuedName kind name := by simpa using same
    exact untouched touches
  · rw [put, get?_put _ _ _ _ (by simp), if_pos rfl]

theorem Prepared.removeSource (entry : IsEntry name) (what : String)
    (touches : name ∈ touched kind name) (apart : queuedName kind name ≠ name)
    (prepared : Prepared kind directory name before between) :
    Prepared kind directory name before
      (Staging.removeSource (directory.join name) what between).2 := by
  have remote := remote_removeSource (directory.join name) what between
  have samePlace := place_congr prepared.differ.current directory
  rcases removeSource_disk (directory.join name) what between with same | removed
  · refine ⟨prepared.room, remote.trans prepared.remote, ?_, ?_, ?_⟩ <;> rw [same]
    · exact prepared.differ
    · exact prepared.others
    · exact prepared.packs
  · obtain ⟨-, notDirectory, left⟩ := removeFile_ok removed
    rw [place_join _ directory entry, samePlace] at notDirectory left
    refine ⟨prepared.room, remote.trans prepared.remote, ?_, ?_, ?_⟩ <;> rw [left]
    · exact prepared.differ.trans (FilesDiffer.remove _ _ name notDirectory)
    · intro other untouched
      rw [get?_remove _ _ _ (by simp), if_neg]
      · exact prepared.others other untouched
      · intro same
        obtain rfl : other = name := by simpa using same
        exact untouched touches
    · obtain ⟨content, bytes, read, packs, stands⟩ := prepared.packs
      refine ⟨content, bytes, read, packs, ?_⟩
      rw [get?_remove _ _ _ (by simp), if_neg (by simpa using apart)]
      exact stands

theorem prepared_of_isFile (isPlain : layoutOf kind = none) (sameName : queuedName kind name = name)
    (sameFile : contentFile kind (directory.join name) = directory.join name)
    (stands : before.disk.isDirectory directory) (entry : IsEntry name)
    (isFile : before.disk.isFile (directory.join name)) :
    Prepared kind directory name before before := by
  obtain ⟨content, found⟩ := isFile_iff.1 isFile
  refine ⟨?_, rfl, FilesDiffer.refl _ _, fun _ _ => rfl, content, content, ?_, ?_, ?_⟩
  · rw [sameName]
    exact room_of_node? stands entry found
  · rw [sameFile]
    exact readFile_eq_ok_iff.2 found
  · rw [Packs, isPlain]
  · rw [sameName, ← place_join before.disk directory entry]
    exact get?_of_node? found

/-- What is built for a source is queued in its place. -/
theorem build_ok {file : Path} (ends : directory.EndsInName)
    (stands : before.disk.isDirectory directory) (entry : IsEntry name)
    (apart : kind = .view ∨ kind = .dashboard → queuedName kind name ≠ name)
    (plain : layoutOf kind = none → before.disk.isFile (directory.join name))
    (done : build kind (directory.join name) before = (.ok file, after)) :
    file = directory.join (queuedName kind name) ∧ Prepared kind directory name before after := by
  have queued := queuedFile_join ends kind entry
  cases kind with
  | view =>
    obtain ⟨rfl, id, content, texts, between, packed, -, -, rfl⟩ := buildView_ok done
    rw [queuedFile] at queued
    rw [queued] at packed
    have prepared : Prepared .view directory name before between :=
      prepared_of_packed rfl entry (by simp [touched]) packed
    exact ⟨queued, prepared.removeSource entry _ (by simp [touched]) (apart (.inl rfl))⟩
  | dashboard =>
    obtain ⟨rfl, content, texts, between, packed, -, rfl⟩ := buildDashboard_ok done
    rw [queuedFile] at queued
    rw [queued] at packed
    have prepared : Prepared .dashboard directory name before between :=
      prepared_of_packed rfl entry (by simp [touched]) packed
    exact ⟨queued, prepared.removeSource entry _ (by simp [touched]) (apart (.inr rfl))⟩
  | report =>
    obtain ⟨rfl, content, texts, packed, -⟩ := buildReport_ok done
    rw [queuedFile] at queued
    rw [queued] at packed
    exact ⟨queued, prepared_of_packed rfl entry (by simp [touched]) packed⟩
  | superMetric =>
    obtain ⟨rfl, rfl⟩ := pure_ok done
    exact ⟨rfl, prepared_of_isFile rfl rfl rfl stands entry (plain rfl)⟩
  | metricConfig =>
    obtain ⟨rfl, rfl⟩ := pure_ok done
    exact ⟨rfl, prepared_of_isFile rfl rfl rfl stands entry (plain rfl)⟩

end

end Import

end OpsContent
