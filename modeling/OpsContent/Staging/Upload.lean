import OpsContent.Properties
import OpsContent.ViewDocument
import OpsContent.World

/-!
# Archives for upload

The server takes views, dashboards and reports as archives of a fixed layout. Besides the
content an archive holds the texts that belong to it: of every property file the entries whose
key starts with the identifier of the view, or the name of the dashboard or report.
-/

namespace OpsContent.Staging

variable {ρ : Type}

/-- Where an archive has its content and its resource files. -/
structure Layout where
  content : String
  resources : String

/-- How views and reports are packed. -/
def contentLayout : Layout := ⟨"content.xml", "resources/"⟩

/-- How dashboards are packed. -/
def dashboardLayout : Layout := ⟨"dashboard/dashboard.json", "dashboard/resources/"⟩

/-- The identifier in the document of a view. -/
def viewId (disk : Disk) (view : Path) : Except SyncError String :=
  match disk.readText view with
  | .error cause => .error (.io cause)
  | .ok text =>
    match ViewDocument.id text with
    | .ok id => .ok id
    | .error cause => .error (.configuration (cause.message view.text))

/-- The entries of the property files of a directory, in the order of their names. -/
def resourceEntries (disk : Disk) (directory : Path) (layout : Layout) (key : String) :
    Except SyncError (List (String × Bytes)) :=
  (disk.listFiles directory (some "properties")).mapM fun file =>
    match disk.readFile file with
    | .error cause => .error (.io cause)
    | .ok content =>
      .ok (layout.resources ++ file.fileName?.getD "", Properties.filterBytes content key)

/-- The directory of resource files beside a file. -/
def siblingResources (source : Path) : Option Path :=
  source.parent?.map (·.join "resources")

/-- Where an archive of this name is made beside its source. -/
def archivePath (source : Path) (name : String) : Path :=
  source.withFileName (name ++ ".zip")

/-- Remove a file. A failure is worth a warning only. -/
def discard (path : Path) (warning : IoError → String) : StateM (World ρ) Unit := do
  let disk ← World.readDisk
  match disk.removeFile path with
  | .ok after => World.onDisk (set after)
  | .error cause => World.onSite (Site.warn (warning cause))

/-- Remove what stands in the place of an archive that could not be written. -/
def discardArchive (path : Path) : StateM (World ρ) Unit := do
  let disk ← World.readDisk
  if disk.pathExists path then
    discard path fun cause =>
      "Unable to remove incomplete archive '" ++ path.text ++ "': " ++ cause.message

/-- Write an archive over what stands in its place. The file is emptied before the first entry is
written, and the writing ends at an entry that the format has no room for. Then nothing is left in
the place of the archive, also of what stood there before. -/
def writeArchive (path : Path) (entries : List (String × Bytes)) : Sync ρ Unit := do
  let disk ← World.look
  match disk.writeFile path (Zip.write (entries.takeWhile Zip.hasRoom)) with
  | .error cause =>
    World.always (discardArchive path)
    throw (.io cause)
  | .ok after =>
    World.always (World.onDisk (set after))
    if !entries.all Zip.hasRoom then
      World.always (discardArchive path)
      throw (.io (.other "Large file option has not been set"))

/-- Remove a source that is in the archive now. -/
def removeSource (path : Path) (what : String) : StateM (World ρ) Unit :=
  discard path fun cause =>
    "Error deleting " ++ what ++ " file '" ++ path.text ++ "': " ++ cause.message ++
      ". Leaving file there."

/-- The entries of an archive: the content, then the texts. -/
def archiveEntries (disk : Disk) (layout : Layout) (content : Bytes) (resources : Option Path)
    (key : String) : Except SyncError (List (String × Bytes)) := do
  let texts ← match resources with
    | some directory => resourceEntries disk directory layout key
    | none => pure []
  pure ((layout.content, content) :: texts)

def readSource (disk : Disk) (path : Path) : Except SyncError Bytes :=
  (disk.readFile path).mapError .io

/-- Put a view into an archive in place of its file. -/
def buildView (view : Path) : Sync ρ Path := do
  let disk ← World.look
  let id ← World.settle (viewId disk view)
  let content ← World.settle (readSource disk view)
  let entries ← World.settle
    (archiveEntries disk contentLayout content (siblingResources view) ("view." ++ id))
  let archive := archivePath view view.baseName
  writeArchive archive entries
  World.always (removeSource view "view")
  pure archive

/-- Put a dashboard into an archive in place of its file. -/
def buildDashboard (dashboard : Path) : Sync ρ Path := do
  let disk ← World.look
  let name := dashboard.baseName
  let content ← World.settle (readSource disk dashboard)
  let entries ← World.settle
    (archiveEntries disk dashboardLayout content (siblingResources dashboard) name)
  let archive := archivePath dashboard name
  writeArchive archive entries
  World.always (removeSource dashboard "dashboard")
  pure archive

/-- Put a report directory into an archive beside it. -/
def buildReport (report : Path) : Sync ρ Path := do
  let disk ← World.look
  let name := report.fileName?.getD ""
  let file := report.join "content.xml"
  let content ← World.settle ((disk.readFile file).mapError fun cause =>
    .io (.other ("Cannot read report content " ++ file.text ++ ": " ++ cause.message)))
  let entries ← World.settle
    (archiveEntries disk contentLayout content (some (report.join "resources")) name)
  let archive := archivePath report name
  writeArchive archive entries
  pure archive

end OpsContent.Staging
