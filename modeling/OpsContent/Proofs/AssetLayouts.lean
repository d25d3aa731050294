import OpsContent.Proofs.ExportAtomicity
import OpsContent.Proofs.Unpacking

/-!
# Layouts of the kinds

Each kind has a directory of its own.  An asset is one file there, or a directory if it is a report,
under an entry that is made of its name.
-/

/-! ## Shelves -/

namespace OpsContent

open OpsContent.Path

namespace Disk

variable {before between after : Disk} {root : Path} {name : String}
  {touched wider : Location → Prop}

/-- Below a path at most the given places differ, and directories stay. -/
structure TouchesBelow (root : Path) (touched : Location → Prop) (before after : Disk) : Prop where
  current : after.current = before.current
  stands : before.isDirectory root = true → after.isDirectory root = true
  elsewhere : ∀ rest, ¬ touched rest →
    after.get? (before.place root ++ rest) = before.get? (before.place root ++ rest)
  directories : ∀ rest, before.get? (before.place root ++ rest) = some .directory →
    after.get? (before.place root ++ rest) = some .directory

theorem Touches.below (touches : Touches touched before after)
    (inside : ∀ rest, touched (before.place root ++ rest) → wider rest) :
    TouchesBelow root wider before after where
  current := touches.current
  stands := touches.isDirectory
  elsewhere rest free := touches.elsewhere _ fun is => free (inside rest is)
  directories _ := touches.directories _

namespace TouchesBelow

theorem refl (root : Path) (touched : Location → Prop) (disk : Disk) :
    TouchesBelow root touched disk disk :=
  ⟨rfl, id, fun _ _ => rfl, fun _ => id⟩

theorem trans (left : TouchesBelow root touched before between)
    (right : TouchesBelow root touched between after) : TouchesBelow root touched before after := by
  have samePlace := place_congr left.current root
  refine ⟨right.current.trans left.current, right.stands ∘ left.stands, ?_, ?_⟩
  · intro rest free
    rw [← left.elsewhere rest free, ← samePlace]
    exact right.elsewhere rest free
  · intro rest stands
    rw [← samePlace]
    apply right.directories
    rw [samePlace]
    exact left.directories rest stands

variable (touches : TouchesBelow root touched before after)

include touches

theorem mono (inside : ∀ rest, touched rest → wider rest) :
    TouchesBelow root wider before after where
  current := touches.current
  stands := touches.stands
  elsewhere rest free := touches.elsewhere rest fun is => free (inside rest is)
  directories := touches.directories

/-- What a path on from the directory leads to is the same if no place behind it is touched, other
directories apart. -/
theorem node?_extend (stands : before.isDirectory root) {names : List String}
    (entries : ∀ name ∈ names, IsEntry name)
    (free : ∀ beginning, beginning ≠ [] → beginning <+: names → ¬ touched beginning ∨
      before.get? (before.place root ++ beginning) = some .directory) :
    after.node? (root.extend names) = before.node? (root.extend names) := by
  symm
  apply node?_congr touches.current.symm
  intro location onWay
  rcases onWay_extend entries onWay with early | ⟨beginning, notEmpty, isPrefix, rfl⟩
  · rw [directory_of_onWay stands early,
      directory_of_onWay (touches.stands stands) (onWay_congr touches.current.symm early)]
  · rcases free beginning notEmpty isPrefix with untouched | directory
    · exact (touches.elsewhere _ untouched).symm
    · rw [directory, touches.directories _ directory]

theorem inner (notBlank : root.pieces ≠ [""]) (entry : IsEntry name) :
    TouchesBelow (root.join name) (fun rest => touched (name :: rest)) before after := by
  have reached := place_join before root entry
  refine ⟨touches.current, ?_, ?_, ?_⟩
  · intro stands
    have found := isDirectory_iff_node?.1 stands
    have above := isDirectory_of_node?_join entry notBlank found
    rw [isDirectory_iff_node?,
      node?_join (touches.stands above) (room_of_node? above entry found),
      place_congr touches.current]
    apply touches.directories
    rw [← reached]
    exact (isDirectory_iff.1 stands).2.2
  · intro rest
    rw [reached, List.append_assoc]
    exact touches.elsewhere (name :: rest)
  · intro rest
    rw [reached, List.append_assoc]
    exact touches.directories (name :: rest)

end TouchesBelow

/-- Below one path on a disk there is exactly what is below another path on another disk. -/
structure Mirrors (source destination : Path) (before after : Disk) : Prop where
  nodes : ∀ rest, rest ≠ [] → ∀ node, after.get? (after.place destination ++ rest) = some node →
    before.get? (before.place source ++ rest) = some node
  reached : ∀ rest, (∀ name ∈ rest, IsEntry name) → ∀ node,
    before.node? (source.extend rest) = some node →
      after.node? (destination.extend rest) = some node
  sourced : ∀ rest, rest ≠ [] → (∀ name ∈ rest, IsEntry name) → ∀ node,
    after.node? (destination.extend rest) = some node →
      before.node? (source.extend rest) = some node

namespace Mirrors

variable {source middle destination : Path} {rest : Location}

theorem trans (left : Mirrors source middle before between)
    (right : Mirrors middle destination between after) :
    Mirrors source destination before after where
  nodes rest notEmpty node found :=
    left.nodes rest notEmpty node (right.nodes rest notEmpty node found)
  reached rest entries node found :=
    right.reached rest entries node (left.reached rest entries node found)
  sourced rest notEmpty entries node found :=
    left.sourced rest notEmpty entries node (right.sourced rest notEmpty entries node found)

theorem of_touches (touches : TouchesBelow root (fun _ => False) before after)
    (stands : before.isDirectory root) : Mirrors root root before after where
  nodes rest _ node found := by
    rwa [place_congr touches.current, touches.elsewhere rest id] at found
  reached rest entries node found := by
    rw [← found]
    exact touches.node?_extend stands entries fun _ _ _ => Or.inl id
  sourced rest _ entries node found := by
    rw [← found]
    exact (touches.node?_extend stands entries fun _ _ _ => Or.inl id).symm

section

variable (copied : Copied source destination before after)
  (free : ∀ rest, rest ≠ [] → before.get? (before.place destination ++ rest) = none)

include copied free

theorem sourced_of_copied (notEmpty : rest ≠ []) {node : Node}
    (found : after.get? (before.place destination ++ rest) = some node) :
    (∀ name ∈ rest, IsEntry name) ∧ before.node? (source.extend rest) = some node := by
  rcases copied.nodes rest with same | ⟨entries, other, isOther, reached⟩
  · rw [same, free rest notEmpty] at found
    cases found
  · rw [reached] at found
    cases found
    exact ⟨entries, isOther⟩

theorem of_copied :
    Mirrors source destination before after where
  nodes rest notEmpty node found := by
    rw [place_congr copied.touches.current] at found
    obtain ⟨entries, isNode⟩ := sourced_of_copied copied free notEmpty found
    rw [← place_extend _ _ entries]
    exact get?_of_node? isNode
  reached := copied.reached
  sourced rest notEmpty entries node found := by
    have there := get?_of_node? found
    rw [place_extend _ _ entries, place_congr copied.touches.current] at there
    exact (sourced_of_copied copied free notEmpty there).2

end

theorem node?_extend (mirrors : Mirrors source destination before after) (notEmpty : rest ≠ [])
    (entries : ∀ name ∈ rest, IsEntry name) :
    after.node? (destination.extend rest) = before.node? (source.extend rest) := by
  ext node
  exact ⟨mirrors.sourced rest notEmpty entries node, mirrors.reached rest entries node⟩

theorem namedBelow (mirrors : Mirrors source destination before after)
    (named : before.NamedBelow (before.place source)) :
    after.NamedBelow (after.place destination) := by
  intro rest stood
  by_cases empty : rest = []
  · simp [empty]
  · obtain ⟨node, found⟩ := Option.isSome_iff_exists.1 stood
    exact named rest (by simp [mirrors.nodes rest empty node found])

end Mirrors

end Disk

open Disk

/-- How assets of a sort are kept: which entries of the directory are theirs, the entry of each
by its name, and the way from the entry to the file with the content. -/
structure Shelving where
  counts : String → Node → Bool
  entry : String → String
  inner : List String
  injective : ∀ name other, entry name = entry other → name = other
  proper : ∀ name ∈ inner, IsEntry name

/-- The file of an asset. -/
def Shelving.file (shelving : Shelving) (directory : Path) (name : String) : Path :=
  (directory.join (shelving.entry name)).extend shelving.inner

/-- The directory has exactly the given assets, each with its content. -/
structure Shelf (shelving : Shelving) (directory : Path) (assets : String → Option Bytes)
    (disk : Disk) : Prop where
  entries : ∀ name, (assets name).isSome = true → IsEntry (shelving.entry name)
  only : ∀ entry node, disk.get? (disk.place directory ++ [entry]) = some node →
    shelving.counts entry node = true →
    ∃ name, (assets name).isSome = true ∧ entry = shelving.entry name
  counted : ∀ name, (assets name).isSome = true → ∃ node,
    disk.node? (directory.join (shelving.entry name)) = some node ∧
      shelving.counts (shelving.entry name) node = true
  held : ∀ name content, assets name = some content →
    disk.readFile (shelving.file directory name) = .ok content

namespace Shelf

variable {shelving : Shelving} {directory : Path} {assets : String → Option Bytes}
  {name : String} {before after : Disk}

theorem of_mirrors {source destination : Path} {shelfName : String} (entry : IsEntry shelfName)
    (mirrors : Mirrors source destination before after)
    (shelf : Shelf shelving (source.join shelfName) assets before) :
    Shelf shelving (destination.join shelfName) assets after := by
  refine ⟨shelf.entries, ?_, ?_, ?_⟩
  · intro other node found
    rw [place_join after destination entry, List.append_assoc] at found
    apply shelf.only other node
    rw [place_join before source entry, List.append_assoc]
    exact mirrors.nodes _ (by simp) node found
  · intro name found
    obtain ⟨node, stands, counts⟩ := shelf.counted name found
    refine ⟨node, ?_, counts⟩
    refine mirrors.reached [shelfName, shelving.entry name] ?_ node stands
    simpa using ⟨entry, shelf.entries name found⟩
  · intro name content holds
    have held := readFile_eq_ok_iff.1 (shelf.held name content holds)
    rw [readFile_eq_ok_iff]
    refine mirrors.reached (shelfName :: shelving.entry name :: shelving.inner) ?_ _ held
    simpa using ⟨entry, shelf.entries name (by simp [holds]), shelving.proper⟩

end Shelf

variable {files : List (String × Bytes)}

open Disk

def Node.isFile : Node → Bool
  | .file _ => true
  | .directory => false

/-- Has the name this extension? -/
def Path.namedWith (name extension : String) : Bool :=
  match (splitName name).2 with
  | some found => Text.equalIgnoringCase found extension
  | none => false

theorem Path.namedWith_append (ending : String) {name extension : String}
    (dot : ending.toList = '.' :: extension.toList) (noDot : '.' ∉ extension.toList)
    (named : name ≠ "") : namedWith (name ++ ending) extension := by
  rw [namedWith, splitName_append dot noDot named]
  simp [Text.equalIgnoringCase]

namespace AssetKind

variable {place : Location}

/-- The entry of an asset in its kind's directory. -/
def entry : AssetKind → String → String
  | .view, name => name ++ ".xml"
  | .policy, name => name ++ ".zip"
  | .report, name | .metricConfig, name => name
  | _, name => name ++ ".json"

/-- Where in its entry an asset has its file. -/
def inner : AssetKind → List String
  | .report => ["content.xml"]
  | _ => []

/-- The content of an asset in the file that a server exports. -/
def content? (kind : AssetKind) (bytes : Bytes) : Option Bytes :=
  match kind with
  | .view | .report => Zip.file? bytes "content.xml"
  | .dashboard => Zip.file? bytes "dashboard/dashboard.json"
  | _ => some bytes

/-- The entries of a directory that are assets of the kind. -/
def counts : AssetKind → String → Node → Bool
  | .view, entry, node => node.isFile && namedWith entry "xml"
  | .dashboard, entry, node => node.isFile && namedWith entry "json" && entry ≠ Sharing.fileName
  | .report, _, node => !node.isFile
  | .policy, entry, node => node.isFile && namedWith entry "zip"
  | .metricConfig, _, node => node.isFile
  | _, entry, node => node.isFile && namedWith entry "json"

/-- Does the kind come over the query interface? -/
def isQueried : AssetKind → Bool
  | .alertDefinition | .symptomDefinition | .recommendation | .policy | .customGroup => true
  | _ => false

/-- Are resource files merged for the kind? -/
def hasTexts : AssetKind → Bool
  | .view | .dashboard | .superMetric => true
  | _ => false

/-- The file beside the assets of a kind. -/
def sidecar : AssetKind → Option String
  | .dashboard => some Sharing.fileName
  | .policy => some PolicyMetadata.fileName
  | _ => none

/-- The place belongs to the asset. -/
def HasPart (kind : AssetKind) (name : String) (place : Location) : Prop :=
  if kind = .report then [kind.entry name] <+: place else place = [kind.entry name]

/-- The place is among the merged resources. -/
def IsText (kind : AssetKind) (place : Location) : Prop :=
  kind.hasTexts = true ∧ ["resources"] <+: place

/-- The place belongs to no asset. -/
def IsBeside (kind : AssetKind) (place : Location) : Prop :=
  kind.IsText place ∨ ∃ file, kind.sidecar = some file ∧ place = [file]

def Allows (kind : AssetKind) (name : String) : Prop :=
  IsPlain name ∧ (kind = .dashboard → name ++ ".json" ≠ Sharing.fileName)

/-- How the assets of a kind are kept. -/
def shelving (kind : AssetKind) : Shelving where
  counts := kind.counts
  entry := kind.entry
  inner := kind.inner
  injective name other same := by cases kind <;> simpa [entry] using same
  proper name member := by
    cases kind <;> simp only [inner, List.mem_singleton, List.not_mem_nil] at member
    subst member
    decide

variable {kind : AssetKind} {name : String} {rest : Location} {other : String}

/-- An asset with a plain name has an entry of its own. -/
theorem isEntry_entry (kind : AssetKind) (plain : IsPlain name) : IsEntry (kind.entry name) := by
  have noSlash := plain.isEntry.noSlash
  cases kind with
  | report | metricConfig => exact plain.isEntry
  | _ => exact isEntry_append noSlash (by decide) (by decide)

theorem entry_injective (kind : AssetKind) (same : kind.entry name = kind.entry other) :
    name = other :=
  kind.shelving.injective name other same

theorem inner_eq_nil (notReport : kind ≠ .report) : kind.inner = [] := by
  cases kind <;> first | rfl | exact absurd rfl notReport

/-- What is handed out over the query interface is one file, with an ending, and holds the content
as it is.  There are no texts beside it. -/
theorem sort_of_isQueried (queried : kind.isQueried) :
    kind ≠ .report ∧ kind ≠ .metricConfig ∧ kind.hasTexts = false ∧
      ∀ bytes, kind.content? bytes = some bytes := by
  cases kind <;> simp_all [isQueried, content?, hasTexts]

theorem hasPart_entry (kind : AssetKind) (name : String) : kind.HasPart name [kind.entry name] := by
  unfold HasPart
  split <;> simp

theorem hasPart_of_report : report.HasPart name (name :: rest) := by
  rw [HasPart, if_pos rfl]
  exact (List.prefix_append [name] rest)

/-- All parts of an asset are below its entry. -/
theorem HasPart.head (part : kind.HasPart name place) :
    ∃ rest, place = kind.entry name :: rest := by
  unfold HasPart at part
  split at part
  · obtain ⟨rest, rfl⟩ := part
    exact ⟨rest, rfl⟩
  · exact ⟨[], part⟩

theorem counts_entry (allows : kind.Allows name) {node : Node}
    (sort : node.isFile = decide (kind ≠ .report)) : kind.counts (kind.entry name) node := by
  have named := allows.1.1
  have notSharing := allows.2
  have xml : namedWith (name ++ ".xml") "xml" :=
    namedWith_append ".xml" (by decide) (by decide) named
  have json : namedWith (name ++ ".json") "json" :=
    namedWith_append ".json" (by decide) (by decide) named
  have zip : namedWith (name ++ ".zip") "zip" :=
    namedWith_append ".zip" (by decide) (by decide) named
  cases kind <;> simp_all [counts, entry]

theorem counts_beside {first : String} (beside : kind.IsBeside (first :: rest)) (node : Node) :
    kind.counts first node = false := by
  have texts : namedWith "resources" "xml" = false ∧ namedWith "resources" "json" = false := by
    decide
  have metadata : namedWith PolicyMetadata.fileName "zip" = false := by decide
  rcases beside with ⟨hasTexts, below⟩ | ⟨file, isSidecar, here⟩
  · obtain rfl : "resources" = first := (List.cons_prefix_cons.1 below).1
    cases kind <;> simp_all [counts, AssetKind.hasTexts]
  · cases here
    cases kind <;> simp_all [counts, sidecar]

theorem entry_ne_texts (hasTexts : kind.hasTexts) (name : String) :
    kind.entry name ≠ "resources" := by
  intro same
  have noDot : '.' ∉ "resources".toList := by decide
  cases kind <;> simp [AssetKind.hasTexts] at hasTexts
  all_goals
    rw [← same] at noDot
    simp [entry] at noDot

theorem HasPart.notText (part : kind.HasPart name place) : ¬ kind.IsText place := by
  obtain ⟨rest, rfl⟩ := part.head
  rintro ⟨hasTexts, below⟩
  exact entry_ne_texts hasTexts name (List.cons_prefix_cons.1 below).1.symm

theorem HasPart.name_eq (part : kind.HasPart name place) (otherPart : kind.HasPart other place) :
    name = other := by
  obtain ⟨rest, rfl⟩ := part.head
  obtain ⟨_, same⟩ := otherPart.head
  exact kind.entry_injective (List.cons.inj same).1

/-! ## Drafts -/

theorem ne_draft {name ending text : String} (long : 4 ≤ ending.toList.length)
    (different : (ending.toList.reverse.take 4) ≠ ['p', 'm', 't', '.']) :
    name ++ ending ≠ text ++ ".tmp" := by
  intro same
  have ends := congrArg (fun text => text.toList.reverse.take 4) same
  have enough : 4 ≤ ending.toList.reverse.length := by rwa [List.length_reverse]
  simp only [String.toList_append, List.reverse_append] at ends
  rw [List.take_append_of_le_length enough] at ends
  exact different ends

theorem draft_free (notReport : kind ≠ .report) (notConfig : kind ≠ .metricConfig) (text : String) :
    ¬ kind.IsBeside [text ++ ".tmp"] ∧ ∀ name, ¬ kind.HasPart name [text ++ ".tmp"] := by
  have texts : "resources" ≠ text ++ ".tmp" := @ne_draft "" "resources" text (by decide) (by decide)
  have sharing : Sharing.fileName ≠ text ++ ".tmp" :=
    @ne_draft "" Sharing.fileName text (by decide) (by decide)
  have metadata : PolicyMetadata.fileName ≠ text ++ ".tmp" :=
    @ne_draft "" PolicyMetadata.fileName text (by decide) (by decide)
  constructor
  · rintro (⟨-, below⟩ | ⟨file, isSidecar, here⟩)
    · exact texts (List.cons_prefix_cons.1 below).1
    · rw [← (List.cons.inj here).1] at isSidecar
      cases kind with
      | dashboard => exact sharing (Option.some.inj isSidecar)
      | policy => exact metadata (Option.some.inj isSidecar)
      | _ => nomatch isSidecar
  · intro name part
    rw [HasPart, if_neg notReport, List.cons.injEq] at part
    have same := part.1.symm
    cases kind with
    | report => exact notReport rfl
    | metricConfig => exact notConfig rfl
    | _ => exact ne_draft (by decide) (by decide) same

end AssetKind

/-! ## Deliveries -/

/-- An asset as it came, with its file if there was one. -/
structure Delivery where
  kind : AssetKind
  name : String
  file : Option Bytes
  deriving DecidableEq

/-- The last content under a name. -/
def lastUnder (files : List (String × Bytes)) (name : String) : Option Bytes :=
  (files.reverse.find? fun file => file.1 = name).map Prod.snd

theorem lastUnder_of_mem {file : String × Bytes} (member : file ∈ files) :
    ∃ other ∈ files, other.1 = file.1 ∧ lastUnder files file.1 = some other.2 := by
  have found : (files.reverse.find? fun other => other.1 = file.1).isSome :=
    List.find?_isSome.2 ⟨file, by simp [member], by simp⟩
  obtain ⟨other, isOther⟩ := Option.isSome_iff_exists.1 found
  refine ⟨other, List.mem_reverse.1 (List.mem_of_find?_eq_some isOther), ?_, ?_⟩
  · simpa using List.find?_some isOther
  · rw [lastUnder, isOther]
    rfl

namespace Delivery

variable {delivery : Delivery} {kind : AssetKind}

def key (delivery : Delivery) : AssetKind × String :=
  (delivery.kind, delivery.name)

def content? (delivery : Delivery) : Option Bytes :=
  delivery.file.bind delivery.kind.content?

/-- The asset can be used, if its kind tells. -/
def Regular (delivery : Delivery) : Prop :=
  match delivery.kind with
  | .view | .dashboard | .superMetric => delivery.content?.isSome = true
  | _ => True

/-- The assets that deliveries leave. -/
def assets (deliveries : List Delivery) (kind : AssetKind) (name : String) : Option Bytes :=
  (deliveries.reverse.find? fun delivery => delivery.kind = kind ∧ delivery.name = name).bind content?

theorem assets_append (deliveries : List Delivery) (delivery : Delivery) :
    assets (deliveries ++ [delivery]) delivery.kind =
      Function.update (assets deliveries delivery.kind) delivery.name delivery.content? := by
  funext name
  by_cases same : name = delivery.name
  · simp [assets, same]
  · simp [assets, Function.update_of_ne same, Ne.symm same]

theorem assets_append_of_ne (deliveries : List Delivery) (different : delivery.kind ≠ kind) :
    assets (deliveries ++ [delivery]) kind = assets deliveries kind := by
  funext name
  simp [assets, different]

theorem assets_eq (deliveries : List Delivery) (kind : AssetKind) (name : String) :
    assets deliveries kind name =
      ((deliveries.filter fun delivery => delivery.kind = kind).reverse.find?
        fun delivery => delivery.name = name).bind content? := by
  rw [assets, ← List.filter_reverse, List.find?_filter]
  congr
  funext delivery
  by_cases isKind : delivery.kind = kind <;> simp [isKind]

theorem assets_of_files {added : List Delivery}
    (same : added.filter (fun delivery => delivery.kind = kind) =
      files.map fun file => ⟨kind, file.1, some file.2⟩)
    (whole : ∀ bytes, kind.content? bytes = some bytes) (name : String) :
    assets added kind name = lastUnder files name := by
  have perFile : (fun delivery : Delivery => decide (delivery.name = name)) ∘
      (fun file : String × Bytes => (⟨kind, file.1, some file.2⟩ : Delivery)) =
        fun file => decide (file.1 = name) := rfl
  rw [assets_eq, same, ← List.map_reverse, List.find?_map, perFile, lastUnder]
  cases files.reverse.find? fun file => file.1 = name with
  | none => rfl
  | some file => exact whole file.2

theorem mem_of_assets {deliveries : List Delivery} {name : String} {content : Bytes}
    (holds : assets deliveries kind name = some content) :
    ∃ delivery ∈ deliveries, delivery.kind = kind ∧ delivery.name = name ∧
      delivery.content? = some content := by
  obtain ⟨delivery, last, isContent⟩ := Option.bind_eq_some_iff.1 holds
  have same := List.find?_some last
  rw [decide_eq_true_eq] at same
  exact ⟨delivery, List.mem_reverse.1 (List.mem_of_find?_eq_some last), same.1, same.2, isContent⟩

end Delivery

namespace ChannelKind

/-- What the channel writes for an asset. -/
def fileName : ChannelKind → String → String
  | .view, name | .dashboard, name | .report, name => name ++ ".zip"
  | .superMetric, name => name ++ ".json"
  | .metricConfig, name => name

end ChannelKind

end OpsContent
