import Mathlib.Algebra.GroupWithZero.Nat
import Mathlib.Data.List.Nodup
import OpsContent.Proofs.ExportKinds
import OpsContent.Proofs.Uploads
import OpsContent.Remote.Ssh

/-!
# Queued files

The sources of each kind are queued one after another.  What is queued for one source does not
disturb the others, so that at the end every source has its file in the queue and the file holds
its content, as long as no two sources of a kind are given the same file.
-/

namespace OpsContent

open OpsContent.Path Disk List

variable {ρ : Type} {α : Type} {package : Package} {description : String}
  {words : ChannelError → String} {value : α}
variable {world : World ρ} {stats result : ImportStats} {after : World ρ}

/-- What a channel has queued: every file that is queued is put at the end, and connecting
changes nothing. -/
structure Channel.Pends (channel : Channel ρ) (pending : ρ → List Ssh.Pending) : Prop where
  enqueue : ∀ kind file disk site after, channel.enqueue kind file disk site = (.ok (), after) →
    pending after.remote = pending site.remote ++ [⟨kind, file⟩]
  connect : ∀ site, pending (channel.connect site).2.remote = pending site.remote

theorem Channel.run_ok {step : StateM (World ρ) (Except ChannelError α)}
    (done : Channel.run package description words step world = (.ok value, after)) :
    step world = (.ok value, after) := by
  unfold Channel.run at done
  split at done
  next ran =>
    cases done
    exact ran
  · cases done

theorem Channel.run_onSite_ok {step : ChannelAction ρ α}
    (done : Channel.run package description words (World.onSite step) world = (.ok value, after)) :
    step world.site = (.ok value, after.site) ∧ after.disk = world.disk := by
  obtain ⟨ran, rfl⟩ := Prod.mk.inj (Channel.run_ok done)
  exact ⟨Prod.ext ran rfl, rfl⟩

theorem Channel.session_ok {channel : Channel ρ} {steps : Sync ρ α}
    (done : channel.session package description words steps world = (.ok value, after)) :
    ∃ opened closed, channel.connect world.site = (.ok (), opened.site) ∧
      opened.disk = world.disk ∧ steps opened = (.ok value, closed) ∧
      after = (World.onSite channel.close closed).2 := by
  obtain ⟨_, opened, connecting, concluding⟩ := exceptBind_ok done
  obtain ⟨connected, sameDisk⟩ := run_onSite_ok connecting
  obtain ⟨closed, ran, isAfter⟩ := concluding_ok concluding
  exact ⟨opened, closed, connected, sameDisk, ran, isAfter⟩

namespace Import

open Staging

variable {context : Context ρ} {pending : ρ → List Ssh.Pending} {kinds : List ChannelKind}
  {kind : ChannelKind} {directory : Path}

theorem enqueue_ok {file : Path}
    (done : enqueue context kind file stats world = (.ok result, after)) :
    after.disk = world.disk ∧ result = stats.addQueued kind.assetKind 1 ∧
      ∀ pending, context.channel.Pends pending →
        pending after.site.remote = pending world.site.remote ++ [⟨kind, file⟩] := by
  unfold enqueue at done
  obtain ⟨description, first, described, done⟩ := exceptBind_ok done
  cases always_ok described
  replace done := lookBind_eq done
  obtain ⟨_, third, ran, done⟩ := exceptBind_ok done
  obtain ⟨rfl, rfl⟩ := pure_ok done
  obtain ⟨queued, sameDisk⟩ := Channel.run_onSite_ok ran
  exact ⟨sameDisk, rfl, fun _ pends => pends.enqueue kind file _ _ _ queued⟩

/-! ## The sources of one kind -/

/-- The names of sources of a kind in a directory: none is the file that is queued for another
one, and each is what a source of the kind has to be. -/
structure AreSources (kind : ChannelKind) (directory : Path) (names : List String)
    (disk : Disk) : Prop where
  nodup : names.Nodup
  entries : ∀ name ∈ names, IsEntry name
  apart : kind = .view ∨ kind = .dashboard →
    ∀ name ∈ names, ∀ other ∈ names, queuedName kind name ≠ other
  files : layoutOf kind = none → ∀ name ∈ names, disk.isFile (directory.join name) = true
  directories : kind = .report → ∀ name ∈ names,
    disk.get? (disk.place directory ++ [name]) = some .directory

section

variable {kind : ChannelKind} {directory : Path} {name other : String} {names : List String}
  {disk after : Disk}

theorem AreSources.untouched (are : AreSources kind directory (name :: names) disk)
    (differ : FilesDiffer (disk.place directory) disk after)
    (others : ∀ other, other ∉ touched kind name →
      after.get? (disk.place directory ++ [other]) = disk.get? (disk.place directory ++ [other]))
    (member : other ∈ names) :
    after.get? (disk.place directory ++ [other]) =
      disk.get? (disk.place directory ++ [other]) := by
  have different : other ≠ name := by
    rintro rfl
    exact (nodup_cons.1 are.nodup).1 member
  have here : name ∈ name :: names := by simp
  have there : other ∈ name :: names := by simp [member]
  cases kind with
  | view =>
    exact others other
      (by simp [touched, different, (are.apart (.inl rfl) _ here _ there).symm])
  | dashboard =>
    exact others other
      (by simp [touched, different, (are.apart (.inr rfl) _ here _ there).symm])
  | report =>
    have stood := are.directories rfl other there
    rw [stood, differ.directories]
    exact stood
  | superMetric => exact others other (by simp [touched])
  | metricConfig => exact others other (by simp [touched])

theorem AreSources.tail (are : AreSources kind directory (name :: names) disk)
    (stands : disk.isDirectory directory)
    (differ : FilesDiffer (disk.place directory) disk after)
    (untouched : ∀ other ∈ names, after.get? (disk.place directory ++ [other]) =
      disk.get? (disk.place directory ++ [other])) :
    AreSources kind directory names after where
  nodup := (nodup_cons.1 are.nodup).2
  entries other member := are.entries other (by simp [member])
  apart isArchive one oneMember two twoMember :=
    are.apart isArchive one (by simp [oneMember]) two (by simp [twoMember])
  files isPlain other member := by
    have entry := are.entries other (by simp [member])
    have found := node?_congr differ.current.symm fun location onWay =>
      differ.onWay_join stands entry (untouched other member) onWay
    rw [isFile, ← found]
    exact are.files isPlain other (by simp [member])
  directories isReport other member := by
    rw [place_congr differ.current, differ.directories]
    exact are.directories isReport other (by simp [member])

theorem readFile_contentFile {top : Location} (stands : disk.isDirectory directory)
    (differ : FilesDiffer top disk after) (entry : IsEntry other)
    (untouched : after.get? (disk.place directory ++ [other]) =
      disk.get? (disk.place directory ++ [other]))
    (untouchedBelow : ∀ name, after.get? (disk.place directory ++ [other, name]) =
      disk.get? (disk.place directory ++ [other, name])) :
    after.readFile (contentFile kind (directory.join other)) =
      disk.readFile (contentFile kind (directory.join other)) := by
  have onPath : ∀ location, disk.OnWay (directory.join other) location →
      disk.get? location = after.get? location := fun location =>
    differ.onWay_join stands entry untouched
  symm
  apply readFile_congr differ.current.symm
  intro location onWay
  cases kind with
  | report =>
    have isName : IsEntry "content.xml" := by decide
    rcases onWay_join isName onWay with here | above
    · rw [here, place_join _ _ isName, place_join _ _ entry, append_assoc]
      exact (untouchedBelow "content.xml").symm
    · exact onPath location above
  | view => exact onPath location onWay
  | dashboard => exact onPath location onWay
  | superMetric => exact onPath location onWay
  | metricConfig => exact onPath location onWay

theorem AreSources.notTouched (are : AreSources kind directory names disk)
    (unique : (names.map (queuedName kind)).Nodup) (member : name ∈ names)
    (otherMember : other ∈ names) (different : name ≠ other) :
    queuedName kind name ∉ touched kind other := by
  have distinct : queuedName kind name ≠ queuedName kind other := fun same =>
    different (inj_on_of_nodup_map unique member otherMember same)
  cases kind with
  | view => simp [touched, distinct, are.apart (.inl rfl) name member other otherMember]
  | dashboard => simp [touched, distinct, are.apart (.inr rfl) name member other otherMember]
  | report => simp [touched, distinct]
  | superMetric => simp [touched]
  | metricConfig => simp [touched]

end

/-- The sources of a kind were queued. -/
structure Queued (context : Context ρ) (kind : ChannelKind) (directory : Path)
    (names : List String) (before after : World ρ) : Prop where
  queue : ∀ pending, context.channel.Pends pending →
    pending after.site.remote = pending before.site.remote ++
      names.map fun name => ⟨kind, directory.join (queuedName kind name)⟩
  rooms : ∀ name ∈ names, Room directory (queuedName kind name)
  differ : FilesDiffer (before.disk.place directory) before.disk after.disk
  others : ∀ other, (∀ name ∈ names, other ∉ touched kind name) →
    after.disk.get? (before.disk.place directory ++ [other]) =
      before.disk.get? (before.disk.place directory ++ [other])
  packs : (names.map (queuedName kind)).Nodup → ∀ name ∈ names, ∃ content bytes,
    before.disk.readFile (contentFile kind (directory.join name)) = .ok content ∧
      Packs kind content bytes ∧
      after.disk.get? (before.disk.place directory ++ [queuedName kind name]) = some (.file bytes)

/-- Queueing goes source by source. -/
theorem enqueueEach_ok (ends : directory.EndsInName) {names : List String}
    (stands : world.disk.isDirectory directory)
    (are : AreSources kind directory names world.disk)
    (done : enqueueEach context kind (build kind) stats (names.map directory.join) world =
      (.ok result, after)) : Queued context kind directory names world after := by
  induction names generalizing world stats with
  | nil =>
    obtain ⟨-, rfl⟩ := pure_ok done
    exact ⟨by simp, by simp, FilesDiffer.refl _ _, fun _ _ => rfl, by simp⟩
  | cons name rest ih =>
    obtain ⟨file, built, ran, remaining⟩ := exceptBind_ok done
    obtain ⟨more, queued, enqueued, finished⟩ := exceptBind_ok remaining
    have entry := are.entries name (by simp)
    obtain ⟨rfl, prepared⟩ := build_ok ends stands entry
      (fun isArchive => are.apart isArchive name (by simp) name (by simp))
      (fun isPlain => are.files isPlain name (by simp)) ran
    obtain ⟨sameDisk, -, queue⟩ := enqueue_ok enqueued
    have untouched : ∀ other ∈ rest,
        queued.disk.get? (world.disk.place directory ++ [other]) =
          world.disk.get? (world.disk.place directory ++ [other]) := by
      intro other member
      rw [sameDisk]
      exact are.untouched prepared.differ prepared.others member
    have differ : FilesDiffer (world.disk.place directory) world.disk queued.disk := by
      rw [sameDisk]
      exact prepared.differ
    have later := ih (differ.isDirectory stands) (are.tail stands differ untouched) finished
    have samePlace := place_congr differ.current directory
    refine ⟨?_, ?_, ?_, ?_, ?_⟩
    · intro pending pends
      rw [later.queue pending pends, queue pending pends, prepared.remote]
      simp
    · intro one member
      rcases mem_cons.1 member with rfl | inRest
      · exact prepared.room
      · exact later.rooms one inRest
    · have laterDiffer := later.differ
      rw [samePlace] at laterDiffer
      exact differ.trans laterDiffer
    · intro other free
      have laterOthers := later.others other (forall_mem_cons.1 free).2
      rw [samePlace, sameDisk] at laterOthers
      rw [laterOthers]
      exact prepared.others other (free name (by simp))
    · intro unique one member
      rw [map_cons, nodup_cons] at unique
      rcases mem_cons.1 member with rfl | inRest
      · obtain ⟨content, bytes, read, packs, written⟩ := prepared.packs
        refine ⟨content, bytes, read, packs, ?_⟩
        have kept := later.others (queuedName kind one) fun other otherMember =>
          are.notTouched (by simpa using unique) (by simp) (by simp [otherMember])
            (by rintro rfl; exact (nodup_cons.1 are.nodup).1 otherMember)
        rw [samePlace, sameDisk] at kept
        rw [kept, written]
      · obtain ⟨content, bytes, read, packs, written⟩ := later.packs unique.2 one inRest
        rw [samePlace] at written
        rw [readFile_contentFile stands differ (are.entries one (by simp [inRest]))
          (untouched one inRest) fun other => differ.elsewhere _ (by simp)] at read
        exact ⟨content, bytes, read, packs, written⟩

/-! ## All kinds -/

/-- Is the path a source of the kind? -/
def isSource (disk : Disk) : ChannelKind → Path → Bool
  | .view, path => disk.isFile path && path.hasExtension "xml"
  | .dashboard, path =>
    disk.isFile path && path.hasExtension "json" && path.fileName? ≠ some Sharing.fileName
  | .report, path => disk.isDirectory path
  | .superMetric, path => disk.isFile path && path.hasExtension "json"
  | .metricConfig, path => disk.isFile path

/-- The names of the sources of a kind. -/
def sourceNames (context : Context ρ) (disk : Disk) (kind : ChannelKind) : List String :=
  let directory := context.directory kind.assetKind
  if disk.isDirectory directory then
    (disk.children (disk.place directory)).filter fun name =>
      isSource disk kind (directory.join name)
  else []

theorem sources_eq (context : Context ρ) (disk : Disk) (kind : ChannelKind) :
    sources context disk kind =
      (sourceNames context disk kind).map (context.directory kind.assetKind).join := by
  cases kind with
  | view => exact listWhere_eq _ _ _
  | dashboard =>
    rw [sources, listFiles, listWhere_eq, filter_map, sourceNames]
    split
    · rw [filter_filter]
      congr 2
      funext name
      simp [isSource, Bool.and_comm]
    · rfl
  | report => exact listWhere_eq _ _ _
  | superMetric => exact listWhere_eq _ _ _
  | metricConfig =>
    rw [sources, listFiles, listWhere_eq, sourceNames]
    simp [isSource]

section

variable {disk after : Disk} {kind : ChannelKind} {name : String}

theorem mem_sourceNames (member : name ∈ sourceNames context disk kind) :
    disk.isDirectory (context.directory kind.assetKind) ∧
      name ∈ disk.children (disk.place (context.directory kind.assetKind)) ∧
      isSource disk kind ((context.directory kind.assetKind).join name) := by
  unfold sourceNames at member
  dsimp only at member
  split at member
  next stands => exact ⟨stands, mem_filter.1 member⟩
  · simp at member

theorem nodup_sourceNames (context : Context ρ) (disk : Disk) (kind : ChannelKind) :
    (sourceNames context disk kind).Nodup := by
  unfold sourceNames
  dsimp only
  split
  · exact (nodup_children _ _).filter _
  · exact nodup_nil

theorem queuedName_ne_of_hasExtension {other extension : String}
    (isArchive : kind = .view ∨ kind = .dashboard) (entry : IsEntry name)
    (otherEnds : (directory.join other).hasExtension extension)
    (notZip : Text.equalIgnoringCase "zip" extension = false) : queuedName kind name ≠ other := by
  have queued : queuedName kind name = (splitName name).1 ++ ".zip" := by
    rcases isArchive with rfl | rfl <;> rfl
  have ends := @hasExtension_append directory (splitName name).1 ".zip" "zip".toList (by decide)
    (by decide) (isEntry_base_append entry (by decide) (by decide)) extension notZip
  rintro rfl
  rw [queued, ends] at otherEnds
  cases otherEnds

theorem place_directory (context : Context ρ) (disk : Disk) (kind : AssetKind) :
    disk.place (context.directory kind) = disk.place context.staging ++ [kind.directory] :=
  place_join disk context.staging kind.isEntry_directory

section

variable (named : disk.NamedBelow (disk.place context.staging))

include named

theorem isEntry_child
    (member : name ∈ disk.children (disk.place (context.directory kind.assetKind))) :
    IsEntry name := by
  rw [place_directory] at member
  exact isEntry_of_mem_children (named.append _) member

theorem isEntry_sourceNames (member : name ∈ sourceNames context disk kind) : IsEntry name :=
  isEntry_child named (mem_sourceNames member).2.1

theorem areSources :
    AreSources kind (context.directory kind.assetKind) (sourceNames context disk kind) disk := by
  have entries : ∀ name ∈ sourceNames context disk kind, IsEntry name := fun name =>
    isEntry_sourceNames named
  refine ⟨nodup_sourceNames context disk kind, entries, ?_, ?_, ?_⟩
  · intro isArchive name member other otherMember
    have isOther := (mem_sourceNames otherMember).2.2
    rcases isArchive with rfl | rfl
    · rw [isSource, Bool.and_eq_true] at isOther
      exact queuedName_ne_of_hasExtension (.inl rfl) (entries name member) isOther.2 (by decide)
    · rw [isSource, Bool.and_eq_true, Bool.and_eq_true] at isOther
      exact queuedName_ne_of_hasExtension (.inr rfl) (entries name member) isOther.1.2 (by decide)
  · intro isPlain name member
    have isSource := (mem_sourceNames member).2.2
    cases kind with
    | superMetric =>
      rw [Import.isSource, Bool.and_eq_true] at isSource
      exact isSource.1
    | metricConfig => exact isSource
    | view => cases isPlain
    | dashboard => cases isPlain
    | report => cases isPlain
  · rintro rfl name member
    have isSource := (mem_sourceNames member).2.2
    have stands := get?_of_node? (isDirectory_iff_node?.1 isSource)
    rw [place_join _ _ (entries name member)] at stands
    exact stands

/-! ### Kinds apart -/

end

theorem eq_of_directory_eq {other : ChannelKind}
    (same : kind.assetKind.directory = other.assetKind.directory) : kind = other := by
  revert same
  cases kind <;> cases other <;> decide

theorem entry_ne {other : ChannelKind} (different : kind ≠ other) (context : Context ρ)
    (disk : Disk) (one two : String) :
    disk.place (context.directory kind.assetKind) ++ [one] ≠
      disk.place (context.directory other.assetKind) ++ [two] := by
  rw [place_directory, place_directory]
  intro same
  have tops := (append_inj' same rfl).1
  exact different (eq_of_directory_eq (by simpa using tops))

theorem entry_below_ne {other : ChannelKind} (context : Context ρ)
    (disk : Disk) (one two three : String) :
    disk.place (context.directory kind.assetKind) ++ [one, two] ≠
      disk.place (context.directory other.assetKind) ++ [three] := by
  intro same
  have lengths := congrArg List.length same
  rw [place_directory, place_directory] at lengths
  simp at lengths

variable {other : ChannelKind}

variable (different : kind ≠ other) (named : disk.NamedBelow (disk.place context.staging))
  (differ : FilesDiffer (disk.place (context.directory other.assetKind)) disk after)

include different named differ

theorem sourceNames_of_differ : sourceNames context after kind = sourceNames context disk kind := by
  have untouched : ∀ name, after.get? (disk.place (context.directory kind.assetKind) ++ [name]) =
      disk.get? (disk.place (context.directory kind.assetKind) ++ [name]) := fun name =>
    differ.elsewhere _ (entry_ne different context disk name)
  have samePlace := place_congr differ.current (context.directory kind.assetKind)
  unfold sourceNames
  dsimp only
  by_cases stands : disk.isDirectory (context.directory kind.assetKind)
  · have listed : after.children (disk.place (context.directory kind.assetKind)) =
        disk.children (disk.place (context.directory kind.assetKind)) :=
      children_congr fun name => by rw [untouched name]
    rw [if_pos stands, if_pos (differ.isDirectory stands), samePlace, listed]
    apply filter_congr
    intro name member
    have entry := isEntry_child named member
    have found : disk.node? ((context.directory kind.assetKind).join name) =
        after.node? ((context.directory kind.assetKind).join name) :=
      node?_congr differ.current.symm fun location onWay =>
        differ.onWay_join stands entry (untouched name) onWay
    cases kind <;> simp [isSource, isFile, isDirectory, found]
  · rw [if_neg stands, if_neg fun later => stands ((differ.isDirectory_iff _).1 later)]

theorem readFile_of_differ (member : name ∈ sourceNames context disk kind) :
    after.readFile (contentFile kind ((context.directory kind.assetKind).join name)) =
      disk.readFile (contentFile kind ((context.directory kind.assetKind).join name)) := by
  obtain ⟨stands, inside, -⟩ := mem_sourceNames member
  exact readFile_contentFile stands differ (isEntry_child named inside)
    (differ.elsewhere _ (entry_ne different context disk name))
    fun below => differ.elsewhere _ (entry_below_ne context disk name below)

end

theorem enqueueKind_ok (named : world.disk.NamedBelow (world.disk.place context.staging))
    (done : enqueueEach context kind (build kind) stats (sources context world.disk kind) world =
      (.ok result, after)) :
    Queued context kind (context.directory kind.assetKind)
        (sourceNames context world.disk kind) world after ∧
      after.disk.NamedBelow (after.disk.place context.staging) := by
  rw [sources_eq] at done
  by_cases stands : world.disk.isDirectory (context.directory kind.assetKind)
  · have ends : (context.directory kind.assetKind).EndsInName :=
      endsInName_join _ kind.assetKind.isEntry_directory
    have queued := enqueueEach_ok ends stands (areSources named) done
    rw [place_congr queued.differ.current]
    refine ⟨queued, queued.differ.namedBelow (place_directory context _ _) named ?_⟩
    simpa using kind.assetKind.isEntry_directory
  · have none : sourceNames context world.disk kind = [] := if_neg stands
    rw [none] at done ⊢
    obtain ⟨-, rfl⟩ := pure_ok done
    exact ⟨⟨by simp, by simp, FilesDiffer.refl _ _, fun _ _ => rfl, by simp⟩, named⟩

theorem enqueueEach_counts {build : Path → Sync ρ Path} {files : List Path}
    (done : enqueueEach context kind build stats files world = (.ok result, after)) :
    result.pushed = stats.pushed ∧ ∀ other, result.queued.count other =
      stats.queued.count other + if other = kind.assetKind then files.length else 0 := by
  induction files generalizing stats world with
  | nil =>
    obtain ⟨rfl, -⟩ := pure_ok done
    simp
  | cons file rest ih =>
    obtain ⟨_, built, -, remaining⟩ := exceptBind_ok done
    obtain ⟨_, queued, enqueued, finished⟩ := exceptBind_ok remaining
    obtain ⟨-, rfl, -⟩ := enqueue_ok enqueued
    obtain ⟨samePushed, counts⟩ := ih finished
    refine ⟨samePushed, fun other => ?_⟩
    rw [counts other, ImportStats.addQueued, Counts.count_add]
    by_cases same : other = kind.assetKind
    · simp only [same, if_true, length_cons]
      omega
    · simp [same]

/-- The sources of the kinds were prepared and queued, kind by kind. -/
structure PreparedAll (context : Context ρ) (kinds : List ChannelKind) (before after : World ρ) :
    Prop where
  queues : ∀ pending, context.channel.Pends pending →
    pending after.site.remote = pending before.site.remote ++
      kinds.flatMap fun kind => (sourceNames context before.disk kind).map fun name =>
        ⟨kind, (context.directory kind.assetKind).join (queuedName kind name)⟩
  rooms : ∀ kind ∈ kinds, ∀ name ∈ sourceNames context before.disk kind,
    Room (context.directory kind.assetKind) (queuedName kind name)
  current : after.disk.current = before.disk.current
  elsewhere : ∀ location,
    (∀ kind ∈ kinds, ∀ name,
      location ≠ before.disk.place (context.directory kind.assetKind) ++ [name]) →
    after.disk.get? location = before.disk.get? location
  directories : ∀ location, after.disk.get? location = some .directory ↔
    before.disk.get? location = some .directory
  named : after.disk.NamedBelow (after.disk.place context.staging)
  packs : ∀ kind ∈ kinds, ((sourceNames context before.disk kind).map (queuedName kind)).Nodup →
    ∀ name ∈ sourceNames context before.disk kind, ∃ content bytes,
      before.disk.readFile (contentFile kind ((context.directory kind.assetKind).join name)) =
          .ok content ∧
        Packs kind content bytes ∧
        after.disk.get? (before.disk.place (context.directory kind.assetKind) ++
          [queuedName kind name]) = some (.file bytes)

/-- Queueing goes kind by kind, and every source is counted. -/
theorem enqueueKinds_prepares (distinct : kinds.Nodup)
    (named : world.disk.NamedBelow (world.disk.place context.staging))
    (done : enqueueKinds context stats kinds world = (.ok result, after)) :
    PreparedAll context kinds world after ∧ result.pushed = stats.pushed ∧
      ∀ other, result.queued.count other = stats.queued.count other +
        ((kinds.filter fun kind => kind.assetKind = other).map fun kind =>
          (sourceNames context world.disk kind).length).sum := by
  induction kinds generalizing stats world with
  | nil =>
    obtain ⟨rfl, rfl⟩ := pure_ok done
    exact ⟨⟨by simp, by simp, rfl, fun _ _ => rfl, fun _ => Iff.rfl, named, by simp⟩, by simp⟩
  | cons kind rest ih =>
    have remaining := lookBind_eq done
    obtain ⟨more, between, ran, finished⟩ := exceptBind_ok remaining
    obtain ⟨notLater, distinctRest⟩ := nodup_cons.1 distinct
    obtain ⟨queued, namedBetween⟩ := enqueueKind_ok named ran
    obtain ⟨samePushed, counts⟩ := enqueueEach_counts ran
    obtain ⟨later, stillPushed, countsLater⟩ := ih distinctRest namedBetween finished
    have apart : ∀ other ∈ rest, other ≠ kind := by
      rintro other member rfl
      exact notLater member
    have sameNames : ∀ other ∈ rest,
        sourceNames context between.disk other = sourceNames context world.disk other :=
      fun other member => sourceNames_of_differ (apart other member) named queued.differ
    have samePlace := fun path => place_congr queued.differ.current path
    refine ⟨⟨?_, ?_, ?_, ?_, ?_, later.named, ?_⟩, stillPushed.trans samePushed, ?_⟩
    · intro pending pends
      rw [later.queues pending pends, queued.queue pending pends, flatMap_cons,
        append_assoc]
      congr 2
      exact flatMap_congr fun other member => by rw [sameNames other member]
    · intro other member name inNames
      rcases mem_cons.1 member with rfl | inRest
      · exact queued.rooms name inNames
      · exact later.rooms other inRest name (by rwa [sameNames other inRest])
    · exact later.current.trans queued.differ.current
    · intro location free
      rw [later.elsewhere location fun other member => ?_,
        queued.differ.elsewhere location (free kind (by simp))]
      rw [samePlace]
      exact free other (by simp [member])
    · exact fun location => (later.directories location).trans (queued.differ.directories location)
    · intro other member unique name inNames
      rcases mem_cons.1 member with rfl | inRest
      · obtain ⟨content, bytes, read, packs, written⟩ := queued.packs unique name inNames
        refine ⟨content, bytes, read, packs, ?_⟩
        rw [later.elsewhere _ fun one oneMember two => ?_, written]
        rw [samePlace]
        exact entry_ne (apart one oneMember).symm context world.disk _ two
      · rw [← sameNames other inRest] at unique
        obtain ⟨content, bytes, read, packs, written⟩ :=
          later.packs other inRest unique name (by rwa [sameNames other inRest])
        rw [samePlace] at written
        rw [readFile_of_differ (apart other inRest) named queued.differ inNames] at read
        exact ⟨content, bytes, read, packs, written⟩
    · intro other
      have sameLengths : ((rest.filter fun kind => kind.assetKind = other).map fun kind =>
          (sourceNames context between.disk kind).length) =
          (rest.filter fun kind => kind.assetKind = other).map fun kind =>
            (sourceNames context world.disk kind).length :=
        map_congr_left fun one member => by
          rw [sameNames one (mem_of_mem_filter member)]
      rw [countsLater other, counts other, sameLengths, sources_eq, length_map,
        filter_cons]
      by_cases same : kind.assetKind = other
      · simp [same, Nat.add_assoc]
      · simp [same, Ne.symm same]

/-- The sources of the kinds were queued on a channel that keeps them in order. -/
structure QueuedAll (pending : ρ → List Ssh.Pending) (context : Context ρ)
    (kinds : List ChannelKind) (before after : World ρ) : Prop
    extends PreparedAll context kinds before after where
  queue : pending after.site.remote = pending before.site.remote ++
    kinds.flatMap fun kind => (sourceNames context before.disk kind).map fun name =>
      ⟨kind, (context.directory kind.assetKind).join (queuedName kind name)⟩

theorem enqueueKinds_ok (pends : context.channel.Pends pending) (distinct : kinds.Nodup)
    (named : world.disk.NamedBelow (world.disk.place context.staging))
    (done : enqueueKinds context stats kinds world = (.ok result, after)) :
    QueuedAll pending context kinds world after :=
  have prepared := (enqueueKinds_prepares distinct named done).1
  ⟨prepared, prepared.queues pending pends⟩

/-- What is queued for a source has its content. -/
theorem QueuedAll.readFile {before : World ρ} (all : QueuedAll pending context kinds before after)
    (member : kind ∈ kinds)
    (unique : ((sourceNames context before.disk kind).map (queuedName kind)).Nodup) {name : String}
    (inNames : name ∈ sourceNames context before.disk kind) :
    ∃ content bytes,
      before.disk.readFile (contentFile kind ((context.directory kind.assetKind).join name)) =
          .ok content ∧
        Packs kind content bytes ∧
        after.disk.readFile ((context.directory kind.assetKind).join (queuedName kind name)) =
          .ok bytes := by
  obtain ⟨content, bytes, read, packs, written⟩ := all.packs kind member unique name inNames
  refine ⟨content, bytes, read, packs, ?_⟩
  have stands := isDirectory_of_directories all.current
    (fun location _ => (all.directories location).2) (mem_sourceNames inNames).1
  rw [readFile_eq_ok_iff, node?_join stands (all.rooms kind member name inNames),
    place_congr all.current, written]

end Import

end OpsContent
