import OpsContent.Proofs.StagedAssets

/-!
# Projects

An export into an empty project leaves there what it has staged and nothing else, and an import
works on a copy of the project.  So what an import unpacks is what the export has staged.
-/

namespace OpsContent

open OpsContent.Path Disk Staging

variable {ρ : Type} {world after : World ρ} {base disk : Disk} {location : Location} {zone : Zone}
  {α : Type}

namespace Disk

variable {disk before after : Disk} {directory parent : Path} {name : String} {path : Path}

/-- A directory with nothing below it. -/
structure IsEmptyDirectory (disk : Disk) (path : Path) : Prop where
  stands : disk.isDirectory path = true
  free : ∀ rest, rest ≠ [] → disk.get? (disk.place path ++ rest) = none

/-- The path does not pass the directory or anything below it. -/
def PassesBy (disk : Disk) (directory path : Path) : Prop :=
  ∀ location, disk.OnWay path location → isBelow (disk.place directory) location = false

/-- Whether a path passes by a directory can be computed. -/
theorem passesBy_iff : disk.PassesBy directory path ↔
    ∀ beginning ∈ path.pieces.inits,
      isBelow (disk.place directory) (follow (disk.start path) beginning) = false :=
  forall_onWay_iff

theorem PassesBy.congr (same : after.current = before.current)
    (passes : before.PassesBy directory parent) : after.PassesBy directory parent := by
  intro location onWay
  rw [place_congr same]
  exact passes location (onWay_congr same onWay)

section

variable (passes : disk.PassesBy directory parent)

include passes

/-- What is missing on the way to the path, or on the way to the directory, is not in the
directory. -/
theorem PassesBy.outside_of_onWay (stands : disk.isDirectory directory)
    (onWay : disk.OnWay parent location ∨ disk.OnWay directory location)
    (absent : disk.get? location = none) : isBelow (disk.place directory) location = false := by
  rcases onWay with toPath | toDirectory
  · exact passes location toPath
  · rw [directory_of_onWay stands toDirectory] at absent
    cases absent

theorem PassesBy.place_ne_nil : disk.place directory ≠ [] := by
  intro root
  have outside := passes _ (onWay_place disk parent)
  simp [root, isBelow] at outside

theorem PassesBy.apart (free : name ∉ disk.place directory) :
    Apart (disk.place directory) (disk.place parent ++ [name]) := by
  constructor
  · intro below
    rcases List.prefix_concat_iff.1 below with same | early
    · exact free (by simp [same])
    · have outside := passes _ (onWay_place disk parent)
      rw [isBelow_iff.2 early] at outside
      cases outside
  · intro below
    exact free (below.subset (by simp))

theorem PassesBy.join (entry : IsEntry name)
    (free : name ∉ disk.place directory) : disk.PassesBy directory (parent.join name) := by
  intro location onWay
  rcases onWay_join entry onWay with here | above
  · rw [here, place_join disk parent entry]
    have apart := (passes.apart free).isBelow []
    rwa [List.append_nil] at apart
  · exact passes location above

end

/-- A path leads to a place apart from a directory, and the way to the directory does not come
there. -/
structure Beside (disk : Disk) (path directory : Path) : Prop where
  apart : Apart (disk.place path) (disk.place directory)
  onWay : ∀ location, disk.OnWay directory location → isBelow (disk.place path) location = false

theorem Beside.touchesBelow (beside : before.Beside path directory)
    (current : after.current = before.current)
    (outside : ∀ location, isBelow (before.place path) location = false →
      after.get? location = before.get? location) :
    TouchesBelow directory (fun _ => False) before after := by
  have same := fun rest => outside _ (beside.apart.isBelow rest)
  refine ⟨current, fun stands => ?_, fun rest _ => same rest,
    fun rest stands => (same rest).trans stands⟩
  refine isDirectory_of_directories current (fun location passed directory => ?_) stands
  rw [outside location (beside.onWay location passed)]
  exact directory

theorem OpensOnly.touchesBelow (opens : OpensOnly (before.OnWay path) before after)
    (passes : before.PassesBy directory path) :
    TouchesBelow directory (fun _ => False) before after := by
  apply opens.touches.below
  rintro rest ⟨onWay, -⟩
  have outside := passes _ onWay
  rw [isBelow_append] at outside
  cases outside

/-- A directory is empty and apart from another one, which is as it was and can be copied to it. -/
structure ReadyFor (source destination : Path) (before base : Disk) : Prop where
  stands : base.isDirectory source = true
  empty : base.IsEmptyDirectory destination
  apart : Apart (base.place source) (base.place destination)
  mirrors : Mirrors source source before base

end Disk

/-! ## New scratch directories -/

namespace World.Fresh

variable {world : World ρ} {parent directory : Path} {stem : String} {base : Disk}

theorem notMem_of_stands (fresh : world.Fresh parent stem)
    (stands : world.disk.isDirectory directory) (onWay : world.disk.OnWay directory location) :
    world.nextName stem ∉ location := by
  apply fresh.disk
  rw [directory_of_onWay stands onWay]
  rfl

theorem notMem_pieces_of_stands (fresh : world.Fresh parent stem)
    (entry : IsEntry (world.nextName stem)) (stands : world.disk.isDirectory directory) :
    world.nextName stem ∉ directory.pieces := by
  intro member
  obtain ⟨early, later, split⟩ := List.append_of_mem member
  refine fresh.notMem_of_stands stands
    ⟨early ++ [world.nextName stem], ⟨later, by simp [split]⟩, rfl⟩ ?_
  rw [follow_append, follow_cons, follow_nil, advance_entry _ entry]
  simp

theorem of_opensOnly (fresh : world.Fresh parent stem)
    (opens : OpensOnly (world.disk.OnWay parent) world.disk base) :
    ({ world with disk := base } : World ρ).Fresh parent stem where
  tags := fresh.tags
  current := by
    rw [opens.current]
    exact fresh.current
  parent := fresh.parent
  disk := by
    intro location stands
    rcases opens.nodes location with same | ⟨onWay, -⟩
    · rw [same] at stands
      exact fresh.disk location stands
    · exact fresh.notMem_of_onWay rfl onWay

end World.Fresh

namespace World.Made

variable {world : World ρ} {parent directory : Path} {stem : String} {base : Disk}
  (made : world.Made parent stem base)

include made

theorem isEmptyDirectory : base.IsEmptyDirectory (parent.join (world.nextName stem)) := by
  refine ⟨made.isDirectory, fun rest notEmpty => ?_⟩
  have reached := place_join world.disk parent made.entry
  rw [place_congr made.opens.current, reached]
  have member : world.nextName stem ∈ world.disk.place parent ++ [world.nextName stem] ++ rest := by
    simp
  rcases made.opens.nodes (world.disk.place parent ++ [world.nextName stem] ++ rest) with
    same | ⟨onWay, -⟩
  · cases stood : world.disk.get? (world.disk.place parent ++ [world.nextName stem] ++ rest) with
    | none => rw [same, stood]
    | some node => exact absurd member (made.disk _ (by rw [stood]; rfl))
  · exfalso
    rcases onWay_join made.entry onWay with here | above
    · rw [reached] at here
      exact notEmpty (by simpa using here)
    · exact made.notMem_of_onWay rfl above member

variable (stands : world.disk.isDirectory directory)
  (passes : world.disk.PassesBy directory parent)

include stands passes

theorem touchesBelow : TouchesBelow directory (fun _ => False) world.disk base :=
  made.opens.touchesBelow (passes.join made.entry
    (made.notMem_of_stands stands (onWay_place world.disk directory)))

theorem beside : base.Beside (parent.join (world.nextName stem)) directory := by
  have current := made.opens.current
  have free := made.notMem_of_stands stands (onWay_place world.disk directory)
  refine ⟨?_, fun location onWay => ?_⟩
  · rw [place_congr current, place_congr current, place_join world.disk parent made.entry]
    exact (passes.apart free).symm
  · rw [← Bool.not_eq_true, isBelow_iff, place_join base parent made.entry]
    intro below
    exact made.notMem_of_stands stands (onWay_congr current onWay) (below.subset (by simp))

end World.Made

/-- A directory that is made under a new name is ready for a copy of a directory that it is not made
in, also if its parent was made first. -/
theorem World.Fresh.readyFor_made {world : World ρ} {parent directory : Path} {stem : String}
    {opened base : Disk} (fresh : world.Fresh parent stem) (entry : IsEntry (world.nextName stem))
    (opens : OpensOnly (world.disk.OnWay parent) world.disk opened)
    (making : makeDirectories (parent.join (world.nextName stem)) opened = (.ok (), base))
    (stands : world.disk.isDirectory directory)
    (passes : world.disk.PassesBy directory parent) :
    ReadyFor directory (parent.join (world.nextName stem)) world.disk base := by
  have made : ({ world with disk := opened } : World ρ).Made parent stem base :=
    ⟨fresh.of_opensOnly opens, entry, making⟩
  have keptOpened := opens.touchesBelow passes
  have standsOpened := keptOpened.stands stands
  have passesOpened := passes.congr opens.current
  have kept := keptOpened.trans (made.touchesBelow standsOpened passesOpened)
  have beside := made.beside standsOpened passesOpened
  exact ⟨kept.stands stands, made.isEmptyDirectory, beside.apart.symm,
    Mirrors.of_touches kept stands⟩

theorem Zone.Holds.touchesBelow {directory : Path} (holds : zone.Holds disk)
    (beside : zone.base.Beside zone.root directory) :
    TouchesBelow directory (fun _ => False) zone.base disk := by
  apply beside.touchesBelow holds.current
  exact fun location => holds.get?_of_notBelow

theorem withScratch_of_ok {parent : Path} {stem : String} {work : Path → Sync ρ α}
    (made : makeDirectories (parent.join (world.nextName stem)) world.disk = (.ok (), base)) :
    withScratch parent stem work world =
      ((work (parent.join (world.nextName stem)) (world.drawn base)).1,
        (removeScratch (parent.join (world.nextName stem))
          (work (parent.join (world.nextName stem)) (world.drawn base)).2).2) := by
  rw [withScratch_apply, made]

theorem files_of_ok {steps : DiskAction α} {value : α} (ran : steps world.disk = (.ok value, disk)) :
    (World.files steps : Sync ρ α) world = (.ok value, { world with disk := disk }) := by
  unfold World.files World.onDisk
  rw [ran]

theorem unpack_mirrors {package staging : Path} (stands : world.disk.isDirectory package)
    (named : world.disk.NamedBelow (world.disk.place package))
    (empty : world.disk.IsEmptyDirectory staging)
    (apart : Apart (world.disk.place package) (world.disk.place staging))
    (done : unpack package staging world = (.ok (), after)) :
    after.disk.isDirectory staging ∧ Mirrors package staging world.disk after.disk ∧
      after.site = world.site := by
  unfold unpack at done
  replace done := lookBind_eq done
  rw [if_pos stands] at done
  obtain ⟨copying, sameSite⟩ := Zone.files_ok done
  obtain ⟨opened, opening, copies⟩ := copied_of_copyTree copying
  rw [makeDirectories_of_isDirectory empty.stands] at opening
  cases opening
  have copy := copies (.of_apart stands empty.stands apart named)
  exact ⟨copy.touches.isDirectory empty.stands, Mirrors.of_copied copy empty.free, sameSite⟩

/-- Nodes of a source were laid over a destination, and nothing else was done but to make
directories on some ways. -/
structure Disk.Overlaid (source destination : Path) (done : List (List String))
    (onWay : Location → Prop)
    (staged before after : Disk) : Prop where
  current : after.current = before.current
  stands : after.isDirectory destination = true
  reached : ∀ way ∈ done, Brought source destination staged after way
  sorts : ∀ way ∈ done, ∀ node, before.get? (before.place destination ++ way) = some node →
    (node = .directory ↔ staged.get? (staged.place source ++ way) = some .directory)
  elsewhere : ∀ location, (∀ way ∈ done, location ≠ before.place destination ++ way) →
    after.get? location = before.get? location ∨
      before.get? location = none ∧ after.get? location = some .directory ∧ onWay location

section

variable {source destination : Path} {onWay : Location → Prop} {staged before after : Disk}
  (overlaid : Overlaid source destination (staged.walkTree source) onWay staged before after)
  (empty : before.IsEmptyDirectory destination)
  (off : ∀ location, onWay location → before.get? location = none →
    isBelow (before.place destination) location = false)

include overlaid empty off

/-- What was laid over an empty directory is found in the source, if no other directories were made
in it. -/
theorem Disk.Overlaid.sourced {rest : Location} (notEmpty : rest ≠ []) {node : Node}
    (found : after.get? (before.place destination ++ rest) = some node) :
    (∀ name ∈ rest, IsEntry name) ∧ staged.node? (source.extend rest) = some node := by
  by_cases member : rest ∈ staged.walkTree source
  · have entries := (overlaid.reached rest member).entries
    obtain ⟨same, isSame, reached⟩ := node?_of_brought overlaid.reached member
    have here := get?_of_node? reached
    rw [place_extend _ _ entries, place_congr overlaid.current, found] at here
    cases here
    exact ⟨entries, isSame⟩
  · have free := empty.free rest notEmpty
    rcases overlaid.elsewhere (before.place destination ++ rest) (fun way walked same =>
      member (List.append_cancel_left same ▸ walked)) with same | ⟨-, -, on⟩
    · rw [same, free] at found
      cases found
    · have outside := off _ on free
      rw [isBelow_append] at outside
      cases outside

/-- What was laid over a project mirrors the source. -/
theorem Disk.Overlaid.mirrors (stands : staged.isDirectory source) :
    Mirrors source destination staged after where
  nodes rest notEmpty node found := by
    rw [place_congr overlaid.current] at found
    obtain ⟨entries, isNode⟩ := overlaid.sourced empty off notEmpty found
    rw [← place_extend _ _ entries]
    exact get?_of_node? isNode
  reached rest entries node found := by
    by_cases root : rest = []
    · rw [root, extend_nil, isDirectory_iff_node?.1 stands] at found
      rw [root, extend_nil, ← found]
      exact isDirectory_iff_node?.1 overlaid.stands
    · exact brought_of_node? overlaid.reached stands root entries found
  sourced rest notEmpty entries node found := by
    have there := get?_of_node? found
    rw [place_extend _ _ entries, place_congr overlaid.current] at there
    exact (overlaid.sourced empty off notEmpty there).2

end

namespace Synchronizer

variable {synchronizer : Synchronizer ρ} {package : Package} {descriptor : Descriptor}
  {result : ExportStats} {staging : Path} {unpacked staged : World ρ}

/-- Where the next export works. -/
def workspace (synchronizer : Synchronizer ρ) (world : World ρ) : Path :=
  synchronizer.scratch.join (world.nextName "vrsync-export")

/-! ## What an export leaves -/

theorem exportPackage_of_staged
    (making : makeDirectories (synchronizer.workspace world) world.disk = (.ok (), base))
    (staging : synchronizer.stagePackage package descriptor (synchronizer.workspace world)
      (world.drawn base) = (.ok result, staged)) :
    synchronizer.exportPackage package descriptor false world =
      ((match (copyTree (stagingIn (synchronizer.workspace world)) package.path staged.disk).1 with
        | .ok () => .ok { result with written := true }
        | .error cause => .error (.io cause)),
        (removeScratch (synchronizer.workspace world) { staged with disk :=
          (copyTree (stagingIn (synchronizer.workspace world)) package.path staged.disk).2 }).2) := by
  unfold workspace at making staging ⊢
  unfold exportPackage
  rw [withScratch_of_ok making, exceptBind_of_ok staging, if_neg Bool.false_ne_true, exceptBind_apply,
    World.files, World.onDisk]
  cases copyTree (stagingIn (synchronizer.scratch.join (world.nextName "vrsync-export")))
      package.path staged.disk with
  | mk outcome copied => cases outcome <;> rfl

section

variable {world staged : World ρ} {base opened : Disk}
  (made : world.Made synchronizer.scratch "vrsync-export" base)
  (within : made.zone.Within staged)
  (unmentioned : world.nextName "vrsync-export" ∉ package.path.pieces)
  (opening : makeDirectories package.path staged.disk = (.ok (), opened)) {location : Location}

include made within unmentioned opening

omit opening in
theorem notBelow_of_onWay_project (onWay : staged.disk.OnWay package.path location) :
    isBelow made.zone.top location = false := by
  have current := within.disk.current.trans made.opens.current
  have free : world.nextName "vrsync-export" ∉ staged.disk.current := by
    rw [current]
    exact made.current
  exact made.notBelow_zone (Disk.notMem_of_onWay free unmentioned onWay)

theorem get?_opened_of_below (below : isBelow made.zone.top location) :
    opened.get? location = staged.disk.get? location := by
  have opens := opensOnly_made opening
  rcases opens.nodes location with same | ⟨onWay, -⟩
  · exact same
  · rw [notBelow_of_onWay_project made within unmentioned onWay] at below
    cases below

theorem touchesBelow_opened :
    TouchesBelow (stagingIn (synchronizer.workspace world)) (fun _ => False) staged.disk opened := by
  have opens := opensOnly_made opening
  apply opens.touches.below
  rintro rest ⟨onWay, -⟩
  have outside := notBelow_of_onWay_project made within unmentioned onWay
  have stagingEntry : IsEntry "vrops-export" := by decide
  rw [stagingIn, place_join _ _ stagingEntry, place_congr within.disk.current,
    List.append_assoc] at outside
  change isBelow made.zone.top (made.zone.top ++ _) = false at outside
  rw [isBelow_append] at outside
  cases outside

variable (notBlank : package.path.pieces ≠ [""])
  (stands : staged.disk.isDirectory (stagingIn (synchronizer.workspace world)))
  (clear : ∀ way,
    (opened.get? (opened.place (stagingIn (synchronizer.workspace world)) ++ way)).isSome →
      isBelow made.zone.top (opened.place package.path ++ way) = false)

include notBlank stands clear

/-- What is staged can be copied to the project, which is made first, if nothing staged comes back
to the workspace. -/
theorem copyReady_opened :
    CopyReady (stagingIn (synchronizer.workspace world)) package.path opened := by
  have opens := opensOnly_made opening
  have stagingEntry : IsEntry "vrops-export" := by decide
  have encloses : made.zone.Encloses 1 (stagingIn (synchronizer.workspace world)) :=
    made.zone.encloses_root.joinEntry stagingEntry
  have reached : opened.place (stagingIn (synchronizer.workspace world)) =
      made.zone.top ++ ["vrops-export"] := by
    rw [stagingIn, place_join _ _ stagingEntry, place_congr (opens.current.trans within.disk.current)]
    rfl
  refine ⟨opens.touches.isDirectory stands, isDirectory_of_makeDirectories opening notBlank, ?_, ?_⟩
  · intro way stood
    rw [get?_opened_of_below made within unmentioned opening] at stood
    · rw [place_congr opens.current] at stood
      exact within.disk.namedBelow encloses way stood
    · rw [reached, List.append_assoc]
      exact isBelow_append _ _
  · intro way stood
    have outside := clear way stood
    rw [← Bool.not_eq_true, isBelow_iff] at outside ⊢
    intro below
    rw [reached] at below
    exact outside ((List.prefix_append _ _).trans below)

/-- What is staged comes over the project, up to the first node without a place, and nothing else
is left of the export than directories on the way to the workspace and to the project. -/
theorem overlaid_copyTree :
    Overlaid (stagingIn (synchronizer.workspace world)) package.path
      ((opened.walkTree (stagingIn (synchronizer.workspace world))).takeWhile
        (opened.fits (stagingIn (synchronizer.workspace world)) package.path))
      (fun location => world.disk.OnWay synchronizer.scratch location ∨
        world.disk.OnWay package.path location)
      opened world.disk
      (removeScratch (synchronizer.workspace world) { staged with disk :=
        (copyTree (stagingIn (synchronizer.workspace world)) package.path staged.disk).2 }).2.disk := by
  have opens := opensOnly_made opening
  have sameCurrent := within.disk.current.trans made.opens.current
  have ready := copyReady_opened made within unmentioned opening notBlank stands clear
  have laid := (lays_copyTree opening ready).laid
  rw [List.nil_append] at laid
  generalize (copyTree (stagingIn (synchronizer.workspace world)) package.path staged.disk).2 =
    copied at laid ⊢
  have current := laid.current.trans opens.current
  -- the workspace is removed
  have standsRoot : copied.isDirectory (synchronizer.workspace world) :=
    laid.isDirectory (opens.touches.isDirectory within.disk.isDirectory_root)
  have isRemoved : (removeScratch (synchronizer.workspace world) ⟨copied, staged.site⟩).2 =
      ⟨copied.removeBelow made.zone.top, staged.site⟩ :=
    made.removeScratch_zone (current.trans within.disk.current) standsRoot
  have removed := made.get?_removeBelow copied
  rw [isRemoved]
  have kept : ∀ path, (∀ location, copied.OnWay path location →
      isBelow made.zone.top location = false) →
      (copied.removeBelow made.zone.top).node? path = copied.node? path := by
    intro path outside
    symm
    refine node?_congr rfl fun location onWay => ?_
    rw [removed, if_neg (by simp [outside location onWay])]
  have toProject : ∀ location, copied.OnWay package.path location →
      isBelow made.zone.top location = false := fun location onWay =>
    notBelow_of_onWay_project made within unmentioned (onWay_congr current onWay)
  refine ⟨current.trans sameCurrent, ?_, ?_, ?_, ?_⟩
  · rw [isDirectory_iff_node?, kept _ toProject]
    exact isDirectory_iff_node?.1 (laid.isDirectory ready.standsDestination)
  · intro way member
    obtain ⟨entries, node, found, usable, reached⟩ := laid.reached way member
    refine ⟨entries, node, found, usable, ?_⟩
    rw [kept, reached]
    intro location onWay
    rcases onWay_extend entries onWay with early | ⟨beginning, -, ⟨rest, rfl⟩, rfl⟩
    · exact toProject location early
    · have beginningEntries : ∀ name ∈ beginning, IsEntry name :=
        fun name inside => entries name (by simp [inside])
      rw [place_congr laid.current]
      apply clear
      have above := isSome_listed?_beginning entries (Option.isSome_iff_exists.2 ⟨node, found⟩)
      obtain ⟨other, isOther⟩ := Option.isSome_iff_exists.1 above
      rw [get?_of_listed? beginningEntries isOther]
      rfl
  · intro way member node stood
    obtain ⟨_, isSource, -⟩ := laid.get?_of_mem member
    have outside := clear way (by simp [isSource])
    apply sort_of_fits (laid.reached way member).entries (List.mem_takeWhile_imp member)
    apply opens.stands
    have before : staged.disk.get? (opened.place package.path ++ way) =
        base.get? (opened.place package.path ++ way) := within.disk.get?_of_notBelow outside
    rw [before]
    apply made.opens.stands
    rwa [place_congr (opens.current.trans sameCurrent)]
  · intro location free
    have untouched : copied.get? location = opened.get? location := by
      apply laid.elsewhere
      intro way member same
      apply free way member
      rw [same, place_congr (opens.current.trans sameCurrent)]
    rcases made.opens_removeBelow within.disk (untouched ▸ opens.nodes location) with
      same | ⟨toWorkspace | toProject, none, directory⟩
    · exact .inl same
    · exact .inr ⟨none, directory, Or.inl toWorkspace⟩
    · exact .inr ⟨none, directory, Or.inr (onWay_congr sameCurrent toProject)⟩

end

/-- An export that writes its project: everything is staged in a new zone, the project is made, and
what is staged comes over it if nothing of it comes back to the zone. -/
theorem exportPackage_ok {stats : ExportStats}
    (fresh : world.Fresh synchronizer.scratch "vrsync-export")
    (unmentioned : world.nextName "vrsync-export" ∉ package.path.pieces)
    (notBlank : package.path.pieces ≠ [""])
    (done : synchronizer.exportPackage package descriptor false world = (.ok stats, after)) :
    ∃ (zone : Zone) (start staged : World ρ) (result : ExportStats) (opened : Disk),
      zone.Within start ∧ start.disk.IsEmptyDirectory zone.root ∧
      start.site.remote = world.site.remote ∧ after.site.remote = staged.site.remote ∧
      zone.top = world.disk.place synchronizer.scratch ++ [world.nextName "vrsync-export"] ∧
      synchronizer.stagePackage package descriptor zone.root start = (.ok result, staged) ∧
      stats = { result with written := true } ∧
      (zone.Within staged → staged.disk.isDirectory (stagingIn zone.root) →
        TouchesBelow (stagingIn zone.root) (fun _ => False) staged.disk opened ∧
          ((∀ way, (opened.get? (opened.place (stagingIn zone.root) ++ way)).isSome →
              isBelow zone.top (world.disk.place package.path ++ way) = false) →
            Overlaid (stagingIn zone.root) package.path (opened.walkTree (stagingIn zone.root))
              (fun location => world.disk.OnWay synchronizer.scratch location ∨
                world.disk.OnWay package.path location) opened world.disk after.disk)) := by
  obtain ⟨base, last, making, worked, -⟩ := withScratch_ok done
  obtain ⟨result, staged, staging, copying⟩ := exceptBind_ok worked
  have whole := done.symm.trans (exportPackage_of_staged making staging)
  have made := fresh.made making
  cases copied : copyTree (stagingIn (synchronizer.workspace world)) package.path staged.disk with
  | mk outcome disk =>
    rw [copied] at whole
    cases outcome with
    | error cause => cases whole
    | ok _ =>
      obtain ⟨isStats, isAfter⟩ := Prod.mk.inj whole
      obtain ⟨opened, opening, -⟩ := copied_of_copyTree copied
      have opens := opensOnly_made opening
      refine ⟨made.zone, world.drawn base, staged, result, opened,
        made.within, made.isEmptyDirectory, rfl, ?_, made.top_zone, staging, Except.ok.inj isStats,
        fun within stands => ⟨?_, fun clear => ?_⟩⟩
      · rw [isAfter, remote_removeScratch]
      · exact touchesBelow_opened made within unmentioned opening
      · have current : opened.current = world.disk.current := opens.current.trans
          (within.disk.current.trans made.opens.current)
        have samePlace := place_congr current package.path
        rw [← samePlace] at clear
        have overlaid := overlaid_copyTree made within unmentioned opening notBlank stands clear
        have lays := lays_copyTree opening
          (copyReady_opened made within unmentioned opening notBlank stands clear)
        rw [copied] at lays overlaid
        rw [List.takeWhile_eq_self_iff.2 (lays.whole.1 rfl)] at overlaid
        rw [isAfter]
        exact overlaid

theorem clear_of_passesBy (fresh : world.Fresh synchronizer.scratch "vrsync-export")
    (unmentioned : world.nextName "vrsync-export" ∉ package.path.pieces)
    (passes : world.disk.PassesBy package.path synchronizer.scratch)
    (atTop : zone.top = world.disk.place synchronizer.scratch ++ [world.nextName "vrsync-export"])
    (way : Location) : isBelow zone.top (world.disk.place package.path ++ way) = false := by
  rw [atTop]
  have free := Disk.notMem_of_onWay fresh.current unmentioned (onWay_place world.disk package.path)
  exact (passes.apart free).symm.isBelow way

/-- The ways to the nodes that the last step of an export comes to before it breaks off. -/
def laidWays (synchronizer : Synchronizer ρ) (package : Package) (world : World ρ) (staged : Disk) :
    List (List String) :=
  (staged.walkTree (stagingIn (synchronizer.workspace world))).takeWhile
    (staged.fits (stagingIn (synchronizer.workspace world)) package.path)

/-- The last step of an export lays what is staged over the project, up to the first node without a
place, and it succeeds if there is none. -/
theorem overlaid_exportPackage (made : world.Made synchronizer.scratch "vrsync-export" base)
    (stands : world.disk.isDirectory package.path)
    (passes : world.disk.PassesBy package.path synchronizer.scratch)
    (staging : synchronizer.stagePackage package descriptor (synchronizer.workspace world)
      (world.drawn base) = (.ok result, staged)) (within : made.zone.Within staged)
    (isTree : staged.disk.isDirectory (stagingIn (synchronizer.workspace world))) :
    Overlaid (stagingIn (synchronizer.workspace world)) package.path
        (synchronizer.laidWays package world staged.disk)
        (fun location => world.disk.OnWay synchronizer.scratch location ∨
          world.disk.OnWay package.path location) staged.disk world.disk
        (synchronizer.exportPackage package descriptor false world).2.disk ∧
      ((synchronizer.exportPackage package descriptor false world).1 =
          .ok { result with written := true } ↔
        synchronizer.laidWays package world staged.disk =
          staged.disk.walkTree (stagingIn (synchronizer.workspace world))) := by
  have unmentioned := made.notMem_pieces_of_stands made.entry stands
  -- the project is there, so that nothing is made
  have standsStaged : staged.disk.isDirectory package.path :=
    (within.disk.touchesBelow (made.beside stands passes)).stands
      (made.opens.touches.isDirectory stands)
  have opening := makeDirectories_of_isDirectory standsStaged
  have notBlank := notBlank_of_isDirectory stands passes.place_ne_nil
  have clear : ∀ way,
      isBelow made.zone.top (staged.disk.place package.path ++ way) = false := by
    intro way
    rw [place_congr (within.disk.current.trans made.opens.current)]
    exact clear_of_passesBy made.toFresh unmentioned passes made.top_zone way
  have ready := copyReady_opened made within unmentioned opening notBlank isTree
    fun way _ => clear way
  have lays := lays_copyTree opening ready
  rw [exportPackage_of_staged made.making staging]
  refine ⟨overlaid_copyTree made within unmentioned opening notBlank isTree
    fun way _ => clear way, ?_⟩
  rw [laidWays, List.takeWhile_eq_self_iff, ← lays.whole]
  cases (copyTree (stagingIn (synchronizer.workspace world)) package.path staged.disk).1 <;> simp

/-! ## What an import works on -/

/-- The beginning of an import: the package is unpacked in a new staging directory. -/
def unpackPackage (synchronizer : Synchronizer ρ) (package : Package) : Sync ρ Path := do
  let parent := synchronizer.scratch.join "vrops-import"
  World.files (makeDirectories parent)
  let staging := parent.join (← World.always (World.onSite (Site.uniqueName (importStem package))))
  World.files (makeDirectories staging)
  unpack package.path staging
  pure staging

/-- The setting of an import whose package is unpacked. -/
def importContext (synchronizer : Synchronizer ρ) (package : Package) (dryRun : Bool)
    (staging : Path) : Import.Context ρ where
  query := synchronizer.query
  channel := synchronizer.channel
  package := package
  staging := staging
  dryRun := dryRun

theorem unpackPackage_ok_iff :
    synchronizer.unpackPackage package world = (.ok staging, unpacked) ↔
      ∃ opened base,
        makeDirectories (synchronizer.scratch.join "vrops-import") world.disk = (.ok (), opened) ∧
        staging = (synchronizer.scratch.join "vrops-import").join
          (world.nextName (importStem package)) ∧
        makeDirectories staging opened = (.ok (), base) ∧
        unpack package.path staging (world.drawn base) = (.ok (), unpacked) := by
  unfold unpackPackage
  constructor
  · intro done
    obtain ⟨_, opened, opening, done⟩ := exceptBind_ok done
    obtain ⟨opening, sameSite⟩ := Zone.files_ok opening
    obtain ⟨name, drawn, drawing, done⟩ := exceptBind_ok done
    cases always_ok drawing
    obtain ⟨_, based, making, done⟩ := exceptBind_ok done
    obtain ⟨making, stillSite⟩ := Zone.files_ok making
    obtain ⟨_, last, unpacking, done⟩ := exceptBind_ok done
    obtain ⟨rfl, rfl⟩ := pure_ok done
    have isBased : based = world.drawn based.disk := by
      cases based
      cases stillSite
      rw [World.drawn, ← sameSite]
    rw [sameSite] at making unpacking ⊢
    rw [isBased] at unpacking
    exact ⟨opened.disk, based.disk, opening, rfl, making, unpacking⟩
  · rintro ⟨opened, base, opening, rfl, making, unpacking⟩
    have drawing : (World.always (World.onSite (Site.uniqueName (importStem package))) :
        Sync ρ String) { world with disk := opened } =
          (.ok (world.nextName (importStem package)), world.drawn opened) := rfl
    have based : (World.files (makeDirectories ((synchronizer.scratch.join "vrops-import").join
        (world.nextName (importStem package)))) : Sync ρ Unit) (world.drawn opened) =
          (.ok (), world.drawn base) := files_of_ok making
    rw [exceptBind_of_ok (files_of_ok opening), exceptBind_of_ok drawing, exceptBind_of_ok based]
    exact exceptBind_of_ok unpacking

theorem unpackPackage_mirrors
    (fresh : world.Fresh (synchronizer.scratch.join "vrops-import") (importStem package))
    (noSlash : '/' ∉ (importStem package).toList)
    (stands : world.disk.isDirectory package.path)
    (named : world.disk.NamedBelow (world.disk.place package.path))
    (passes : world.disk.PassesBy package.path (synchronizer.scratch.join "vrops-import"))
    (done : synchronizer.unpackPackage package world = (.ok staging, unpacked)) :
    unpacked.disk.isDirectory staging ∧
      Mirrors package.path staging world.disk unpacked.disk ∧
      unpacked.site.remote = world.site.remote := by
  obtain ⟨opened, base, opening, rfl, making, unpacking⟩ := unpackPackage_ok_iff.1 done
  have long : 2 ≤ (importStem package).length := by
    simp only [importStem, String.length_append]
    have seven : "import-".length = 7 := by decide
    omega
  have ready := fresh.readyFor_made (fresh.isEntry long noSlash) (opensOnly_made opening)
    making stands passes
  obtain ⟨standsStaging, mirrors, sameSite⟩ := unpack_mirrors ready.stands
    (ready.mirrors.namedBelow named) ready.empty ready.apart unpacking
  refine ⟨standsStaging, ready.mirrors.trans mirrors, ?_⟩
  rw [sameSite]
  rfl

theorem importPackage_of_unpackPackage {dryRun : Bool}
    (done : synchronizer.unpackPackage package world = (.ok staging, unpacked)) :
    synchronizer.importPackage package dryRun world =
      ((World.concluding (Import.importAll (synchronizer.importContext package dryRun staging))
          synchronizer.channel.tidy unpacked).1,
        (removeScratch staging
          (World.concluding (Import.importAll (synchronizer.importContext package dryRun staging))
            synchronizer.channel.tidy unpacked).2).2) := by
  obtain ⟨opened, base, opening, rfl, making, unpacking⟩ := unpackPackage_ok_iff.1 done
  have made : makeDirectories ((synchronizer.scratch.join "vrops-import").join
      (({ world with disk := opened } : World ρ).nextName (importStem package)))
      ({ world with disk := opened } : World ρ).disk = (.ok (), base) := making
  unfold importPackage
  rw [exceptBind_of_ok (files_of_ok opening), withScratch_of_ok made]
  have rest : ∀ next : Unit → Sync ρ ImportStats,
      (unpack package.path ((synchronizer.scratch.join "vrops-import").join
        (world.nextName (importStem package))) >>= next) (world.drawn base) = next () unpacked :=
    fun next => exceptBind_of_ok unpacking
  exact congrArg (fun result => (result.1, (removeScratch _ result.2).2)) (rest _)

end Synchronizer

end OpsContent
