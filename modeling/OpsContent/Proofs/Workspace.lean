import OpsContent.Proofs.ExportKinds
import OpsContent.Synchronization

/-!
# The workspace of an export

An export works in a scratch directory whose name is new.  If the work keeps to that directory,
nothing is left of it at the end: the directory goes with all it holds, and what remains are the
directories that had to be made on the way to it.
-/

namespace OpsContent

open OpsContent.Path Staging Disk

variable {ρ α β : Type} {path : Path} {location : Location} {world : World ρ}

/-! ## What work in a scratch directory comes to -/

/-- The next name that is drawn. -/
def World.nextName (world : World ρ) (stem : String) : String :=
  stem ++ "-" ++ world.site.tags world.site.drawn

/-- The world with a name drawn. -/
def World.drawn (world : World ρ) (disk : Disk) : World ρ where
  disk := disk
  site := { world.site with drawn := world.site.drawn + 1 }

/-- The work is done between making and removing the directory. -/
theorem withScratch_apply (parent : Path) (stem : String) (work : Path → Sync ρ α)
    (world : World ρ) :
    withScratch parent stem work world =
      match makeDirectories (parent.join (world.nextName stem)) world.disk with
      | (.error cause, disk) => (.error (.io cause), world.drawn disk)
      | (.ok (), disk) =>
        ((work (parent.join (world.nextName stem)) (world.drawn disk)).1,
          (removeScratch (parent.join (world.nextName stem))
            (work (parent.join (world.nextName stem)) (world.drawn disk)).2).2) := by
  unfold withScratch
  rw [exceptBind_apply]
  change ((World.files _ >>= fun _ => World.concluding _ _ : Sync ρ α) (world.drawn world.disk)) = _
  rw [exceptBind_apply]
  simp only [World.files, World.onDisk, World.drawn, World.nextName]
  cases makeDirectories (parent.join (stem ++ "-" ++ world.site.tags world.site.drawn))
      world.disk with
  | mk outcome disk =>
    cases outcome with
    | error cause => rfl
    | ok _ => rfl

theorem withScratch_ok {parent : Path} {stem : String} {work : Path → Sync ρ α} {after : World ρ}
    {value : α} (done : withScratch parent stem work world = (.ok value, after)) :
    ∃ base last, makeDirectories (parent.join (world.nextName stem)) world.disk = (.ok (), base) ∧
      work (parent.join (world.nextName stem)) (world.drawn base) = (.ok value, last) ∧
      after = (removeScratch (parent.join (world.nextName stem)) last).2 := by
  rw [withScratch_apply] at done
  cases made : makeDirectories (parent.join (world.nextName stem)) world.disk with
  | mk outcome base =>
    rw [made] at done
    cases outcome with
    | error cause => cases done
    | ok _ =>
      obtain ⟨worked, isLast⟩ := Prod.mk.inj done
      exact ⟨base, _, rfl, Prod.ext worked rfl, isLast.symm⟩

theorem remote_removeScratch (path : Path) (world : World ρ) :
    (removeScratch path world).2.site.remote = world.site.remote := by
  change ((if world.disk.pathExists path then _ else _ : StateM (World ρ) Unit)
    world).2.site.remote = _
  split
  · cases world.disk.removeTree path <;> rfl
  · rfl

theorem removeScratch_of_stands (stands : world.disk.isDirectory path)
    (inside : world.disk.place path ≠ []) :
    (removeScratch path world).2 =
      { world with disk := world.disk.removeBelow (world.disk.place path) } := by
  obtain ⟨accepted, walked, directory⟩ := isDirectory_iff.1 stands
  have located : world.disk.locate path = .ok (world.disk.place path) := by
    simp [locate, accepted, walked]
  have present : world.disk.pathExists path := by
    simp [pathExists, node?, located, directory]
  have removed : world.disk.removeTree path =
      .ok (world.disk.removeBelow (world.disk.place path)) := by
    simp [removeTree, located, directory, inside]
  change ((if world.disk.pathExists path then _ else _ : StateM (World ρ) Unit) world).2 = _
  rw [if_pos present, removed]
  rfl

theorem get?_removeScratch_of_outside
    (outside : isBelow (world.disk.place path) location = false) :
    (removeScratch path world).2.disk.get? location = world.disk.get? location := by
  change ((if world.disk.pathExists path then _ else _ : StateM (World ρ) Unit)
    world).2.disk.get? location = _
  split
  · cases removed : world.disk.removeTree path with
    | error cause => rfl
    | ok after =>
      obtain ⟨inside, rfl⟩ := removeTree_ok removed
      refine (get?_removeBelow _ _ _ inside).trans ?_
      rw [outside]
      rfl
  · rfl

/-! ## Fresh names -/

/-- The scratch name that is drawn next stands nowhere: not on the disk, not in the current
directory and not on the path of the directory that it is made in. -/
structure World.Fresh (world : World ρ) (parent : Path) (stem : String) : Prop where
  tags : world.site.TagsFit
  disk : ∀ location, (world.disk.get? location).isSome = true → world.nextName stem ∉ location
  current : world.nextName stem ∉ world.disk.current
  parent : world.nextName stem ∉ parent.pieces

namespace World.Fresh

variable {world : World ρ} {parent : Path} {stem : String} {disk : Disk}

/-- A tag is fresh if nothing on the disk has its name. -/
theorem of_nodes (tags : world.site.TagsFit)
    (nodes : ∀ entry ∈ world.disk.nodes, world.nextName stem ∉ entry.1)
    (current : world.nextName stem ∉ world.disk.current)
    (elsewhere : world.nextName stem ∉ parent.pieces) : world.Fresh parent stem := by
  refine ⟨tags, fun location stands member => ?_, current, elsewhere⟩
  by_cases root : location = []
  · simp [root] at member
  · simp only [get?, root, if_false] at stands
    obtain ⟨entry, inNodes, rfl⟩ := List.mem_map.1 (isSome_lookup_iff.1 stands)
    exact nodes entry inNodes member

theorem isEntry (fresh : world.Fresh parent stem) (long : 2 ≤ stem.length)
    (noSlash : '/' ∉ stem.toList) : IsEntry (world.nextName stem) :=
  Zone.isEntry_scratchName long noSlash (fresh.tags world.site.drawn)

theorem notMem_of_onWay (fresh : world.Fresh parent stem) (same : disk.current = world.disk.current)
    (onWay : disk.OnWay parent location) : world.nextName stem ∉ location := by
  apply Disk.notMem_of_onWay _ fresh.parent onWay
  rw [same]
  exact fresh.current

end World.Fresh

/-- The scratch directory of a fresh name was made. -/
structure World.Made (world : World ρ) (home : Path) (stem : String) (base : Disk) : Prop
    extends world.Fresh home stem where
  entry : IsEntry (world.nextName stem)
  making : Disk.makeDirectories (home.join (world.nextName stem)) world.disk = (.ok (), base)

theorem World.Fresh.made {base : Disk} {parent : Path}
    (fresh : world.Fresh parent "vrsync-export") (making : makeDirectories
      (parent.join (world.nextName "vrsync-export")) world.disk = (.ok (), base)) :
    world.Made parent "vrsync-export" base :=
  ⟨fresh, fresh.isEntry (by decide) (by decide), making⟩

namespace World.Made

variable {world : World ρ} {parent : Path} {stem : String} {base disk : Disk}
  (made : world.Made parent stem base)

include made in
theorem isDirectory : base.isDirectory (parent.join (world.nextName stem)) := by
  apply isDirectory_of_makeDirectories made.making
  rw [pieces_join_entry made.entry]
  simp [List.append_eq_cons_iff, made.entry.notEmpty]

include made in
theorem opens :
    Disk.OpensOnly (world.disk.OnWay (parent.join (world.nextName stem))) world.disk base :=
  opensOnly_made made.making

/-- The zone of a scratch directory that was just made. -/
def zone : Zone where
  root := parent.join (world.nextName stem)
  base := base
  ending := ⟨parent.stem, world.nextName stem, pieces_join_entry made.entry, made.entry⟩
  stands := made.isDirectory
  above := by
    intro beginning isPrefix rest notEmpty reached
    rcases Disk.onWay_join made.entry ⟨beginning, isPrefix, rfl⟩ with whole | early
    · rw [whole] at reached
      exact notEmpty (by simpa using reached)
    · apply made.notMem_of_onWay made.opens.current early
      rw [reached, Disk.place_join base parent made.entry]
      simp

theorem top_zone : made.zone.top = world.disk.place parent ++ [world.nextName stem] :=
  (place_join base parent made.entry).trans
    (congrArg (· ++ [world.nextName stem]) (place_congr made.opens.current parent))

theorem get?_removeBelow (disk : Disk) (location : Location) :
    (disk.removeBelow made.zone.top).get? location =
      if isBelow made.zone.top location then none else disk.get? location :=
  Disk.get?_removeBelow _ _ _ (by simp [made.top_zone])

theorem removeScratch_zone {later : World ρ} (current : later.disk.current = base.current)
    (stands : later.disk.isDirectory (parent.join (world.nextName stem))) :
    (removeScratch (parent.join (world.nextName stem)) later).2 =
      { later with disk := later.disk.removeBelow made.zone.top } := by
  have atTop : later.disk.place (parent.join (world.nextName stem)) = made.zone.top :=
    place_congr current _
  rw [← atTop]
  apply removeScratch_of_stands stands
  simp [place_join _ _ made.entry]

theorem notBelow_zone (free : world.nextName stem ∉ location) :
    isBelow made.zone.top location = false := by
  rw [← Bool.not_eq_true, isBelow_iff]
  intro below
  refine free (below.subset ?_)
  simp [made.top_zone]

theorem holds_base : made.zone.Holds base := by
  refine ⟨rfl, fun _ _ => rfl, ?_⟩
  intro rest stands name member
  exfalso
  have notEmpty : rest ≠ [] := by
    rintro rfl
    simp at member
  have reached : made.zone.top = base.place parent ++ [world.nextName stem] :=
    place_join base parent made.entry
  rcases made.opens.nodes (made.zone.top ++ rest) with same | ⟨onWay, -⟩
  · rw [same] at stands
    exact made.disk _ stands (by simp [reached])
  · obtain ⟨beginning, isPrefix, onIt⟩ := onWay_congr made.opens.current.symm onWay
    exact made.zone.above beginning isPrefix rest notEmpty onIt.symm

theorem within : made.zone.Within (world.drawn base) :=
  ⟨made.holds_base, made.tags⟩

theorem opensOnly_removeBelow (holds : made.zone.Holds disk) :
    Disk.OpensOnly (world.disk.OnWay parent) world.disk
      (disk.removeBelow made.zone.top) := by
  refine ⟨holds.current.trans made.opens.current, ?_⟩
  intro location
  rw [made.get?_removeBelow]
  split
  next below =>
    left
    obtain ⟨rest, rfl⟩ := isBelow_iff.1 below
    cases stood : world.disk.get? (made.zone.top ++ rest) with
    | none => rfl
    | some node =>
      have free := made.disk _ (by rw [stood]; rfl)
      exact absurd (by simp [made.top_zone]) free
  next outside =>
    have notInside : ¬ made.zone.Contains location := by
      rintro ⟨rest, -, rfl⟩
      exact outside (isBelow_append _ _)
    rw [holds.outside location notInside]
    rcases made.opens.nodes location with same | ⟨onWay, new⟩
    · exact .inl same
    · rcases onWay_join made.entry onWay with whole | early
      · rw [whole, place_join world.disk parent made.entry, ← made.top_zone] at outside
        exact absurd (isBelow_iff.2 (List.prefix_refl _)) outside
      · exact .inr ⟨early, new⟩

/-- When the directory is removed, nothing else is left of the work than directories which were made
on a way. -/
theorem opens_removeBelow {staged : Disk} (holds : made.zone.Holds staged)
    {onWay : Location → Prop} (opened : disk.get? location = staged.get? location ∨
      onWay location ∧ staged.get? location = none ∧ disk.get? location = some .directory) :
    (disk.removeBelow made.zone.top).get? location = world.disk.get? location ∨
      (world.disk.OnWay parent location ∨ onWay location) ∧ world.disk.get? location = none ∧
        (disk.removeBelow made.zone.top).get? location = some .directory := by
  have cleared := (made.opensOnly_removeBelow holds).nodes location
  rw [made.get?_removeBelow] at cleared ⊢
  by_cases below : isBelow made.zone.top location
  · rw [if_pos below] at cleared ⊢
    rcases cleared with same | ⟨-, -, contrary⟩
    · exact .inl same
    · cases contrary
  · rw [if_neg below] at cleared ⊢
    rcases opened with same | ⟨onIt, free, directory⟩
    · rw [same]
      rcases cleared with kept | ⟨toParent, new⟩
      · exact .inl kept
      · exact .inr ⟨Or.inl toParent, new⟩
    · rw [free] at cleared
      rcases cleared with kept | ⟨-, -, contrary⟩
      · exact .inr ⟨Or.inr onIt, kept.symm, directory⟩
      · cases contrary

end World.Made

namespace World.Fresh

variable {world : World ρ} {parent : Path} {stem : String} {work : Path → Sync ρ α}

/-- Work that keeps to its scratch directory leaves nothing behind, wherever it fails.  The
directory is made on the disk of the moment, and of the work only what it does to the disk
counts. -/
theorem opensOnly_withScratch_of_holds (fresh : world.Fresh parent stem)
    (entry : IsEntry (world.nextName stem))
    (kept : ∀ zone : Zone, zone.root = parent.join (world.nextName stem) →
      Disk.OpensOnly (world.disk.OnWay zone.root) world.disk zone.base →
        ∀ started, zone.Within started → zone.Holds (work zone.root started).2.disk) :
    Disk.OpensOnly (world.disk.OnWay parent) world.disk
      (withScratch parent stem work world).2.disk := by
  rw [withScratch_apply]
  cases making : makeDirectories (parent.join (world.nextName stem)) world.disk with
  | mk outcome base =>
    cases outcome with
    | error cause =>
      exact (makeDirectories_error making).mono fun location => onWay_of_above entry
    | ok _ =>
      have made : world.Made parent stem base := ⟨fresh, entry, making⟩
      have worked : made.zone.Holds
          (work (parent.join (world.nextName stem)) (world.drawn base)).2.disk :=
        kept made.zone rfl made.opens _ made.within
      dsimp only
      rw [made.removeScratch_zone worked.current worked.isDirectory_root]
      exact made.opensOnly_removeBelow worked

theorem opensOnly_withScratch (fresh : world.Fresh parent stem)
    (entry : IsEntry (world.nextName stem))
    (kept : ∀ zone : Zone, zone.root = parent.join (world.nextName stem) →
      Keeps zone.Within (work zone.root)) :
    Disk.OpensOnly (world.disk.OnWay parent) world.disk
      (withScratch parent stem work world).2.disk :=
  fresh.opensOnly_withScratch_of_holds entry fun zone root _ started within =>
    (kept zone root started within).disk

end World.Fresh

/-- The setting of an export in a workspace. -/
def Synchronizer.exportContext (synchronizer : Synchronizer ρ) (package : Package) (workspace : Path) :
    Export.Context ρ where
  query := synchronizer.query
  channel := synchronizer.channel
  package := package
  staging := stagingIn workspace
  scratch := workspace

end OpsContent
