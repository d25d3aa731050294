import OpsContent.Proofs.ZoneSteps

/-!
# Growth below a directory

Files that are written or copied to a directory change it only by growth: directories stay,
files are replaced, and outside of it nothing appears but directories on the way to it.  In
contrast to a zone the directory need not stand at first, and its way may lead anywhere.
-/

namespace OpsContent.Disk

open OpsContent.Path Staging

/-- The location has a path from the root. -/
def Below (disk : Disk) (root : Path) (location : Location) : Prop :=
  ∃ rest, (∀ name ∈ rest, IsEntry name) ∧ location = disk.place root ++ rest

/-- The second disk is the first one, grown below a directory. -/
structure GrowsBelow (root : Path) (before after : Disk) : Prop where
  current : after.current = before.current
  outside : OpensOutside (before.place root) (before.OnWay root) before after
  directories : ∀ location, before.get? location = some .directory →
    after.get? location = some .directory
  appears : ∀ location, (after.get? location).isSome = true →
    (before.get? location).isSome = true ∨ before.OnWay root location ∨ before.Below root location

/-- A path to a directory, or on from it without climbing above it. -/
def LeadsBelow (root path : Path) : Prop :=
  path = root ∨ path.absolute = root.absolute ∧ ∃ more, more ≠ [] ∧
    path.pieces = root.stem ++ more ∧ staysBelow 0 more = true ∧
      ∀ piece ∈ more, '/' ∉ piece.toList

variable {root path : Path} {before disk after : Disk} {location : Location}

theorem LeadsBelow.join (leads : LeadsBelow root path) {name : String}
    (stays : StaysWithin 0 name) : LeadsBelow root (path.join name) := by
  right
  rcases leads with rfl | ⟨absolute, more, notEmpty, whole, inside, noSlash⟩
  · exact ⟨absolute_join stays.relative, _, pieces_ofText_ne_nil name, pieces_join stays.relative,
      stays.below, fun piece => noSlash_of_mem_ofText⟩
  · have kept : ∃ fewer, fewer <+: more ∧ path.stem = root.stem ++ fewer := by
      by_cases trailing : path.pieces.getLast? = some ""
      · refine ⟨more.dropLast, List.dropLast_prefix _, ?_⟩
        rw [Path.stem, if_pos trailing, whole, List.dropLast_append_of_ne_nil notEmpty]
      · exact ⟨more, List.prefix_refl _, by rw [stem_of_getLast trailing, whole]⟩
    obtain ⟨fewer, shorter, stemmed⟩ := kept
    refine ⟨(absolute_join stays.relative).trans absolute, fewer ++ (ofText name).pieces,
      by simp [pieces_ofText_ne_nil], ?_, ?_, ?_⟩
    · rw [pieces_join stays.relative, stemmed, List.append_assoc]
    · exact staysBelow_append List.length_nil (staysBelow_beginning shorter inside)
        (staysBelow_mono stays.below (Nat.zero_le _))
    · intro piece member
      rcases List.mem_append.1 member with old | new
      · exact noSlash piece (shorter.subset old)
      · exact noSlash_of_mem_ofText new

theorem below_follow {more : List String} (disk : Disk) (root : Path)
    (stays : staysBelow 0 more) (noSlash : ∀ piece ∈ more, '/' ∉ piece.toList) :
    disk.Below root (follow (disk.start root) (root.stem ++ more)) := by
  refine ⟨follow [] more, fun name member => isEntry_of_mem_follow member noSlash, ?_⟩
  have shifted : follow (disk.place root ++ []) more = disk.place root ++ follow [] more :=
    follow_of_staysBelow stays _ (Nat.le_refl 0)
  rw [List.append_nil] at shifted
  rw [follow_append, follow_stem]
  exact shifted

theorem LeadsBelow.below (leads : LeadsBelow root path) (disk : Disk) :
    disk.Below root (disk.place path) := by
  rcases leads with rfl | ⟨absolute, more, -, whole, stays, noSlash⟩
  · exact ⟨[], by simp, by simp⟩
  · have starts : disk.start path = disk.start root := by simp [start, absolute]
    rw [place, starts, whole]
    exact below_follow disk root stays noSlash

theorem LeadsBelow.onWay (leads : LeadsBelow root path) (onWay : disk.OnWay path location) :
    disk.OnWay root location ∨ disk.Below root location := by
  rcases leads with rfl | ⟨absolute, more, -, whole, stays, noSlash⟩
  · exact .inl onWay
  · have starts : disk.start path = disk.start root := by simp [start, absolute]
    obtain ⟨beginning, isPrefix, rfl⟩ := onWay
    rw [whole] at isPrefix
    rw [starts]
    rcases List.prefix_or_prefix_of_prefix isPrefix (List.prefix_append _ _) with
      early | ⟨rest, rfl⟩
    · exact .inl ⟨beginning, early.trans (stem_beginning root), rfl⟩
    · rw [List.prefix_append_right_inj] at isPrefix
      exact .inr (below_follow disk root (staysBelow_beginning isPrefix stays)
        fun piece member => noSlash piece (isPrefix.subset member))

theorem below_congr (same : before.current = after.current) (below : before.Below root location) :
    after.Below root location := by
  obtain ⟨rest, entries, rfl⟩ := below
  exact ⟨rest, entries, by rw [place_congr same]⟩

theorem Below.isBelow (below : disk.Below root location) :
    isBelow (disk.place root) location := by
  obtain ⟨rest, -, rfl⟩ := below
  exact isBelow_append _ _

namespace GrowsBelow

protected theorem refl (root : Path) (disk : Disk) : GrowsBelow root disk disk :=
  ⟨rfl, fun _ _ => .inl rfl, fun _ stands => stands, fun _ => .inl⟩

theorem put (grows : GrowsBelow root before disk) (node : Node)
    (below : before.Below root location) (notRoot : location ≠ [])
    (kept : disk.get? location ≠ some .directory) :
    GrowsBelow root before (disk.put location node) := by
  refine ⟨grows.current, ?_, ?_, ?_⟩
  · intro other outside
    rw [get?_put _ _ _ _ notRoot, if_neg]
    · exact grows.outside other outside
    · rintro rfl
      rw [below.isBelow] at outside
      cases outside
  · intro other stood
    have stands := grows.directories other stood
    rw [get?_put _ _ _ _ notRoot, if_neg]
    · exact stands
    · rintro rfl
      exact kept stands
  · intro other stands
    rw [get?_put _ _ _ _ notRoot] at stands
    split at stands
    next same => exact .inr (.inr (same ▸ below))
    · exact grows.appears other stands

theorem opensOnly {way : Location → Prop} (grows : GrowsBelow root before disk)
    (opens : OpensOnly way disk after)
    (along : ∀ location, way location → disk.OnWay root location ∨ disk.Below root location) :
    GrowsBelow root before after := by
  have alongBefore : ∀ location, way location →
      before.OnWay root location ∨ before.Below root location := by
    intro location onWay
    rcases along location onWay with toRoot | below
    · exact .inl (onWay_congr grows.current toRoot)
    · exact .inr (below_congr grows.current below)
  refine ⟨opens.current.trans grows.current, ?_, ?_, ?_⟩
  · intro location outside
    rcases opens.nodes location with same | ⟨onWay, free, made⟩
    · rw [same]
      exact grows.outside location outside
    · rcases alongBefore location onWay with toRoot | below
      · rcases grows.outside location outside with same | ⟨-, -, directory⟩
        · exact .inr ⟨toRoot, same ▸ free, made⟩
        · rw [directory] at free
          cases free
      · rw [below.isBelow] at outside
        cases outside
  · intro location stood
    exact opens.stands (grows.directories location stood)
  · intro location stands
    rcases opens.nodes location with same | ⟨onWay, -, -⟩
    · rw [same] at stands
      exact grows.appears location stands
    · exact .inr (alongBefore location onWay)

end GrowsBelow

/-! ## Steps that grow -/

theorem growthRules (root : Path) (before : Disk) :
    WriteRules (GrowsBelow root before) (LeadsBelow root) where
  directories leads disk grows :=
    grows.opensOnly (makeDirectories_opensOnly _ disk) fun _ => leads.onWay
  parents leads disk grows :=
    grows.opensOnly (makeParents_opensOnly _ disk) fun _ above => leads.onWay above.onWay
  files {path change disk after} leads grows done := by
    obtain ⟨notRoot, kept, _, rfl⟩ := updateFile_ok done
    exact grows.put _ (below_congr grows.current (leads.below disk)) notRoot kept
  inner leads stays := leads.join stays

theorem keepsGrowth_plant (before : Disk) {files : List (String × Option Bytes)}
    (stays : ∀ file ∈ files, StaysWithin 0 file.1) :
    Keeps (GrowsBelow root before) (plant root files) := by
  induction files with
  | nil => exact .succeed ()
  | cons file rest ih =>
    have leads : LeadsBelow root (root.join file.1) :=
      LeadsBelow.join (.inl rfl) (stays file (by simp))
    have later := ih (List.forall_mem_cons.1 stays).2
    obtain ⟨name, content⟩ := file
    cases content with
    | none =>
      exact .andThen ((growthRules root before).directories leads) fun _ => later
    | some content =>
      refine .andThen ((growthRules root before).parents leads) fun _ => ?_
      exact .andThen ((growthRules root before).keeps_writeFile leads content) fun _ => later

end OpsContent.Disk
