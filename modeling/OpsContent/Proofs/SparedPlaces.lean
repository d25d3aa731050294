import OpsContent.Proofs.FileNames
import OpsContent.Proofs.Growth
import OpsContent.Proofs.Trees

/-!
# Places that are left alone

What stands at a place of a zone stays as long as no operation leads there.  Directories may be made
above the place, and everything else goes on at paths that pass an entry which is neither above the
place nor below it.
-/

namespace OpsContent.Zone

open OpsContent.Path Staging Disk List

/-- The zone is kept to, and at a place in it is the given node or nothing.  The first directories on
the way there stand. -/
structure Spares (zone : Zone) (place : Location) (depth : Nat) (node : Option Node) (disk : Disk) :
    Prop where
  holds : zone.Holds disk
  stands : ∀ early, early <+: place.take depth →
    disk.get? (zone.top ++ early) = some .directory
  kept : disk.get? (zone.top ++ place) = node

/-- A path that passes an entry apart from the place. -/
structure Avoids (zone : Zone) (place : Location) (path : Path) : Prop where
  encloses : zone.Encloses 1 path
  passes : ∃ names, (∀ name ∈ names, IsEntry name) ∧ Apart names place ∧
    LeadsBelow (zone.root.extend names) path

variable {zone : Zone} {place : Location} {depth : Nat} {node : Option Node} {disk after : Disk}
  {path source : Path} {location : Location} {names : List String}

/-! ## Paths that avoid a place -/

theorem Avoids.join {name : String} (avoids : zone.Avoids place path) (stays : StaysWithin 0 name) :
    zone.Avoids place (path.join name) := by
  obtain ⟨encloses, names, entries, apart, leads⟩ := avoids
  exact ⟨encloses.join stays, names, entries, apart, leads.join stays⟩

theorem place_extend_root (same : disk.current = zone.base.current)
    (entries : ∀ name ∈ names, IsEntry name) :
    disk.place (zone.root.extend names) = zone.top ++ names := by
  rw [place_extend _ _ entries, place_congr same]
  rfl

theorem Avoids.notAbove (avoids : zone.Avoids place path) (same : disk.current = zone.base.current)
    {early : Location} (isEarly : early <+: place) :
    isBelow (disk.place path) (zone.top ++ early) = false := by
  obtain ⟨-, names, entries, apart, leads⟩ := avoids
  obtain ⟨rest, -, placed⟩ := leads.below disk
  rw [← Bool.not_eq_true, isBelow_iff, placed, place_extend_root same entries, append_assoc,
    prefix_append_right_inj]
  exact fun below => apart.1 ((prefix_append _ _).trans (below.trans isEarly))

/-- Only a path on from the place passes it. -/
theorem not_onWay_extend (names : List String) (same : disk.current = zone.base.current)
    (entries : ∀ name ∈ names, IsEntry name) (inside : place ≠ []) (short : ¬ place <+: names) :
    ¬ disk.OnWay (zone.root.extend names) (zone.top ++ place) := by
  intro onWay
  rcases onWay_extend entries onWay with ⟨beginning, early, reached⟩ | ⟨beginning, -, early, reached⟩
  · refine zone.above beginning early place inside ?_
    rw [← Zone.top, reached, start, start, same]
  · rw [place_congr same, ← Zone.top] at reached
    exact short (append_cancel_left reached ▸ early)

theorem Avoids.not_onWay (avoids : zone.Avoids place path)
    (same : disk.current = zone.base.current) : ¬ disk.OnWay path (zone.top ++ place) := by
  obtain ⟨-, names, entries, apart, leads⟩ := avoids
  have inside : place ≠ [] := by
    rintro rfl
    exact apart.2 nil_prefix
  intro onWay
  rcases leads.onWay onWay with early | ⟨rest, -, reached⟩
  · exact not_onWay_extend names same entries inside apart.2 early
  · rw [place_extend_root same entries, append_assoc] at reached
    exact apart.1 ⟨rest, (append_cancel_left reached).symm⟩

/-! ## Operations -/

theorem ne_of_isBelow_eq_false {top : Location} (notBelow : isBelow top location = false) :
    location ≠ top := by
  rintro rfl
  rw [isBelow_iff.2 (prefix_refl _)] at notBelow
  cases notBelow

section

variable (spares : zone.Spares place depth node disk)

include spares

theorem Spares.of_same (holds : zone.Holds after)
    (same : ∀ early, early <+: place →
      after.get? (zone.top ++ early) = disk.get? (zone.top ++ early)) :
    zone.Spares place depth node after :=
  ⟨holds, fun early isEarly =>
    (same early (isEarly.trans <| take_prefix _ _)).trans (spares.stands early isEarly),
    (same _ (prefix_refl _)).trans spares.kept⟩

theorem Spares.of_opensOnly {way : Location → Prop} (holds : zone.Holds after)
    (opens : OpensOnly way disk after) (around : ¬ way (zone.top ++ place)) :
    zone.Spares place depth node after := by
  refine ⟨holds, fun early isEarly => opens.stands (spares.stands early isEarly), ?_⟩
  rcases opens.nodes (zone.top ++ place) with same | ⟨onWay, -⟩
  · rw [same]
    exact spares.kept
  · exact absurd onWay around

theorem Spares.updateFile {change : Bytes → Bytes} (avoids : zone.Avoids place path)
    (done : updateFile change path disk = .ok after) : zone.Spares place depth node after := by
  refine spares.of_same (spares.holds.updateFile (avoids.encloses.mono (Nat.zero_le 1)) done) ?_
  intro early isEarly
  exact (touches_updateFile done).elsewhere _
    (ne_of_isBelow_eq_false (avoids.notAbove spares.holds.current isEarly))

theorem Spares.removeTree (avoids : zone.Avoids place path)
    (done : removeTree path disk = .ok after) : zone.Spares place depth node after := by
  have same := spares.holds.current
  refine spares.of_same (spares.holds.removeTree avoids.encloses done) fun early isEarly => ?_
  obtain ⟨-, rfl⟩ := removeTree_ok done
  rw [get?_removeBelow _ _ _ (avoids.encloses.admits same).contains.ne_nil,
    avoids.notAbove same isEarly]
  rfl

theorem Spares.rename (leaves : zone.Avoids place source)
    (avoids : zone.Avoids place path) (done : rename source path disk = .ok after) :
    zone.Spares place depth node after := by
  have same := spares.holds.current
  refine spares.of_same (spares.holds.rename leaves.encloses avoids.encloses done)
    fun early isEarly => ?_
  have inside := (leaves.encloses.admits same).contains.ne_nil
  have admits := (avoids.encloses.admits same).contains.ne_nil
  have notLeft := leaves.notAbove same isEarly
  have notReached := avoids.notAbove same isEarly
  obtain ⟨-, -, slash, moved⟩ := rename_ok done
  rcases moveEntry_ok moved with rfl | ⟨content, -, rfl⟩ | rfl
  · rfl
  · rw [get?_put _ _ _ _ admits, if_neg (ne_of_isBelow_eq_false notReached),
      get?_remove _ _ _ inside, if_neg (ne_of_isBelow_eq_false notLeft)]
  · rw [get?_relocate _ inside admits, notReached, notLeft]
    rfl

end

/-- What the disk shows at the place is left alone with it. -/
theorem Spares.node? (spares : zone.Spares place depth node disk)
    (later : zone.Spares place depth node after) (entries : ∀ name ∈ place, IsEntry name)
    (deep : place.length ≤ depth + 1) :
    after.node? (zone.root.extend place) = disk.node? (zone.root.extend place) := by
  refine node?_congr (later.holds.current.trans spares.holds.current.symm) ?_
  intro location onWay
  rcases onWay_extend entries onWay with ⟨beginning, early, rfl⟩ | ⟨beginning, -, early, rfl⟩
  · rw [start, later.holds.current]
    exact (later.holds.onWay_root early).trans (spares.holds.onWay_root early).symm
  · rw [place_congr later.holds.current]
    by_cases whole : beginning = place
    · rw [whole]
      exact later.kept.trans spares.kept.symm
    · have shorter : beginning <+: place.take depth := by
        have short : beginning.length < place.length :=
          lt_of_le_of_ne early.length_le fun same => whole (early.eq_of_length same)
        exact prefix_take_iff.2 ⟨early, by omega⟩
      exact (later.stands _ shorter).trans (spares.stands _ shorter).symm

/-- The directories on the way to the place stand as they stood. -/
theorem Spares.isDirectory (spares : zone.Spares place depth node after)
    (same : disk.current = zone.base.current) (entries : ∀ name ∈ names, IsEntry name)
    (isEarly : names <+: place.take depth) (stood : disk.isDirectory (zone.root.extend names)) :
    after.isDirectory (zone.root.extend names) := by
  refine isDirectory_of_directories (spares.holds.current.trans same.symm) ?_ stood
  intro location onWay _
  rcases onWay_extend entries onWay with ⟨beginning, early, rfl⟩ | ⟨beginning, -, early, rfl⟩
  · rw [start, same]
    exact spares.holds.onWay_root early
  · rw [place_congr same]
    exact spares.stands _ (early.trans isEarly)

theorem sparing_removeFile (avoids : zone.Avoids place path) :
    Keeps (zone.Spares place depth node) (attempt (removeFile path)) := by
  refine keeps_attempt fun disk after spares done => spares.of_same
    (spares.holds.removeFile (avoids.encloses.mono (Nat.zero_le 1)) done) fun early isEarly => ?_
  obtain ⟨inside, -, rfl⟩ := removeFile_ok done
  rw [get?_remove _ _ _ inside, if_neg
    (ne_of_isBelow_eq_false (avoids.notAbove spares.holds.current isEarly))]

theorem sparing_makeDirectories {leeway : Nat} (encloses : zone.Encloses leeway path)
    (around : ∀ disk : Disk, disk.current = zone.base.current →
      ¬ disk.OnWay path (zone.top ++ place)) :
    Keeps (zone.Spares place depth node) (makeDirectories path) := by
  intro disk spares
  exact spares.of_opensOnly (keeps_makeDirectories encloses disk spares.holds)
    (makeDirectories_opensOnly path disk) (around disk spares.holds.current)

theorem sparingRules (zone : Zone) (place : Location) (depth : Nat) (node : Option Node) :
    WriteRules (zone.Spares place depth node) (zone.Avoids place) where
  directories avoids := sparing_makeDirectories avoids.encloses fun _ => avoids.not_onWay
  parents avoids disk spares := spares.of_opensOnly
    (keeps_makeParents avoids.encloses disk spares.holds) (makeParents_opensOnly _ disk)
    fun higher => avoids.not_onWay spares.holds.current higher.onWay
  files avoids spares done := spares.updateFile avoids done
  inner avoids stays := avoids.join stays

theorem sparing_replaceFile {directory : Path} {name : String} (ends : directory.EndsInName)
    (entry : IsEntry name) (avoids : zone.Avoids place (directory.join name))
    (draft : zone.Avoids place (directory.join (name ++ ".tmp"))) (content : Bytes) :
    Keeps (zone.Spares place depth node) (replaceFile (directory.join name) content) := by
  have rules := zone.sparingRules place depth node
  unfold replaceFile
  rw [fileName?_join directory entry, Option.getD_some, withFileName_join ends entry]
  refine .andThen (rules.parents avoids) fun _ => ?_
  refine .andThen (rules.keeps_writeFile draft content) fun _ => ?_
  exact keeps_attempt fun _ _ spares done => spares.rename draft avoids done

theorem sparing_moveFile (leaves : zone.Avoids place source)
    (avoids : zone.Avoids place path) :
    Keeps (zone.Spares place depth node) (moveFile source path) := by
  have rules := zone.sparingRules place depth node
  unfold moveFile
  refine .andThen (rules.parents avoids) fun _ disk spares => ?_
  split
  next after done => exact spares.rename leaves avoids done
  · exact Keeps.andThen (rules.keeps_copyFile avoids source)
      (fun _ => sparing_removeFile leaves) disk spares

theorem sparing_copyTree (reads : zone.Encloses 0 source)
    (avoids : zone.Avoids place path) :
    Keeps (zone.Spares place depth node) (copyTree source path) := by
  refine ((zone.sparingRules place depth node).copyRules ?_).keeps_copyTree ⟨reads, avoids⟩
  intro source disk names reads spares listed name member
  have entry := spares.holds.isEntry_of_listed reads listed name member
  exact ⟨entry, reads.join entry.staysWithin⟩

end OpsContent.Zone
