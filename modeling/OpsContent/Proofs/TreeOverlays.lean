import OpsContent.Proofs.TreeCopies

/-!
# Copies as overlays

A tree that is copied over a directory lies over it afterwards: what the tree holds comes to its
place, and all the rest stays.  Whether this succeeds and what comes of it does not depend on the
order in which the copy goes through the entries of a directory.
-/

namespace OpsContent.Disk

open OpsContent.Path

variable {disk : Disk} {source destination : Path} {name : String} {way : List String}
  {order : Path → List String → List String}

theorem stem_extend (path : Path) (entries : ∀ name ∈ way, IsEntry name) :
    (path.extend way).stem = path.stem ++ way := by
  induction way generalizing path with
  | nil => simp
  | cons name rest ih =>
    have entry := entries name (by simp)
    have whole : (path.join name).stem = path.stem ++ [name] := by
      rw [stem_of_getLast (by simp [pieces_join_entry entry, entry.notEmpty]),
        pieces_join_entry entry]
    rw [extend_cons, ih _ (List.forall_mem_cons.1 entries).2, whole,
      List.append_assoc, List.singleton_append]

/-- What is above a node that a path leads to is a directory. -/
theorem isDirectory_above {node : Node} (stands : disk.isDirectory source)
    (entries : ∀ other ∈ way ++ [name], IsEntry other)
    (found : disk.node? (source.extend (way ++ [name])) = some node) :
    disk.isDirectory (source.extend way) := by
  rw [extend_concat] at found
  rcases List.eq_nil_or_concat way with rfl | ⟨early, last, rfl⟩
  · exact stands
  · rw [List.concat_eq_append] at *
    refine isDirectory_of_node?_join (entries name (by simp)) ?_ found
    rw [extend_concat]
    exact pieces_join_ne_blank _ (entries last (by simp))

namespace CopyReady

variable (ready : CopyReady source destination disk)

include ready

/-- A node of the source that a path leads to has a place exactly if the path to the place is short
enough and nothing of the other sort stands there. -/
theorem fits_iff {node : Node} (entries : ∀ other ∈ way ++ [name], IsEntry other)
    (found : disk.node? (source.extend (way ++ [name])) = some node) :
    disk.fits source destination (way ++ [name]) ↔
      (destination.extend (way ++ [name])).text.utf8ByteSize < pathLimit ∧
        ∀ other, disk.get? (disk.place destination ++ (way ++ [name])) = some other →
          (other = .directory ↔ node = .directory) := by
  have entry := entries name (by simp)
  have early : ∀ other ∈ way, IsEntry other := fun other member => entries other (by simp [member])
  have above := isDirectory_above ready.standsSource entries found
  have listed := (node?_eq_some_iff.1 found).2
  have legible : node = .directory ∨ disk.isFile (source.extend (way ++ [name])) := by
    cases node with
    | directory => exact .inl rfl
    | file content => exact .inr (isFile_iff.2 ⟨content, found⟩)
  rw [extend_concat] at found
  have room := room_of_node? above entry found
  -- All names stand in the source, so no path with them is refused but for its length.
  have clean := (refuse_eq_ok_iff.1 room.accepted).1
  have cleanTo := (refuse_eq_ok_iff.1 (isDirectory_iff.1 ready.standsDestination).1).1
  rw [pieces_join_entry entry, stem_extend source early] at clean
  have there : Room (destination.extend way) name ↔
      (destination.extend (way ++ [name])).text.utf8ByteSize < pathLimit := by
    rw [extend_concat]
    refine ⟨fun room => utf8ByteSize_of_refuse room.accepted, fun short => ⟨entry, room.short, ?_⟩⟩
    refine refuse_eq_ok_iff.2 ⟨fun piece member => ?_, fun blank => pieces_join_ne_blank _ entry
      blank.2, short⟩
    rw [pieces_join_entry entry, stem_extend destination early, List.append_assoc,
      List.mem_append] at member
    rcases member with old | new
    · exact cleanTo piece ((stem_beginning destination).subset old)
    · exact clean piece (by simp [new])
  simp only [fits_concat_iff entry, there, listed, Option.some_inj, legible, true_and]

/-- Every walk comes to the same nodes, so every copy lays the same ones if it succeeds. -/
theorem copyTreeIn_lays (ordered : ∀ path names, (order path names).Perm names) :
    ((copyTreeIn order source destination disk).1 = .ok () ↔
        ∀ item ∈ disk.walkTree source, disk.fits source destination item) ∧
      ((copyTreeIn order source destination disk).1 = .ok () →
        Laid source destination disk (disk.walkTree source)
          (copyTreeIn order source destination disk).2) ∧
      ∀ rest, (copyTreeIn order source destination disk).2.get? (disk.place source ++ rest) =
        disk.get? (disk.place source ++ rest) := by
  have lays := lays_copyTreeIn ordered
    (makeDirectories_of_isDirectory ready.standsDestination) ready
  have perm : (disk.walkTreeIn order source).Perm (disk.walkTree source) := perm_walkTreeIn ordered
  refine ⟨?_, fun succeeded => ?_, lays.laid.get?_source ready⟩
  · simp only [lays.whole, perm.mem_iff]
  · have laid := lays.laid_of_ok succeeded
    exact ⟨laid.current, fun way member => laid.reached way (by simpa [perm.mem_iff] using member),
      fun location free => laid.elsewhere location (by simpa [perm.mem_iff] using free),
      laid.directories⟩

end CopyReady

/-- Copying a tree succeeds exactly if, for every node of it, the paths to the node and to its place
can be used and nothing of the other sort stands in the place.  Then every node of the tree is at
its place, and everything else is what it was.  A walk that comes to the entries of directories in
another order succeeds in the same cases and with the same result, and none ever changes the tree
itself. -/
theorem copyTree_overlays (ordered : ∀ path names, (order path names).Perm names)
    (ready : CopyReady source destination disk) :
    let copied := copyTree source destination disk
    let copiedIn := copyTreeIn order source destination disk
    (copied.1 = .ok () ↔ ∀ way, (∀ name ∈ way, IsEntry name) → ∀ node,
        disk.listed? (source.extend way) = some node →
          refuse (source.extend way) = .ok () ∧
            (destination.extend way).text.utf8ByteSize < pathLimit ∧
            ∀ other, disk.get? (disk.place destination ++ way) = some other →
              (other = .directory ↔ node = .directory)) ∧
      (copied.1 = .ok () →
        (∀ way, (∀ name ∈ way, IsEntry name) → ∀ node,
          disk.listed? (source.extend way) = some node →
            copied.2.node? (destination.extend way) = some node) ∧
        ∀ location, (∀ way, (∀ name ∈ way, IsEntry name) →
            (disk.listed? (source.extend way)).isSome = true →
              location ≠ disk.place destination ++ way) →
          copied.2.get? location = disk.get? location) ∧
      (copiedIn.1 = .ok () ↔ copied.1 = .ok ()) ∧
      (copied.1 = .ok () → ∀ location, copiedIn.2.get? location = copied.2.get? location) ∧
      ∀ rest, copiedIn.2.get? (disk.place source ++ rest) =
        disk.get? (disk.place source ++ rest) := by
  intro copied copiedIn
  obtain ⟨succeeds, lays, -⟩ := ready.copyTreeIn_lays fun _ names => List.Perm.refl names
  obtain ⟨succeedsIn, laysIn, keeps⟩ := ready.copyTreeIn_lays ordered
  rw [copyTreeIn_sorted] at succeeds lays
  -- after a success a path leads to whatever is listed
  have found : copied.1 = .ok () → ∀ way, (∀ name ∈ way, IsEntry name) → ∀ node,
      disk.listed? (source.extend way) = some node → disk.node? (source.extend way) = some node :=
    fun succeeded => (lays succeeded).node?_of_listed? ready
  refine ⟨⟨?_, ?_⟩, fun succeeded => ⟨?_, ?_⟩, succeedsIn.trans succeeds.symm,
    fun succeeded => ?_, keeps⟩
  · intro succeeded way entries node listed
    have isNode := found succeeded way entries node listed
    refine ⟨(node?_eq_some_iff.1 isNode).1, ?_⟩
    rcases List.eq_nil_or_concat way with rfl | ⟨early, name, rfl⟩
    · obtain ⟨accepted, -, stands⟩ := isDirectory_iff.1 ready.standsDestination
      rw [extend_nil, isDirectory_iff_node?.1 ready.standsSource] at isNode
      cases isNode
      rw [List.append_nil, stands]
      simpa using utf8ByteSize_of_refuse accepted
    · rw [List.concat_eq_append] at *
      refine (ready.fits_iff entries isNode).1 (succeeds.1 succeeded _ ?_)
      exact mem_walkTree_of_listed? (fun item walked => ((lays succeeded).reached item walked).entries)
        ready.standsSource (by simp) entries (by simp [listed])
  · intro fit
    refine succeeds.2 fun item member => ?_
    cases met_of_mem_walkTree ready.named member with
    | node entries listed =>
      obtain ⟨node, isNode⟩ := Option.isSome_iff_exists.1 listed
      obtain ⟨usable, rest⟩ := fit item entries node isNode
      obtain ⟨early, name, rfl⟩ :=
        (List.eq_nil_or_concat item).resolve_left (ne_nil_of_mem_walkTree member)
      rw [List.concat_eq_append] at *
      exact (ready.fits_iff entries (node?_eq_some_iff.2 ⟨usable, isNode⟩)).2 rest
    | blank entries listed closed =>
      have usable := (fit _ entries _ listed).1
      rw [isDirectory_iff_node?.2 (node?_eq_some_iff.2 ⟨usable, listed⟩)] at closed
      cases closed
  · exact fun way entries node listed => ((lays succeeded).copied ready).reached way entries node
      (found succeeded way entries node listed)
  · intro location free
    refine (lays succeeded).elsewhere location fun way member => ?_
    obtain ⟨entries, node, listed, -⟩ := (lays succeeded).reached way member
    exact free way entries (by simp [listed])
  · exact (laysIn (succeedsIn.2 (succeeds.1 succeeded))).get?_eq (lays succeeded)

/-- Two directories with files of one name. -/
def twoTrees : Disk :=
  ⟨[], [(["a"], .directory), (["a", "f"], .file [1]), (["a", "x"], .directory),
    (["b"], .directory), (["b", "f"], .file [2]), (["b", "g"], .file [3])]⟩

theorem copyTree_overlays_twoTrees :
    CopyReady (ofText "a") (ofText "b") twoTrees ∧
      (copyTree (ofText "a") (ofText "b") twoTrees).1 = .ok () ∧
      (copyTreeIn (fun _ => List.reverse) (ofText "a") (ofText "b") twoTrees).2.get? ["b", "f"] =
        some (.file [1]) := by
  have ready : CopyReady (ofText "a") (ofText "b") twoTrees :=
    .of_apart (by decide) (by decide) ⟨by decide, by decide⟩
      ((wellNamed_of_nodes (by decide)).namedBelow _)
  have succeeds : (copyTree (ofText "a") (ofText "b") twoTrees).1 = .ok () := by decide +kernel
  obtain ⟨-, -, -, same, -⟩ := copyTree_overlays (fun _ => List.reverse_perm) ready
  refine ⟨ready, succeeds, (same succeeds _).trans ?_⟩
  decide +kernel

/-- A directory below the one that it is copied over. -/
def nested : Disk :=
  ⟨[], [(["d"], .directory), (["d", "s"], .directory), (["d", "s", "f"], .file [1]),
    (["d", "s", "s"], .directory), (["d", "s", "s", "f"], .file [2])]⟩

/-- A copy over a directory above the source comes back to the source and changes it. -/
theorem copyTree_changes_source :
    isBelow (nested.place (ofText "d/s")) (nested.place (ofText "d")) = false ∧
      (copyTree (ofText "d/s") (ofText "d") nested).1 = .ok () ∧
      nested.get? ["d", "s", "f"] = some (.file [1]) ∧
      (copyTree (ofText "d/s") (ofText "d") nested).2.get? ["d", "s", "f"] = some (.file [2]) := by
  decide +kernel

/-! ## Copies into the source -/

section

variable {base : Disk} {early inner : List String}

/-- While a tree is copied, directories stay directories. -/
theorem copyRules_touches (base : Disk) :
    CopyRules (Touches (fun _ => True) base) fun _ _ => True where
  directories _ destination _ disk touches :=
    touches.trans ((makeDirectories_opensOnly destination disk).touches.mono fun _ _ => trivial)
  parents _ destination _ disk touches :=
    touches.trans ((makeParents_opensOnly destination disk).touches.mono fun _ _ => trivial)
  files source destination _ disk touches := by
    unfold attempt
    split
    next after done =>
      obtain ⟨_, -, written⟩ := copyFile_ok done
      exact touches.trans ((touches_updateFile written).mono fun _ _ => trivial)
    · exact touches
  names _ _ _ _ _ _ _ _ _ := trivial

/-- A copy of several entries that succeeds has copied each of them. -/
theorem copyNames_ok {copy : Path → Path → DiskAction Unit} {names : List String}
    (keeps : ∀ source destination, Keeps (Touches (fun _ => True) base) (copy source destination))
    (member : name ∈ names) (touches : Touches (fun _ => True) base disk)
    (done : (copyNames copy source destination names disk).1 = .ok ()) :
    ∃ between, Touches (fun _ => True) base between ∧
      (copy (source.join name) (destination.join name) between).1 = .ok () := by
  induction names generalizing disk with
  | nil => cases member
  | cons first rest ih =>
    rw [copyNames, exceptBind_apply] at done
    cases ran : copy (source.join first) (destination.join first) disk with
    | mk outcome between =>
      rw [ran] at done
      cases outcome with
      | error cause => cases done
      | ok _ =>
        rcases List.mem_cons.1 member with rfl | later
        · exact ⟨disk, touches, by rw [ran]⟩
        · have kept := keeps (source.join first) (destination.join first) disk touches
          rw [ran] at kept
          exact ih later kept done

/-- The copy of a directory into one below it comes to its own copies, one after another, as deep as
it may go. -/
theorem copyNode_circles (fuel : Nat)
    (proper : ∀ name ∈ inner ++ early, IsEntry name ∧ isTooLong name = false)
    (inside : disk.place destination = disk.place source ++ inner)
    (circles : early ++ [name] <+: inner ++ early)
    (chain : ∀ way, way <+: inner ++ early →
      disk.get? (disk.place source ++ way) = some .directory)
    (stands : disk.isDirectory (source.extend early)) :
    (copyNode fuel (source.extend (early ++ [name])) (destination.extend (early ++ [name])) disk).1 ≠
      .ok () := by
  induction fuel generalizing early name disk with
  | zero =>
    rw [copyNode]
    intro done
    cases done
  | succ fuel ih =>
    intro done
    have isName := proper name (circles.subset (by simp))
    have entries : ∀ other ∈ early ++ [name], IsEntry other := fun other member =>
      (proper other (circles.subset member)).1
    have there : disk.listed? (source.extend (early ++ [name])) = some .directory := by
      rw [extend_concat, listed?, walk_join stands isName.1, walk, step_entry stands isName.1 isName.2,
        place_extend _ _ fun other member => entries other (List.mem_append_left _ member),
        List.append_assoc, chain _ circles]
      simp [walk, chain _ circles]
    have looked : (get : DiskAction Disk) disk = (.ok disk, disk) := rfl
    rw [copyNode, exceptBind_of_ok looked, there] at done
    obtain ⟨_, opened, made, done⟩ := exceptBind_ok (eq_mk_of_fst_eq done)
    obtain ⟨names, listedOn, listing, done⟩ := exceptBind_ok done
    split at listing
    next found listed =>
      cases listing
      obtain ⟨standsBelow, rfl⟩ := listNames_eq_ok_iff.1 listed
      have touches : Touches (fun _ => True) disk opened :=
        (opensOnly_made made).touches.mono fun _ _ => trivial
      -- the directory that was made is the next one but the length of the circle
      have isMade : opened.get? (disk.place source ++ (inner ++ (early ++ [name]))) =
          some .directory := by
        have isDirectory := isDirectory_of_makeDirectories made (by
          rw [extend_concat]
          exact pieces_join_ne_blank _ isName.1)
        rw [← List.append_assoc, ← inside, ← place_congr touches.current, ← place_extend _ _ entries]
        exact (isDirectory_iff.1 isDirectory).2.2
      have chainBelow : ∀ way, way <+: inner ++ (early ++ [name]) →
          opened.get? (disk.place source ++ way) = some .directory := by
        intro way isPrefix
        rw [← List.append_assoc, List.prefix_concat_iff] at isPrefix
        rcases isPrefix with rfl | earlier
        · rw [List.append_assoc inner]
          exact isMade
        · exact touches.directories _ (chain way earlier)
      obtain ⟨next, further⟩ : ∃ next, early ++ [name] ++ [next] <+: inner ++ (early ++ [name]) := by
        obtain ⟨rest, isRest⟩ := circles
        obtain ⟨next, more, isMore⟩ := List.exists_cons_of_ne_nil
          (List.append_ne_nil_of_right_ne_nil rest (List.cons_ne_nil name []))
        refine ⟨next, more, ?_⟩
        rw [← List.append_assoc, ← isRest, List.append_assoc (early ++ [name]), List.append_assoc
          (early ++ [name]), isMore, List.singleton_append]
      have member : next ∈ opened.children (opened.place (source.extend (early ++ [name]))) := by
        rw [mem_children_iff, place_extend _ _ entries, place_congr touches.current,
          List.append_assoc, chainBelow _ further]
        rfl
      obtain ⟨later, kept, ran⟩ := copyNames_ok
        (fun _ _ => (copyRules_touches opened).keeps_copyNode fuel trivial) member (.refl _ _)
        (congrArg Prod.fst done)
      rw [← extend_concat, ← extend_concat] at ran
      have current := kept.current.trans touches.current
      refine ih ?_ ?_ further ?_ (kept.isDirectory standsBelow) ran
      · intro other isOther
        rw [← List.append_assoc, List.mem_append] at isOther
        rcases isOther with earlier | isLast
        · exact proper other earlier
        · rw [List.mem_singleton.1 isLast]
          exact isName
      · rw [place_congr current, place_congr current]
        exact inside
      · intro way isPrefix
        rw [place_congr current]
        exact kept.directories _ (chainBelow way isPrefix)
    · cases listing

/-- A directory cannot be copied into a directory below it. -/
theorem copyTree_into_itself
    (proper : ∀ name ∈ inner, IsEntry name ∧ isTooLong name = false) (notEmpty : inner ≠ [])
    (inside : disk.place destination = disk.place source ++ inner)
    (chain : ∀ way, way <+: inner → disk.get? (disk.place source ++ way) = some .directory) :
    (copyTree source destination disk).1 ≠ .ok () := by
  intro done
  obtain ⟨_, opened, made, done⟩ := exceptBind_ok (eq_mk_of_fst_eq done)
  have looked : (get : DiskAction Disk) opened = (.ok opened, opened) := rfl
  rw [exceptBind_of_ok looked] at done
  have touches : Touches (fun _ => True) disk opened :=
    (opensOnly_made made).touches.mono fun _ _ => trivial
  obtain ⟨name, rest, rfl⟩ := List.exists_cons_of_ne_nil notEmpty
  cases located : opened.locate source with
  | error cause =>
    rw [located] at done
    cases done
  | ok location =>
    obtain rfl := locate_eq_place located
    have top : opened.get? (opened.place source) = some .directory := by
      have first := chain [] List.nil_prefix
      rw [List.append_nil] at first
      rw [place_congr touches.current]
      exact touches.directories _ first
    have stands : opened.isDirectory source := by
      rw [isDirectory_iff_node?, node?, located]
      exact top
    rw [located] at done
    dsimp only at done
    rw [if_pos (by simpa [isDirectoryAt] using top), listNames_eq_ok_iff.2 ⟨stands, rfl⟩] at done
    have member : name ∈ opened.children (opened.place source) := by
      rw [mem_children_iff, place_congr touches.current,
        touches.directories _ (chain [name] (by simp))]
      rfl
    obtain ⟨later, kept, ran⟩ := copyNames_ok
      (fun _ _ => (copyRules_touches opened).keeps_copyNode deepest trivial) member (.refl _ _)
      (congrArg Prod.fst done)
    have current := kept.current.trans touches.current
    have standsStill : later.isDirectory (source.extend []) := kept.isDirectory stands
    have isInside : later.place destination = later.place source ++ name :: rest := by
      rw [place_congr current, place_congr current]
      exact inside
    refine copyNode_circles deepest (by simpa using proper) isInside (by simp) ?_ standsStill ran
    intro way isPrefix
    rw [place_congr current]
    exact kept.directories _ (touches.directories _ (chain way (by simpa using isPrefix)))

end

end OpsContent.Disk
