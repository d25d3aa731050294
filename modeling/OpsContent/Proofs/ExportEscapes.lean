import OpsContent.Proofs.ExportAtomicity

/-!
# Names that lead out of the workspace

A definition is written where its name leads.  If that is outside of the workspace, the file is
still there when the workspace is gone, so a dry run that succeeds leaves no trace exactly if the
name stays inside.
-/

namespace OpsContent

open OpsContent.Path Staging Disk Export

namespace Synchronizer

variable {ρ : Type}

/-! ## One definition -/

/-- A server that has one symptom definition and nothing else. -/
def oneSymptom (asset : RemoteAsset) : Scripted.Answers where
  definitions := fun kind => if kind = .symptom then [asset] else []

def serving (synchronizer : Synchronizer ρ) (asset : RemoteAsset) : Synchronizer ρ :=
  { synchronizer with query := (oneSymptom asset).query }

/-- The same, offering one symptom of a name. -/
def offering (synchronizer : Synchronizer ρ) (name : String) : Synchronizer ρ :=
  synchronizer.serving ⟨name, none, .null⟩

theorem scratch_offering (synchronizer : Synchronizer ρ) (name : String) :
    (synchronizer.offering name).scratch = synchronizer.scratch := rfl

def symptomDescriptor : Descriptor := Descriptor.set {} .symptomDefinition ["*"]

def symptomFile (workspace : Path) (name : String) : Path :=
  ((stagingIn workspace).join AssetKind.symptomDefinition.directory).join (name ++ ".json")

variable {synchronizer : Synchronizer ρ} {package : Package} {name : String} {asset : RemoteAsset}
  {world after : World ρ} {stats : ExportStats}

theorem namesFit_offering (fits : AssetKind.symptomDefinition.Fits name) :
    symptomDescriptor.NamesFit (synchronizer.offering name).query where
  listed := by
    refine Scripted.Answers.serves _ (by simp [oneSymptom]) (by simp [oneSymptom])
      (by simp [oneSymptom]) (by simp [oneSymptom]) (by simp [oneSymptom]) ?_
    intro kind asset member _
    unfold oneSymptom at member
    dsimp only at member
    split at member
    next isSymptom =>
      subst isSymptom
      rw [List.mem_singleton.1 member]
      exact fits
    · simp at member
  dashboards := by simp [symptomDescriptor]
  metricConfigs := by simp [symptomDescriptor]

theorem exportAll_symptomDescriptor (context : Export.Context ρ) :
    exportAll context symptomDescriptor =
      (exportDefinitions context .symptom ["*"] >>= fun count =>
        pure (({} : ExportStats).add .symptomDefinition count)) := by
  simp [exportAll, exportKinds, AssetKind.all, symptomDescriptor,
    Descriptor.patterns_set, exportKind]

theorem accepts_anything (name : String) : Pattern.anyAccepts ["*"] name := by
  simp only [Pattern.anyAccepts, List.any_cons, List.any_nil, Bool.or_false, Pattern.accepts_eq]
  exact (Pattern.matchesChars_star [] name.toList).2 ⟨name.toList, [], by simp, rfl⟩

theorem each_singleton_ok {α : Type} {kind : AssetKind} {label : α → String}
    {work : α → Sync ρ Unit} {value : α}
    (clean : (Batch.each kind label work {} [value] world).1.failures = []) :
    work value world = (.ok (), (Batch.each kind label work {} [value] world).2) := by
  have single : Batch.each kind label work {} [value] world =
      (({} : Batch.Report).add (Batch.item kind (label value) (work value) world).1,
        (Batch.item kind (label value) (work value) world).2) := rfl
  rw [single] at clean ⊢
  unfold Batch.item at clean ⊢
  cases ran : work value world with
  | mk outcome after =>
    rw [ran] at clean
    cases outcome with
    | ok _ => rfl
    | error cause => exact absurd clean (List.cons_ne_nil _ _)

theorem writeAssets_singleton_ok {context : Export.Context ρ} {kind : AssetKind}
    {directory : Path} {asset : RemoteAsset} {count : Nat}
    (done : writeAssets context kind directory ["*"] [asset] world = (.ok count, after)) :
    writeJson (directory.join (asset.name ++ ".json")) asset.content world.disk =
      (.ok (), after.disk) := by
  have selected : matchedAssets ["*"] [asset] = [asset] := by
    simp [matchedAssets, accepts_anything]
  unfold writeAssets at done
  rw [selected] at done
  obtain ⟨report, worked, batch, done⟩ := exceptBind_ok done
  obtain ⟨_, _, settled, counted⟩ := exceptBind_ok done
  cases counted
  have reported := always_ok batch
  have clean : report.failures = [] ∧ after = worked := by
    unfold World.settle batchResult at settled
    split at settled
    next empty =>
      cases settled
      exact ⟨List.isEmpty_iff.1 empty, rfl⟩
    · cases settled
  have failures : (Batch.each kind (·.name) (writeAsset directory) {} [asset]
      world).1.failures = [] := by
    rw [reported]
    exact clean.1
  have written := each_singleton_ok failures
  rw [reported] at written
  rw [clean.2]
  exact (Zone.files_ok written).1

theorem current_of_makeDirectories {path : Path}
    (made : World.files (makeDirectories path) world = (.ok (), after)) :
    after.disk.current = world.disk.current :=
  (opensOnly_made (Zone.files_ok made).1).current

theorem written_of_stagePackage {workspace : Path}
    (done : (synchronizer.serving asset).stagePackage package symptomDescriptor workspace world =
      (.ok stats, after)) :
    ∃ disk : Disk, disk.current = world.disk.current ∧
      disk.isDirectory ((stagingIn workspace).join AssetKind.symptomDefinition.directory) ∧
      writeJson (symptomFile workspace asset.name) asset.content disk = (.ok (), after.disk) := by
  unfold stagePackage at done
  rw [exportAll_symptomDescriptor] at done
  obtain ⟨_, prepared, made, done⟩ := exceptBind_ok done
  obtain ⟨count, _, done, counted⟩ := exceptBind_ok done
  cases counted
  unfold exportDefinitions at done
  obtain ⟨directory, ready, entered, done⟩ := exceptBind_ok done
  obtain ⟨_, _, opened, named⟩ := exceptBind_ok entered
  cases named
  obtain ⟨assets, asked, listed, done⟩ := exceptBind_ok done
  have answer : Query.ask ((synchronizer.serving asset).query.listDefinitions .symptom) ready =
      (.ok [asset], ready) := rfl
  rw [answer] at listed
  cases listed
  have stands := isDirectory_of_makeDirectories (Zone.files_ok opened).1
    (pieces_join_ne_blank _ AssetKind.symptomDefinition.isEntry_directory)
  have written := writeAssets_singleton_ok done
  exact ⟨ready.disk, (current_of_makeDirectories opened).trans (current_of_makeDirectories made),
    stands, written⟩

theorem get?_of_stagePackage {workspace : Path}
    (done : (synchronizer.offering name).stagePackage package symptomDescriptor workspace world =
      (.ok stats, after)) :
    after.disk.current = world.disk.current ∧
      after.disk.get? (world.disk.place (symptomFile workspace name)) =
        some (.file (Bytes.ofText Json.null.pretty)) := by
  obtain ⟨disk, current, -, written⟩ := written_of_stagePackage done
  obtain ⟨sameCurrent, stands⟩ := replaceFile_ok written
  refine ⟨sameCurrent.trans current, ?_⟩
  rw [← place_congr current]
  exact stands

/-! ## Outside of the workspace -/

theorem notMem_place_symptomFile {scratch : Path} (fresh : world.Fresh scratch "vrsync-export")
    (elsewhere : world.nextName "vrsync-export" ∉ (ofText (name ++ ".json")).pieces)
    (climbs : ¬ StaysWithin 2 (name ++ ".json")) :
    world.nextName "vrsync-export" ∉
      world.disk.place (symptomFile (scratch.join (world.nextName "vrsync-export")) name) := by
  have entry := fresh.isEntry (by decide) (by decide)
  have staging : IsEntry "vrops-export" := by decide
  have directory := AssetKind.symptomDefinition.isEntry_directory
  cases relative : (ofText (name ++ ".json")).absolute with
  | true =>
    have replaced : symptomFile (scratch.join (world.nextName "vrsync-export")) name =
        ofText (name ++ ".json") := by
      simp [symptomFile, join, relative]
    rw [replaced, place]
    intro member
    rcases mem_follow member with started | ⟨passed, -⟩
    · simp [start, relative] at started
    · exact elsewhere passed
  | false =>
    have tooFar : staysBelow 2 (ofText (name ++ ".json")).pieces = false := by
      rw [← Bool.not_eq_true]
      exact fun below => climbs ⟨relative, below⟩
    obtain ⟨rest, isSuffix, reached⟩ := follow_of_climbs tooFar
      (world.disk.place scratch ++ [world.nextName "vrsync-export"])
      (rfl : ["vrops-export", AssetKind.symptomDefinition.directory].length = 2)
    have starts (path : Path) : world.disk.start (path.join (name ++ ".json")) =
        world.disk.start path := by
      simp [start, absolute_join relative]
    have placed : world.disk.place
        (symptomFile (scratch.join (world.nextName "vrsync-export")) name) =
          follow (world.disk.place scratch) rest := by
      rw [List.dropLast_concat] at reached
      rw [← reached, symptomFile, place, starts, pieces_join relative, follow_append,
        follow_stem, ← place, stagingIn, place_join _ _ directory,
        place_join _ _ staging, place_join _ _ entry]
      simp
    rw [placed]
    intro member
    rcases mem_follow member with started | ⟨passed, -⟩
    · exact fresh.notMem_of_onWay rfl (onWay_place _ _) started
    · exact elsewhere (isSuffix.subset passed)

theorem get?_of_staged (fresh : world.Fresh synchronizer.scratch "vrsync-export")
    (away : world.nextName "vrsync-export" ∉ world.disk.place (symptomFile
      (synchronizer.scratch.join (world.nextName "vrsync-export")) name))
    (done : ((synchronizer.offering name).staged package symptomDescriptor world).1 = .ok stats) :
    ((synchronizer.offering name).staged package symptomDescriptor world).2.disk.get?
        (world.disk.place (symptomFile
          (synchronizer.scratch.join (world.nextName "vrsync-export")) name)) =
      some (.file (Bytes.ofText Json.null.pretty)) := by
  unfold staged at done ⊢
  rw [scratch_offering, withScratch_apply] at done ⊢
  cases made : makeDirectories (synchronizer.scratch.join (world.nextName "vrsync-export"))
      world.disk with
  | mk outcome base =>
    rw [made] at done
    cases outcome with
    | error cause => cases done
    | ok _ =>
      have started : (world.drawn base).disk.current = world.disk.current :=
        (opensOnly_made made).current
      obtain ⟨current, stands⟩ := get?_of_stagePackage (Prod.ext done rfl)
      have root := place_join world.disk synchronizer.scratch
        (fresh.isEntry (by decide) (by decide))
      rw [place_congr started] at stands
      rw [← place_congr (current.trans started)] at root
      refine (get?_removeScratch_of_outside ?_).trans stands
      rw [root, ← Bool.not_eq_true]
      intro below
      exact away ((isBelow_iff.1 below).subset (by simp))

/-- Where nothing stood before, a dry run that succeeds leaves no trace exactly if the name of the
definition stays inside the workspace. -/
theorem opensOnly_offering_iff (confined : synchronizer.channel.Confined)
    (fresh : world.Fresh synchronizer.scratch "vrsync-export")
    (elsewhere : world.nextName "vrsync-export" ∉ (ofText (name ++ ".json")).pieces)
    (free : world.disk.get? (world.disk.place (symptomFile
      (synchronizer.scratch.join (world.nextName "vrsync-export")) name)) = none)
    (done : ((synchronizer.offering name).exportPackage package symptomDescriptor true world).1 =
      .ok stats) :
    Disk.OpensOnly (world.disk.OnWay synchronizer.scratch) world.disk
        ((synchronizer.offering name).exportPackage package symptomDescriptor true world).2.disk ↔
      AssetKind.symptomDefinition.Fits name := by
  rw [exportPackage_dryRun] at done ⊢
  constructor
  · intro opens staged member
    rw [List.mem_singleton.1 member]
    by_contra climbs
    have away := notMem_place_symptomFile fresh elsewhere climbs
    have written := get?_of_staged fresh away done
    rcases opens.nodes _ with same | ⟨-, -, directory⟩
    · rw [written, free] at same
      cases same
    · rw [written] at directory
      cases directory
  · intro fits
    have sameChannel : (synchronizer.offering name).channel.Confined := confined
    rw [← scratch_offering synchronizer name] at fresh ⊢
    exact opensOnly_staged sameChannel (namesFit_offering fits) fresh

end Synchronizer

end OpsContent
