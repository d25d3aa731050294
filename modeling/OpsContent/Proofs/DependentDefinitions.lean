import OpsContent.Proofs.Identifiers
import OpsContent.Proofs.ServerSteps

/-!
# What a push knows of the pushes before it

Every push of definitions carries the definitions of the run so far, by identifier.  Under an
identifier stands what was pushed last, so that everything is there exactly if no two kinds share
an identifier.
-/

namespace OpsContent

open List Dependents

variable {ρ α : Type} {pushes : List Push} {push : Push} {later earlier : List Push}

/-! ## Pushes among the calls -/

/-- A push of definitions with the dependents known by then. -/
structure Push where
  kind : DefinitionKind
  definitions : Table Json
  dependents : Dependents

def Push.batch (push : Push) : DefinitionKind × Table Json :=
  (push.kind, push.definitions)

def Call.push? : Call → Option Push
  | .importDefinitions kind definitions dependents => some { kind, definitions, dependents }
  | _ => none

/-- The last definition under an identifier. -/
def lastPushed? (id : String) : List Push → Option (DefinitionKind × Json)
  | [] => none
  | push :: later => (lastPushed? id later).or ((push.definitions.find? id).map (push.kind, ·))

/-- No identifier is pushed twice. -/
def ShareNoId (pushes : List Push) : Prop :=
  pushes.Pairwise fun one other =>
    ∀ id, one.definitions.holds id = true → other.definitions.holds id = false

theorem lastPushed?_concat (id : String) (pushes : List Push) (push : Push) :
    lastPushed? id (pushes ++ [push]) =
      ((push.definitions.find? id).map (push.kind, ·)).or (lastPushed? id pushes) := by
  induction pushes with
  | nil => simp [lastPushed?]
  | cons first rest ih => rw [cons_append, lastPushed?, ih, Option.or_assoc, lastPushed?]

theorem lastPushed?_of_shareNoId (apart : ShareNoId pushes) {past : Push} (member : past ∈ pushes)
    {id : String} {content : Json} (pushed : past.definitions.find? id = some content) :
    lastPushed? id pushes = some (past.kind, content) := by
  have absent : ∀ later : List Push,
      (∀ other ∈ later, other.definitions.holds id = false) → lastPushed? id later = none := by
    intro later free
    induction later with
    | nil => rfl
    | cons first rest ih =>
      have absentHere : first.definitions.find? id = none := by
        simpa [Table.holds] using free first (by simp)
      simp [lastPushed?, absentHere, ih (forall_mem_cons.1 free).2]
  induction pushes with
  | nil => simp at member
  | cons first rest ih =>
    obtain ⟨fromFirst, apartRest⟩ := pairwise_cons.1 apart
    rcases mem_cons.1 member with rfl | inRest
    · have held : past.definitions.holds id := by simp [Table.holds, pushed]
      rw [lastPushed?, absent rest fun other inRest => fromFirst other inRest id held, pushed]
      rfl
    · rw [lastPushed?, ih apartRest inRest]
      rfl

/-! ## What accumulates -/

theorem Dependents.find?_extend {definitions : Table Json} (sorted : definitions.Sorted)
    (dependents : Dependents) (kind : DefinitionKind) (id : String) :
    (dependents.extend kind definitions).find? id =
      ((definitions.find? id).map (kind, ·)).or (dependents.find? id) := by
  unfold extend
  induction definitions generalizing dependents with
  | nil => rfl
  | cons entry rest ih =>
    obtain ⟨below, sortedRest⟩ := pairwise_cons.1 sorted
    rw [foldl_cons, ih sortedRest, Table.find?_insert, Table.find?]
    by_cases same : entry.1 = id
    · have absent : Table.find? rest id = none := Table.find?_eq_none_of_lt (same ▸ below)
      simp [same, absent]
    · simp [same, Ne.symm same]

theorem accumulated_concat (pushes : List Push) (push : Push) :
    accumulated ((pushes ++ [push]).map Push.batch) =
      (accumulated (pushes.map Push.batch)).extend push.kind push.definitions := by
  rw [map_append, accumulated, foldl_append]
  rfl

/-- Of two pushes under one identifier the last counts. -/
theorem find?_accumulated (sorted : ∀ push ∈ pushes, push.definitions.Sorted) (id : String) :
    (accumulated (pushes.map Push.batch)).find? id = lastPushed? id pushes := by
  induction pushes using List.reverseRecOn with
  | nil => rfl
  | append_singleton pushes push ih =>
    have earlier := ih fun other member => sorted other (by simp [member])
    rw [accumulated_concat, find?_extend (sorted push (by simp)), earlier,
      lastPushed?_concat]

/-- Pushes each of which knows what had accumulated with it. -/
structure Accumulating (pushes : List Push) : Prop where
  sorted : ∀ push ∈ pushes, push.definitions.Sorted
  knows : ∀ earlier push later, pushes = earlier ++ push :: later →
    push.dependents = Dependents.accumulated ((earlier ++ [push]).map Push.batch)

theorem Accumulating.nil : Accumulating [] := by
  refine ⟨fun push member => by simp at member, fun earlier push later whole => ?_⟩
  simp at whole

theorem Accumulating.concat (accumulating : Accumulating pushes) (sorted : push.definitions.Sorted)
    (knows : push.dependents = accumulated ((pushes ++ [push]).map Push.batch)) :
    Accumulating (pushes ++ [push]) := by
  refine ⟨fun other member => ?_, fun earlier other later whole => ?_⟩
  · rcases mem_append.1 member with early | last
    · exact accumulating.sorted other early
    · rw [mem_singleton.1 last]
      exact sorted
  · rcases eq_nil_or_concat later with rfl | ⟨between, last, rfl⟩
    · obtain ⟨rfl, same⟩ := append_inj' whole rfl
      rw [← singleton_inj.1 same]
      exact knows
    · have cut : pushes ++ [push] = (earlier ++ other :: between) ++ [last] := by simp [whole]
      exact accumulating.knows earlier other between (append_inj' cut rfl).1

theorem Accumulating.find?_dependents (accumulating : Accumulating pushes)
    (whole : pushes = earlier ++ push :: later) (id : String) :
    push.dependents.find? id = lastPushed? id (earlier ++ [push]) := by
  rw [accumulating.knows earlier push later whole, find?_accumulated]
  intro other member
  apply accumulating.sorted other
  rw [whole, append_cons]
  exact mem_append_left later member

theorem Accumulating.complete_iff (accumulating : Accumulating pushes)
    (kinds : (pushes.map Push.kind).Nodup) (whole : pushes = earlier ++ push :: later) :
    (∀ past ∈ earlier ++ [push], ∀ id content, past.definitions.find? id = some content →
      push.dependents.find? id = some (past.kind, content)) ↔ ShareNoId (earlier ++ [push]) := by
  constructor
  · intro complete
    rw [whole, append_cons, map_append, nodup_append] at kinds
    refine (pairwise_map.1 kinds.1).imp_of_mem ?_
    intro one other inOne inOther different id heldOne
    by_contra heldOther
    obtain ⟨first, foundFirst⟩ := Option.isSome_iff_exists.1 heldOne
    obtain ⟨second, foundSecond⟩ := Option.isSome_iff_exists.1 (Bool.of_not_eq_false heldOther)
    have found := complete one inOne id first foundFirst
    rw [complete other inOther id second foundSecond] at found
    exact different (Prod.mk.inj (Option.some.inj found)).1.symm
  · intro apart past member id content pushed
    rw [accumulating.find?_dependents whole, lastPushed?_of_shareNoId apart member pushed]

/-! ## Calls of an import -/

/-- The pushes made since are good. -/
def Traced.Pushes (before : List Call) (good : List Push → Prop) (traced : Traced ρ) : Prop :=
  ∃ made, traced.calls = before ++ made ∧ good (made.filterMap Call.push?)

namespace Traced

variable {before : List Call} {good : List Push → Prop} {call : Call}

theorem Pushes.mono {better : List Push → Prop} {traced : Traced ρ}
    (pushes : traced.Pushes before good) (implies : ∀ past, good past → better past) :
    traced.Pushes before better :=
  pushes.imp fun _ both => ⟨both.1, implies _ both.2⟩

theorem keeps_answer (quiet : call.push? = none) (step : StateM (Site ρ) α) :
    Keeps (Site.Has (Traced.Pushes before good)) (answer call step) := by
  rintro site ⟨made, calls, holds⟩
  refine ⟨made ++ [call], ?_, ?_⟩
  · change site.remote.calls ++ [call] = _
    rw [calls, append_assoc]
  · simpa [quiet] using holds

theorem keeps_answer_onSite (quiet : call.push? = none) (step : StateM (Site ρ) α) :
    Keeps (World.Has (Traced.Pushes before good)) (World.onSite (answer call step)) :=
  fun world holds => keeps_answer quiet step world.site holds

theorem leads_answer {past : List Push} (pushed : call.push? = some push) (step : StateM (Site ρ) α) :
    Leads (World.Has (Traced.Pushes before (· = past)))
      (World.Has (Traced.Pushes before (· = past ++ [push])))
      (World.onSite (answer call step)) := by
  rintro world ⟨made, calls, rfl⟩
  refine ⟨made ++ [call], ?_, ?_⟩
  · change world.site.remote.calls ++ [call] = _
    rw [calls, append_assoc]
  · simp [pushed]

end Traced

namespace Import

/-- An import whose server keeps its calls. -/
def Context.traced (context : Context ρ) : Context (Traced ρ) where
  query := Traced.query context.query
  channel := Traced.channel context.channel
  package := context.package
  staging := context.staging
  dryRun := context.dryRun

variable {context : Context ρ} {before : List Call} {past : List Push} {progress : Progress}
  {world : World (Traced ρ)}

theorem pushKind_accumulates (kind : DefinitionKind) (accumulating : Accumulating past)
    (known : progress.dependents = accumulated (past.map Push.batch))
    (holds : World.Has (Traced.Pushes before (· = past)) world) :
    ∃ more : List Push, (more.map Push.kind).Sublist [kind] ∧ Accumulating (past ++ more) ∧
      (pushKind context.traced kind progress world).1.dependents =
        accumulated ((past ++ more).map Push.batch) ∧
      World.Has (Traced.Pushes before (· = past ++ more))
        (pushKind context.traced kind progress world).2 := by
  rcases pushKind_cases context.traced kind progress world with
    ⟨-, done⟩ | ⟨-, between, answer, sent, after, quiet, ran, noted, done⟩
  · rw [done]
    exact ⟨[], by simp, by simpa using accumulating, by rwa [append_nil],
      by rwa [append_nil]⟩
  · have ignores : ∀ past : List Push,
        IgnoresLog (World.Has fun traced : Traced ρ => traced.Pushes before (· = past)) :=
      fun past => World.Has.ignoresLog _
    obtain rfl : _ = sent := congrArg Prod.snd ran
    rw [done]
    refine ⟨[⟨kind, _, _⟩], by simp, accumulating.concat (Table.sorted_ofList _) ?_, ?_,
      noted _ (ignores _) (Traced.leads_answer rfl _ between (quiet _ (ignores past) holds))⟩
    all_goals
      rw [accumulated_concat, ← known]
      rfl

theorem pushKinds_accumulates (kinds : List DefinitionKind) (accumulating : Accumulating past)
    (known : progress.dependents = accumulated (past.map Push.batch))
    (holds : World.Has (Traced.Pushes before (· = past)) world) :
    ∃ more : List Push, (more.map Push.kind).Sublist kinds ∧ Accumulating (past ++ more) ∧
      World.Has (Traced.Pushes before (· = past ++ more))
        (pushKinds context.traced progress kinds world).2 := by
  induction kinds generalizing past progress world with
  | nil => exact ⟨[], by simp, by simpa using accumulating, by rwa [append_nil]⟩
  | cons kind rest ih =>
    obtain ⟨first, isKind, accumulatingFirst, knownFirst, holdsFirst⟩ :=
      pushKind_accumulates kind accumulating known holds
    obtain ⟨others, inOrder, accumulatingAll, holdsAll⟩ :=
      ih accumulatingFirst knownFirst holdsFirst
    refine ⟨first ++ others, ?_, ?_, ?_⟩
    · rw [map_append]
      exact isKind.append inOrder
    · rwa [← append_assoc]
    · rw [← append_assoc]
      exact holdsAll

/-- Pushes come in the order of the kinds, and each knows the definitions of all before it. -/
structure InOrder (pushes : List Push) : Prop where
  kinds : (pushes.map Push.kind).Sublist DefinitionKind.importOrder
  accumulating : Accumulating pushes

theorem leads_pushDefinitions (stats : ImportStats) :
    Leads (World.Has (Traced.Pushes before (· = [])))
      (World.Has (Traced.Pushes before InOrder)) (pushDefinitions context.traced stats) := by
  refine .andThen ?_ (fun _ holds => holds) fun progress => ?_
  · intro world holds
    have known : ({ stats } : Progress).dependents =
        accumulated (([] : List Push).map Push.batch) := rfl
    obtain ⟨more, kinds, accumulating, pushed⟩ :=
      pushKinds_accumulates DefinitionKind.importOrder Accumulating.nil known holds
    exact pushed.mono fun past same => same ▸ ⟨kinds, accumulating⟩
  · exact Keeps.andThen (Keeps.settle _) fun _ => Keeps.succeed _

theorem leads_importAll_traced (context : Context ρ) (before : List Call) :
    Leads (World.Has (Traced.Pushes before (· = [])))
      (World.Has (Traced.Pushes before InOrder)) (importAll context.traced) := by
  have ignores : ∀ good : List Push → Prop,
      IgnoresLog (World.Has fun traced : Traced ρ => traced.Pushes before good) :=
    fun good => World.Has.ignoresLog _
  have frames : ∀ good, context.traced.channel.Frames (World.Has (Traced.Pushes before good))
      (World.Has (Traced.Pushes before good)) (World.Has (Traced.Pushes before good))
      (World.Has (Traced.Pushes before good)) :=
    fun good => .of_keeps (Traced.keeps_answer_onSite rfl _) (Traced.keeps_answer_onSite rfl _)
  refine leads_importAll ?_ ?_ (fun _ => leads_pushDefinitions) ?_ ?_ ?_ (fun _ holds => holds) ?_
  · refine keeps_enqueueKinds (ignores _) (fun world kind _ source _ => ⟨?_, fun disk => ?_⟩) {} _
    · exact (SparesServer.build kind source).keeps
    · exact Traced.keeps_answer_onSite rfl _
  · exact leads_submit (ignores _) (ignores _) (fun _ holds => holds) (fun _ => frames _)
      fun world holds => Traced.keeps_answer rfl _ world.site holds
  · exact keeps_pushPolicies (ignores _) fun _ _ _ => Traced.keeps_answer_onSite rfl _
  · exact keeps_pushGroups (ignores _) fun _ _ _ => Traced.keeps_answer_onSite rfl _
  · exact keeps_applySharing (ignores _) (ignores _) (frames _)
      (fun _ => Traced.keeps_answer_onSite rfl _) (fun _ _ => Traced.keeps_answer_onSite rfl _)
      (fun _ _ => Traced.keeps_answer_onSite rfl _)
  · exact fun world holds => holds.mono fun past same => same ▸ ⟨nil_sublist _, .nil⟩

/-- What a push knows of the run.  For every staging tree, every server and every outcome, kinds
are pushed at most once and in their order, and a push knows under each identifier the definition
that was pushed last under it.  All definitions so far are known exactly if no two of the pushes
share an identifier. -/
theorem importAll_dependents (context : Context ρ) (world : World (Traced ρ)) :
    ∃ made, (importAll context.traced world).2.site.remote.calls =
        world.site.remote.calls ++ made ∧
      ((made.filterMap Call.push?).map Push.kind).Sublist DefinitionKind.importOrder ∧
      ∀ earlier push later, made.filterMap Call.push? = earlier ++ push :: later →
        (∀ id, push.dependents.find? id = lastPushed? id (earlier ++ [push])) ∧
        ((∀ past ∈ earlier ++ [push], ∀ id content, past.definitions.find? id = some content →
            push.dependents.find? id = some (past.kind, content)) ↔
          ShareNoId (earlier ++ [push])) := by
  obtain ⟨made, calls, inOrder⟩ := leads_importAll_traced context world.site.remote.calls world
    ⟨[], (List.append_nil _).symm, rfl⟩
  refine ⟨made, calls, inOrder.kinds, fun earlier push later whole => ⟨fun id => ?_, ?_⟩⟩
  · exact inOrder.accumulating.find?_dependents whole id
  · exact inOrder.accumulating.complete_iff (inOrder.kinds.nodup (by decide)) whole

/-! ## Two kinds with the same identifier -/

/-- An import to a server that accepts everything. -/
def acceptedImport : Context Scripted.Memory where
  query := ({} : Scripted.Answers).query
  channel := ({} : Scripted.Behaviour).channel
  package :=
    { path := ⟨true, ["work"]⟩, name := "p", version := "1.0.0", type := "vrops", id := none }
  staging := ⟨true, ["work"]⟩
  dryRun := false

/-- A staging tree with a symptom definition and an alert definition under one identifier. -/
def sharedIdentifier : World (Traced Scripted.Memory) where
  disk := { current := [], nodes :=
    [(["work"], .directory), (["work", "symptom_definitions"], .directory),
      (["work", "symptom_definitions", "cpu.json"], .file (Bytes.ofText "\x7b\"id\":\"1\"\x7d")),
      (["work", "alert_definitions"], .directory),
      (["work", "alert_definitions", "busy.json"], .file (Bytes.ofText "\x7b\"id\":\"1\"\x7d"))] }
  site := { tags := fun _ => "0", remote := { server := {} } }

/-- The push of the alert definition no longer knows the symptom definition. -/
theorem importAll_forgets_symptom :
    ∃ symptoms alerts : Push,
      (importAll acceptedImport.traced sharedIdentifier).2.site.remote.calls.filterMap Call.push? =
        [symptoms, alerts] ∧
      symptoms.kind = .symptom ∧ symptoms.definitions.holds "1" = true ∧
      ∀ content, alerts.dependents.find? "1" ≠ some (.symptom, content) := by
  have outline : ((importAll acceptedImport.traced sharedIdentifier).2.site.remote.calls.filterMap
      Call.push?).map (fun push => (push.kind, push.definitions.holds "1",
        (push.dependents.find? "1").map Prod.fst)) =
      [(.symptom, true, some .symptom), (.alert, true, some .alert)] := by
    decide +kernel
  obtain ⟨symptoms, rest, whole, first, others⟩ := List.map_eq_cons_iff.1 outline
  obtain ⟨alerts, noMore, rfl, second, last⟩ := List.map_eq_cons_iff.1 others
  simp only [Prod.mk.injEq] at first second
  refine ⟨symptoms, alerts, ?_, first.1, first.2.1, fun content found => ?_⟩
  · rw [whole, List.map_eq_nil_iff.1 last]
  · rw [found] at second
    simp at second

end Import

end OpsContent
