import OpsContent.Proofs.Steps

/-!
# Batches without failures

A batch that reports no failure has worked on its items one after another, each with success, and
has counted all of them.
-/

namespace OpsContent

variable {ρ α β : Type}

theorem failures_of_batchResult {batch : String} {failures : List ItemFailure}
    (clean : batchResult batch failures = .ok ()) : failures = [] := by
  unfold batchResult at clean
  split at clean
  next none => exact List.isEmpty_iff.1 none
  · cases clean

theorem settled_ok {run : Sync ρ α} {batch : String} {failures : α → List ItemFailure}
    {result : α → β} {value : β} {world after : World ρ}
    (done : (run >>= fun report => World.settle (batchResult batch (failures report)) >>= fun _ =>
      pure (result report) : Sync ρ β) world = (.ok value, after)) :
    ∃ report, run world = (.ok report, after) ∧ failures report = [] ∧ value = result report := by
  obtain ⟨report, between, ran, done⟩ := exceptBind_ok done
  obtain ⟨_, _, settled, done⟩ := exceptBind_ok done
  obtain ⟨rfl, rfl⟩ := pure_ok done
  obtain ⟨clean, rfl⟩ := settle_ok settled
  exact ⟨report, ran, failures_of_batchResult clean, rfl⟩

namespace Batch

variable {kind : AssetKind} {title : α → String} {work : α → Sync ρ Unit}
  {one : α → Sync ρ (Option ItemFailure)} {values : List α} {report final : Report}
  {world after : World ρ}

/-- Work on values one after another, and report what becomes of each. -/
def tally (one : α → Sync ρ (Option ItemFailure)) : Report → List α → Sync ρ Report
  | report, [] => pure report
  | report, value :: rest => one value >>= fun outcome => tally one (report.add outcome) rest

/-- The values were worked on one after another, as told of each. -/
inductive Works (passes : α → World ρ → World ρ → Prop) : List α → World ρ → World ρ → Prop
  | nil (world : World ρ) : Works passes [] world world
  | cons {value : α} {rest : List α} {world between after : World ρ}
      (first : passes value world between) (later : Works passes rest between after) :
      Works passes (value :: rest) world after

/-- The work on a value succeeds. -/
def Passes (work : α → Sync ρ Unit) (value : α) (world after : World ρ) : Prop :=
  work value world = (.ok (), after)

theorem Works.mono {passes others : α → World ρ → World ρ → Prop}
    (works : Works passes values world after)
    (imp : ∀ value world after, passes value world after → others value world after) :
    Works others values world after := by
  induction works with
  | nil => exact .nil _
  | cons first later ih => exact .cons (imp _ _ _ first) ih

theorem item_none {item : String} {work : Sync ρ Unit}
    (done : Batch.item kind item work world = (none, after)) : work world = (.ok (), after) := by
  unfold Batch.item at done
  split at done
  next ran =>
    cases done
    exact ran
  · cases done

theorem item_of_ok {work : Sync ρ Unit} (item : String) (ran : work world = (.ok (), after)) :
    Batch.item kind item work world = (none, after) := by
  unfold Batch.item
  rw [ran]

theorem each_cons {value : α} {between : World ρ} {outcome : Option ItemFailure}
    (ran : item kind (title value) (work value) world = (outcome, between))
    (report : Report) (rest : List α) :
    each kind title work report (value :: rest) world =
      each kind title work (report.add outcome) rest between := by
  change each kind title work (report.add (item kind (title value) (work value) world).1) rest
    (item kind (title value) (work value) world).2 = _
  rw [ran]

theorem always_each (report : Report) (values : List α) :
    (World.always (each kind title work report values) : Sync ρ Report) =
      tally (fun value => World.always (item kind (title value) (work value))) report values := by
  induction values generalizing report with
  | nil => rfl
  | cons value rest ih =>
    funext world
    exact congrFun (ih (report.add (item kind (title value) (work value) world).1)) _

theorem failures_tally (done : tally one report values world = (.ok final, after))
    (clean : final.failures = []) : report.failures = [] := by
  induction values generalizing report world with
  | nil =>
    cases done
    exact clean
  | cons value rest ih =>
    obtain ⟨outcome, between, -, finished⟩ := exceptBind_ok done
    have later := ih finished
    cases outcome with
    | none => exact later
    | some failure => simp [Report.add] at later

theorem tally_ok (done : tally one report values world = (.ok final, after))
    (clean : final.failures = []) :
    final.done = report.done + values.length ∧
      Works (fun value world after => one value world = (.ok none, after)) values world after := by
  induction values generalizing report world with
  | nil =>
    cases done
    exact ⟨rfl, .nil _⟩
  | cons value rest ih =>
    obtain ⟨outcome, between, ran, finished⟩ := exceptBind_ok done
    cases outcome with
    | some failure =>
      have noFailure := failures_tally finished clean
      simp [Report.add] at noFailure
    | none =>
      obtain ⟨count, later⟩ := ih finished
      refine ⟨?_, .cons ran later⟩
      rw [count, List.length_cons, Nat.add_comm rest.length, ← Nat.add_assoc]
      rfl

/-- A batch without failures has done all its work. -/
theorem each_ok
    (done : (World.always (each kind title work {} values) : Sync ρ Report) world =
      (.ok final, after)) (clean : final.failures = []) :
    final.done = values.length ∧ Works (Passes work) values world after := by
  rw [always_each] at done
  obtain ⟨count, works⟩ := tally_ok done clean
  exact ⟨count.trans (Nat.zero_add _), works.mono fun _ _ _ ran => item_none (always_ok ran)⟩

theorem Works.each (works : Works (Passes work) values world after) (kind : AssetKind)
    (title : α → String) (report : Report) :
    each kind title work report values world =
      ({ report with done := report.done + values.length }, after) := by
  induction works generalizing report with
  | nil => rfl
  | cons first later ih =>
    rw [each_cons (item_of_ok _ first), ih, List.length_cons, Nat.add_comm _ 1, ← Nat.add_assoc]
    rfl

/-- What is told of an item, by its outcome with the message of a failure. -/
def failure? {α : Type} (kind : AssetKind) (item : String) :
    Except String α → Option ItemFailure
  | .ok _ => none
  | .error message => some ⟨kind, item, message⟩

end Batch

end OpsContent
