import OpsContent.World

/-!
# Batches

Items of a batch are worked on one after another. A failing item is logged and noted, and the
others go on; at the end the batch fails with all that was noted.
-/

namespace OpsContent.Batch

variable {ρ α : Type}

/-- What became of the items of a batch so far. -/
structure Report where
  done : Nat := 0
  failures : List ItemFailure := []

/-- Report a failure and note it. -/
def note (kind : AssetKind) (item message : String) : StateM (World ρ) ItemFailure := do
  World.onSite (Site.report message)
  pure { kind, item, message }

/-- Work on one item and note its failure. -/
def item (kind : AssetKind) (name : String) (work : Sync ρ Unit) :
    StateM (World ρ) (Option ItemFailure) := fun world =>
  match work world with
  | (.ok (), world) => (none, world)
  | (.error cause, world) =>
    let (failure, world) := note kind name cause.message world
    (some failure, world)

/-- Count a success, or keep a failure. -/
def Report.add (report : Report) : Option ItemFailure → Report
  | none => { report with done := report.done + 1 }
  | some failure => { report with failures := report.failures ++ [failure] }

/-- Work on each value in turn, whatever becomes of the others. -/
def each (kind : AssetKind) (name : α → String) (work : α → Sync ρ Unit) :
    Report → List α → StateM (World ρ) Report
  | report, [] => pure report
  | report, value :: rest => do
      let outcome ← item kind (name value) (work value)
      each kind name work (report.add outcome) rest

end OpsContent.Batch
