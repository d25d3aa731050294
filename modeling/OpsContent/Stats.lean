import OpsContent.Asset

/-!
# Statistics

Counts of assets by kind: what an export staged, and what an import queued, pushed and shared.
-/

namespace OpsContent

abbrev Counts := Table Nat

namespace Counts

/-- Count more under a key. -/
def addKey (counts : Counts) (key : String) (count : Nat) : Counts :=
  counts.insert key ((counts.find? key).getD 0 + count)

/-- Count more assets of a kind. -/
def add (counts : Counts) (kind : AssetKind) (count : Nat) : Counts :=
  counts.addKey kind.key count

/-- How many of a kind were counted. -/
def count (counts : Counts) (kind : AssetKind) : Nat :=
  (counts.find? kind.key).getD 0

theorem count_nil (kind : AssetKind) : count [] kind = 0 :=
  rfl

/-- Raising the count of one kind leaves the others. -/
theorem count_add (counts : Counts) (kind other : AssetKind) (number : Nat) :
    (counts.add kind number).count other =
      counts.count other + if other = kind then number else 0 := by
  have injective : other.key = kind.key ↔ other = kind := by
    refine ⟨fun same => ?_, congrArg AssetKind.key⟩
    have found := AssetKind.ofKey?_key other
    rw [same, AssetKind.ofKey?_key] at found
    exact (Option.some.inj found).symm
  unfold count add addKey
  rw [Table.find?_insert]
  by_cases same : other = kind
  · simp [same]
  · simp [same, injective]

def total (counts : Counts) : Nat :=
  counts.foldr (fun entry total => entry.2 + total) 0

/-- The counts of both. -/
def merge (counts other : Counts) : Counts :=
  other.foldl (fun counts entry => counts.addKey entry.1 entry.2) counts

def toJson (counts : Counts) : Json :=
  .object (counts.mapValues Json.ofNat)

end Counts

/-- What an export has brought. -/
structure ExportStats where
  assets : Counts := []
  written : Bool := false
  deriving DecidableEq

namespace ExportStats

def add (stats : ExportStats) (kind : AssetKind) (count : Nat) : ExportStats :=
  { stats with assets := stats.assets.add kind count }

def total (stats : ExportStats) : Nat :=
  stats.assets.total

def isEmpty (stats : ExportStats) : Bool :=
  stats.total == 0

def merge (stats other : ExportStats) : ExportStats :=
  { assets := stats.assets.merge other.assets, written := stats.written || other.written }

def toJson (stats : ExportStats) : Json :=
  Json.ofFields [("assets", stats.assets.toJson), ("written", .bool stats.written)]

end ExportStats

/-- What an import has done. -/
structure ImportStats where
  queued : Counts := []
  pushed : Counts := []
  shared : Nat := 0
  unshared : Nat := 0
  submitted : Bool := false
  deriving DecidableEq

namespace ImportStats

def addQueued (stats : ImportStats) (kind : AssetKind) (count : Nat) : ImportStats :=
  { stats with queued := stats.queued.add kind count }

def addPushed (stats : ImportStats) (kind : AssetKind) (count : Nat) : ImportStats :=
  { stats with pushed := stats.pushed.add kind count }

def total (stats : ImportStats) : Nat :=
  stats.queued.total + stats.pushed.total + stats.shared + stats.unshared

def merge (stats other : ImportStats) : ImportStats where
  queued := stats.queued.merge other.queued
  pushed := stats.pushed.merge other.pushed
  shared := stats.shared + other.shared
  unshared := stats.unshared + other.unshared
  submitted := stats.submitted || other.submitted

def toJson (stats : ImportStats) : Json :=
  Json.ofFields [("queued", stats.queued.toJson), ("pushed", stats.pushed.toJson),
    ("shared", .ofNat stats.shared), ("unshared", .ofNat stats.unshared),
    ("submitted", .bool stats.submitted)]

end ImportStats

end OpsContent
