import OpsContent.Remote.Part

/-!
# Servers with a record

A server may be watched: it goes on as it does, and a record is kept of what was asked of it.
-/

namespace OpsContent

/-- A server with a record, oldest entries first. -/
structure Recorded (ε ρ : Type) where
  record : List ε := []
  server : ρ

namespace Recorded

variable {ε ρ α : Type}

/-- The server as a part of what is watched. -/
def inside : Part (Recorded ε ρ) ρ where
  get := server
  set := fun server recorded => { recorded with server }

/-- The record with one more entry. -/
def add (entry : ε) (site : Site (Recorded ε ρ)) : Site (Recorded ε ρ) :=
  { site with remote := { site.remote with record := site.remote.record ++ [entry] } }

/-- Add an entry to the record. -/
def note (entry : ε) : StateM (Site (Recorded ε ρ)) Unit :=
  modify (add entry)

/-- Let the server answer, and keep what the answer tells. -/
def noting (entry : α → ε) (step : StateM (Site ρ) α) : StateM (Site (Recorded ε ρ)) α :=
  fun site =>
    let (answer, after) := inside.onSite step site
    (answer, add (entry answer) after)

/-- Let the server work on the disk, and keep that it did. -/
def notingOnWorld (entry : ε) (step : StateM (World ρ) α) : StateM (World (Recorded ε ρ)) α :=
  fun world =>
    let (value, after) := inside.onWorld step world
    (value, { after with site := add entry after.site })

end Recorded

end OpsContent
