import OpsContent.Remote.Channel
import OpsContent.Remote.Query

/-!
# Servers as parts of larger states

The query interface and the command channel each need a state of their own. A part says how the
state of one sits in a larger one, and the interface over the part acts on the larger state.
-/

namespace OpsContent

/-- A state that sits in a larger one. -/
structure Part (σ ρ : Type) where
  get : σ → ρ
  set : ρ → σ → σ

namespace Part

variable {σ ρ α : Type}

/-- The first of a pair. -/
def first {ρ τ : Type} : Part (ρ × τ) ρ where
  get := Prod.fst
  set := fun value whole => (value, whole.2)

/-- The second of a pair. -/
def second {ρ τ : Type} : Part (τ × ρ) ρ where
  get := Prod.snd
  set := fun value whole => (whole.1, value)

/-- A site as the part sees it. -/
def narrow (part : Part σ ρ) (site : Site σ) : Site ρ where
  log := site.log
  tags := site.tags
  drawn := site.drawn
  remote := part.get site.remote

/-- Put the part's site back into the whole. -/
def widen (part : Part σ ρ) (whole : σ) (site : Site ρ) : Site σ where
  log := site.log
  tags := site.tags
  drawn := site.drawn
  remote := part.set site.remote whole

/-- Take a step on the part. -/
def onSite (part : Part σ ρ) (step : StateM (Site ρ) α) : StateM (Site σ) α := fun site =>
  let (value, after) := step (part.narrow site)
  (value, part.widen site.remote after)

/-- Run a step on the disk and the part. -/
def onWorld (part : Part σ ρ) (step : StateM (World ρ) α) : StateM (World σ) α := fun world =>
  let (value, after) := step { disk := world.disk, site := part.narrow world.site }
  (value, { disk := after.disk, site := part.widen world.site.remote after.site })

/-- A query interface whose state is a part. -/
def query (part : Part σ ρ) (query : Query ρ) : Query σ where
  listViews := part.onSite query.listViews
  listReports := part.onSite query.listReports
  listSuperMetrics := part.onSite query.listSuperMetrics
  listPolicies := part.onSite query.listPolicies
  policyContent := fun policy => part.onSite (query.policyContent policy)
  listCustomGroups := part.onSite query.listCustomGroups
  listDefinitions := fun kind => part.onSite (query.listDefinitions kind)
  importDefinitions := fun kind definitions dependents =>
    part.onSite (query.importDefinitions kind definitions dependents)
  importCustomGroup := fun name payload policies =>
    part.onSite (query.importCustomGroup name payload policies)
  importPolicy := fun name content overwrite =>
    part.onSite (query.importPolicy name content overwrite)
  findGroups := fun names => part.onSite (query.findGroups names)

/-- A channel whose state is a part. -/
def channel (part : Part σ ρ) (channel : Channel ρ) : Channel σ where
  describe := fun whole => channel.describe (part.get whole)
  queued := fun whole => channel.queued (part.get whole)
  connect := part.onSite channel.connect
  close := part.onSite channel.close
  exportAsset := fun kind name directory =>
    part.onWorld (channel.exportAsset kind name directory)
  enqueue := fun kind file disk => part.onSite (channel.enqueue kind file disk)
  importFiles := part.onSite channel.importFiles
  share := fun name groups => part.onSite (channel.share name groups)
  unshare := fun name groups => part.onSite (channel.unshare name groups)
  cleanup := part.onSite channel.cleanup

end Part

end OpsContent
