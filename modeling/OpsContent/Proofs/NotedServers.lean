import OpsContent.Proofs.AnsweredExports
import OpsContent.Remote.Recorder

/-!
# Servers that note what they deliver

Every channel can note what its exports leave, without doing anything else.  So it is no restriction
to speak of servers with notes.  A scripted server has its script on offer.
-/

namespace OpsContent

open Export OpsContent.Path

variable {ρ : Type} {nodes : List (Location × Node)}

namespace Channel

def unnoted (world : World (Recorded Delivery ρ)) : World ρ where
  disk := world.disk
  site := Recorded.inside.narrow world.site

def withNotes (notes : List Delivery) (world : World ρ) : World (Recorded Delivery ρ) where
  disk := world.disk
  site := { world.site with remote := { record := notes, server := world.site.remote } }

/-- The channel, with notes of what its exports leave. -/
def noted (channel : Channel ρ) : Channel (Recorded Delivery ρ) :=
  { Recorded.inside.channel channel with
    exportAsset := fun kind name directory world =>
      match channel.exportAsset kind name directory (unnoted world) with
      | (.ok (), after) => (.ok (), withNotes
          (world.site.remote.record ++ Delivery.left after.disk directory kind name) after)
      | (.error cause, after) => (.error cause, withNotes world.site.remote.record after) }

variable (channel : Channel ρ)

theorem records_noted : channel.noted.Records Recorded.record where
  connect _ := rfl
  close _ := rfl
  exported kind name directory world after done := by
    unfold noted at done
    dsimp only at done
    split at done <;> cases done
    rfl
  failed kind name directory world cause after done := by
    unfold noted at done
    dsimp only at done
    split at done <;> cases done
    rfl

theorem exportAsset_noted (kind : ChannelKind) (name : String) (directory : Path)
    (world : World (Recorded Delivery ρ)) :
    (channel.noted.exportAsset kind name directory world).2.disk =
        (channel.exportAsset kind name directory (unnoted world)).2.disk ∧
      (channel.noted.exportAsset kind name directory world).2.site.tags =
        (channel.exportAsset kind name directory (unnoted world)).2.site.tags := by
  unfold noted
  dsimp only
  split
  next ran => simp [ran, withNotes]
  next ran => simp [ran, withNotes]

theorem Confined.noted {channel : Channel ρ} (confined : channel.Confined) :
    channel.noted.Confined where
  connect site fit := confined.connect (Recorded.inside.narrow site) fit
  close site fit := confined.close (Recorded.inside.narrow site) fit
  tags kind name directory world fit := by
    have same := (channel.exportAsset_noted kind name directory world).2
    unfold Site.TagsFit
    rw [same]
    exact confined.tags kind name directory (unnoted world) fit
  current kind name directory world := by
    rw [(channel.exportAsset_noted kind name directory world).1]
    exact confined.current kind name directory (unnoted world)
  outside kind name directory world stands := by
    rw [(channel.exportAsset_noted kind name directory world).1]
    exact confined.outside kind name directory (unnoted world) stands
  entries kind name directory world stands := by
    rw [(channel.exportAsset_noted kind name directory world).1]
    exact confined.entries kind name directory (unnoted world) stands

end Channel

namespace Scripted.Answers

variable (answers : Answers) (log : ρ → List Delivery) {α : Type}

/-- What a script has on offer. -/
def offer : Offer where
  views := answers.views
  reports := answers.reports
  superMetrics := answers.superMetrics
  definitions := answers.definitions
  groups := answers.customGroups
  policies := answers.policies
  archive policy :=
    (answers.policyContent.find? policy.id).getD (Bytes.ofText ("policy " ++ policy.id))

theorem offering_reply (call : String) {value : α} {condition : α → Prop} (holds : condition value) :
    Offering log (answers.reply call value : QueryAction ρ α) condition := by
  refine ⟨answers.keeps_reply call value, fun _ => rfl, ?_⟩
  intro site found after ran
  unfold reply World.settle at ran
  split at ran
  · cases ran
  · cases ran
    exact holds

theorem offers : Offers (answers.query : Query ρ) log answers.offer where
  views := answers.offering_reply log _ (by simp [listing, offer, Function.comp_def])
  reports := answers.offering_reply log _ (by simp [listing, offer, Function.comp_def])
  superMetrics := answers.offering_reply log _ (by simp [listing, offer, Function.comp_def])
  definitions _ := answers.offering_reply log _ rfl
  groups := answers.offering_reply log _ rfl
  policies := answers.offering_reply log _ rfl
  archives _ _ := answers.offering_reply log _ rfl

theorem answered_reply (works : answers.failures = []) (call : String) (value : α) :
    Answered (answers.reply call value : QueryAction ρ α) value := by
  refine ⟨answers.keeps_reply call value, fun _ => ?_⟩
  rw [reply, works]
  rfl

theorem answers_offer (works : answers.failures = []) :
    (answers.query : Query ρ).Answers answers.offer where
  definitions _ := answers.answered_reply works _ _
  groups := answers.answered_reply works _ _
  policies := answers.answered_reply works _ _
  archives _ _ := answers.answered_reply works _ _

end Scripted.Answers

namespace Scripted

def noted (answers : Answers) (behaviour : Behaviour) : Synchronizer (Recorded Delivery Memory) where
  query := answers.query
  channel := behaviour.channel.noted
  scratch := ⟨true, ["tmp"]⟩

def start (nodes : List (Location × Node)) : World (Recorded Delivery Memory) where
  disk := { current := [], nodes }
  site := { tags := fun _ => "0", remote := { server := {} } }

theorem forall_logged {after : World (Recorded Delivery Memory)} {good : Delivery → Prop}
    (holds : ∀ delivery ∈ after.site.remote.record, good delivery) (added : List Delivery)
    (logged : after.site.remote.record = (start nodes).site.remote.record ++ added) :
    ∀ delivery ∈ added, good delivery := by
  rwa [logged] at holds

theorem isEmptyDirectory_start :
    (start [(["work"], .directory)]).disk.IsEmptyDirectory Synchronizer.bareProject.path := by
  refine ⟨by decide, fun rest notEmpty => ?_⟩
  have isPlace : (start [(["work"], .directory)]).disk.place Synchronizer.bareProject.path =
      ["work"] := by decide
  rw [isPlace]
  cases rest with
  | nil => exact absurd rfl notEmpty
  | cons first more => simp [Disk.get?, Disk.lookup, start]

theorem exportSetting {answers : Answers} {behaviour : Behaviour} {package : Package}
    {descriptor : Descriptor} (stays : ∀ key files, behaviour.exports.find? key = some files →
      ∀ file ∈ files, StaysWithin 0 file.1)
    (plain : ∀ kind patterns, descriptor.patterns kind = some patterns →
      ∀ name ∈ answers.offer.selected kind patterns, IsPlain name)
    (new : ∀ entry ∈ nodes, "vrsync-export-0" ∉ entry.1)
    (unmentioned : "vrsync-export-0" ∉ package.path.pieces) (notBlank : package.path.pieces ≠ [""])
    (aside : ∀ kind, Disk.isBelow ((start nodes).disk.place package.path ++
      [AssetKind.directory kind]) ["tmp"] = false) :
    (noted answers behaviour).ExportSetting package descriptor Recorded.record answers.offer
      (start nodes) where
  confined := (behaviour.confined stays).noted
  records := behaviour.channel.records_noted
  offers := answers.offers _
  plain := plain
  fresh := .of_nodes (fun _ => (by decide : '/' ∉ "0".toList)) new (by simp [start])
    (by decide : "vrsync-export-0" ∉ ["tmp"])
  unmentioned := unmentioned
  notBlank := notBlank
  aside kind _ := aside kind

end Scripted

end OpsContent
