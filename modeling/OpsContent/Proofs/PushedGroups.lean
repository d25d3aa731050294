import OpsContent.Proofs.PushedCalls
import OpsContent.Proofs.PushedRequests

/-!
# Requests for a custom group

A custom group is pushed with two fields changed: it goes by the identifier that the target has for
its name, and it refers to its policy by identifier.
-/

namespace OpsContent

open List

variable {ρ : Type} {policies : PolicyMetadata} {name : String}

/-! ## The policy of a group -/

namespace PolicyMetadata

/-- A name that is no identifier itself is replaced by the least identifier of that name.  Every
other reference stays. -/
inductive Resolves (policies : PolicyMetadata) : Option Json → Option Json → Prop
  | named {name id : String} (foreign : policies.holds name = false)
      (listed : (id, name) ∈ policies)
      (least : ∀ other, (other, name) ∈ policies → other = id ∨ id < other) :
      policies.Resolves (some (.string name)) (some (.string id))
  | kept {reference : Option Json} (settled : ∀ name, reference = some (.string name) →
      policies.holds name = true ∨ ∀ id, (id, name) ∉ policies) :
      policies.Resolves reference reference

theorem idOf_eq_some {id : String} (sorted : policies.Sorted)
    (found : policies.idOf name = some id) :
    (id, name) ∈ policies ∧ ∀ other, (other, name) ∈ policies → other = id ∨ id < other := by
  obtain ⟨entry, first, rfl⟩ := Option.map_eq_some_iff.1 found
  obtain ⟨isName, earlier, later, rfl, others⟩ := find?_eq_some_iff_append.1 first
  obtain rfl : entry.2 = name := by simpa using isName
  refine ⟨by simp, fun other member => ?_⟩
  -- The table is sorted, so what stands behind the first hit is greater.
  rcases mem_append.1 member with before | after
  · simpa using others _ before
  · rcases mem_cons.1 after with same | behind
    · exact .inl (congrArg Prod.fst same)
    · exact .inr ((pairwise_cons.1 (pairwise_append.1 sorted).2.1).1 _ behind)

theorem notMem_of_idOf (unnamed : policies.idOf name = none) (id : String) :
    (id, name) ∉ policies := by
  rw [idOf, Option.map_eq_none_iff, find?_eq_none] at unnamed
  exact fun member => unnamed _ member (by simp)

end PolicyMetadata

namespace Import

theorem resolvePolicy_settled {fields : Table Json}
    (settled : ∀ name, fields.find? "policy" = some (.string name) →
      policies.holds name ∨ policies.idOf name = none) (site : Site ρ) :
    (resolvePolicy policies (.object fields) site).1 = .object fields := by
  rcases @resolvePolicy_object ρ policies fields with
    ⟨name, id, found, foreign, named, -⟩ | ⟨-, same | ⟨_, same⟩⟩
  · rcases settled name found with known | unnamed
    · cases known.symm.trans foreign
    · cases unnamed.symm.trans named
  · rw [same]; rfl
  · rw [same]; rfl

theorem resolvePolicy_resolves (sorted : policies.Sorted) (fields : Table Json) (site : Site ρ) :
    ∃ resolved : Table Json, (resolvePolicy policies (.object fields) site).1 = .object resolved ∧
      policies.Resolves (fields.find? "policy") (resolved.find? "policy") ∧
      (∀ key, key ≠ "policy" → resolved.find? key = fields.find? key) ∧
      (fields.Sorted → resolved.Sorted) := by
  rcases @resolvePolicy_object ρ policies fields with
    ⟨name, id, found, foreign, named, changed⟩ | ⟨settled, -⟩
  · obtain ⟨listed, least⟩ := PolicyMetadata.idOf_eq_some sorted named
    rw [changed]
    refine ⟨_, rfl, ?_, fun key other => ?_, fun order => order.insert _ _⟩
    · rw [found, Table.find?_insert, if_pos rfl]
      exact .named foreign listed least
    · rw [Table.find?_insert, if_neg other]
  · refine ⟨fields, resolvePolicy_settled settled site, .kept fun name found => ?_,
      fun _ _ => rfl, id⟩
    exact (settled name found).imp_right PolicyMetadata.notMem_of_idOf

/-- The identifier that a name was replaced by is known, so it stays. -/
theorem resolvePolicy_resolved (sorted : policies.Sorted) (payload : Json) (site later : Site ρ) :
    (resolvePolicy policies (resolvePolicy policies payload site).1 later).1 =
      (resolvePolicy policies payload site).1 := by
  cases payload with
  | object fields =>
    rcases @resolvePolicy_object ρ policies fields with ⟨_, id, -, -, named, changed⟩ | ⟨settled, -⟩
    · have known := sorted.find?_of_mem (PolicyMetadata.idOf_eq_some sorted named).1
      rw [changed]
      refine resolvePolicy_settled (fun name found => .inl ?_) later
      rw [Table.find?_insert, if_pos rfl] at found
      cases found
      rw [Table.holds, known]
      rfl
    · rw [resolvePolicy_settled settled, resolvePolicy_settled settled]
  | _ => rfl

end Import

/-! ## The requests -/

namespace Rest

open Http

variable (client : Client) (transport : Transport ρ)

/-- The identifier of the first group of that name in a listing. -/
def identity? (body : Json) (name : String) : Option String :=
  (((entries body "groups").filterMap RemoteAsset.ofCustomGroup?).find? (·.name == name)).bind
    (·.id)

/-- The question for groups of a name. -/
def groupsRequest (name : String) : Request :=
  client.request .get groupPath [("name", name), pageSize] .empty

/-- The groups of that name are asked for.  If they are told, the group is sent once: it is updated
if the first of them has an identifier, and created otherwise. -/
inductive PushesGroup (name : String) (sent : Option String → Table Json → Prop) :
    List Exchange → Bool → Prop
  | unread {answer : Option Response} (unread : ∀ body, ¬ Reads answer body) :
      PushesGroup name sent [⟨groupsRequest client name, answer⟩] false
  | sent {answer last : Option Response} {body : Json} {fields : Table Json}
      (read : Reads answer body) (isSent : sent (identity? body name) fields) :
      PushesGroup name sent [⟨groupsRequest client name, answer⟩,
        ⟨client.request (if (identity? body name).isSome then .put else .post) groupPath []
          (.json (.object fields)), last⟩] (last.any Response.isSuccess)

/-- The fields of a group under an identifier of the target, or without any. -/
def under : Option String → Table Json → Table Json
  | some id, fields => fields.insert "id" (.string id)
  | none, fields => fields.erase "id"

theorem find?_under (id : Option String) (fields : Table Json) (key : String) :
    (under id fields).find? key = if key = "id" then id.map .string else fields.find? key := by
  cases id with
  | some id => exact Table.find?_insert ..
  | none => exact Table.find?_erase ..

theorem sorted_under (id : Option String) {fields : Table Json} (sorted : fields.Sorted) :
    (under id fields).Sorted := by
  cases id with
  | some id => exact sorted.insert _ _
  | none => exact sorted.filter _

variable {γ : Type} (note : Exchange → List γ)

theorem logs_push (method : Method) (path : String) (payload : Json) (site : Site (Recorded γ ρ)) :
    Logs notes note site (push client (noting note transport) method path payload)
      fun added outcome => ∃ answer,
        added = [⟨client.request method path [] (.json payload), answer⟩] ∧
        outcome.isOk = answer.any Response.isSuccess := by
  have accepted : ∀ exchange : Exchange, exchange.result.isOk = exchange.isAccepted := by
    intro exchange
    rw [Bool.eq_iff_iff, exchange.isAccepted_iff]
    cases exchange.result <;> simp [Except.isOk, Except.toBool]
  refine (logs_sendChecked note transport _ site).andThen ?_ ?_
  · rintro added cause ⟨answer, rfl, result⟩
    exact ⟨answer, rfl, (congrArg Except.isOk result).trans (accepted _)⟩
  · rintro added response ⟨answer, rfl, result⟩
    exact .silent rfl ⟨answer, rfl, (congrArg Except.isOk result).trans (accepted _)⟩

theorem logs_groupId? (name : String) (site : Site (Recorded γ ρ)) :
    Logs notes note site (groupId? client (noting note transport) name) fun added outcome =>
      ∃ answer, added = [⟨groupsRequest client name, answer⟩] ∧
        ((∃ body, Reads answer body ∧ outcome = .ok (identity? body name)) ∨
          (∀ body, ¬ Reads answer body) ∧ outcome.isOk = false) := by
  refine (logs_fetch note transport _ site).andThen ?_ ?_
  · rintro added cause ⟨answer, rfl, read⟩
    exact ⟨answer, rfl, .inr ⟨fun body => by simp [← read], rfl⟩⟩
  · rintro added body ⟨answer, rfl, read⟩
    exact .silent rfl ⟨answer, rfl, .inl ⟨body, (read body).1 rfl, rfl⟩⟩

theorem logs_importCustomGroup {sent : Option String → Table Json → Prop} {fields : Table Json}
    (sends : ∀ id, sent id (under id fields)) (name : String) (policies : PolicyMetadata)
    (site : Site (Recorded γ ρ)) :
    Logs notes note site
      (importCustomGroup client (noting note transport) name (.object fields) policies)
      fun added outcome => PushesGroup client name sent added outcome.isOk := by
  have warned : notes (warnOfPolicy name fields policies site).2 = notes site := by
    unfold warnOfPolicy
    rcases (fields.find? "policy").bind Json.text? with _ | policy
    · rfl
    · dsimp only
      cases !policies.isEmpty && !policies.holds policy <;> rfl
  refine .afterOk rfl warned ((logs_groupId? client transport note name _).andThen ?_ ?_)
  · rintro added cause ⟨answer, rfl, ⟨body, -, done⟩ | ⟨unread, -⟩⟩
    · cases done
    · exact .unread unread
  · rintro added id ⟨answer, rfl, ⟨body, read, done⟩ | ⟨-, failed⟩⟩
    · cases done
      -- The method of the request depends on the identifier.
      cases isId : identity? body name <;>
      · refine (logs_push client transport note _ _ _ _).mono ?_
        rintro more outcome ⟨last, rfl, accepted⟩
        rw [accepted]
        have pushed := @PushesGroup.sent client name sent answer last body _ read (sends _)
        rwa [isId] at pushed
    · cases failed

end Rest

/-! ## From the file to the target -/

namespace Import

open Rest

/-- The fields of a group as they are sent: under the identifier of the target or without any, with
the policy resolved, and otherwise as they were. -/
structure SentAs (policies : PolicyMetadata) (fields : Table Json) (id : Option String)
    (sent : Table Json) : Prop where
  id : sent.find? "id" = id.map .string
  policy : policies.Resolves (fields.find? "policy") (sent.find? "policy")
  others : ∀ key, key ≠ "id" → key ≠ "policy" → sent.find? key = fields.find? key
  sorted : fields.Sorted → sent.Sorted

/-- An import over a client whose requests are kept with the answers. -/
def Context.over (context : Context (Recorded Rest.Exchange ρ)) (client : Client)
    (transport : Http.Transport ρ) : Context (Recorded Rest.Exchange ρ) :=
  { context with query := Rest.query client (recorded transport) }

/-- The name that a group goes by: that in its content, or that of its file. -/
def groupName (file : Path) (payload : Json) : String :=
  ((RemoteAsset.ofCustomGroup? payload).map (·.name)).getD file.baseName

theorem logs_ask {α γ : Type} {note : Rest.Exchange → List γ} {world : World (Recorded γ ρ)}
    {step : QueryAction (Recorded γ ρ) α} {fits : List Rest.Exchange → Bool → Prop}
    (logs : Logs notes note world.site step fun added outcome => fits added outcome.isOk) :
    Logs (notes ·.site) note world (Query.ask step) fun added outcome =>
      fits added outcome.isOk := by
  obtain ⟨added, logged, holds⟩ := logs
  unfold Logs Query.ask World.onSite
  cases ran : step world.site with
  | mk outcome site =>
    rw [ran] at logged holds
    cases outcome <;> exact ⟨added, logged, holds⟩

theorem logs_item {γ δ : Type} {view : World ρ → List δ} {note : γ → List δ}
    {work : Sync ρ Unit} {fits : List γ → Except SyncError Unit → Prop} {world : World ρ}
    (quiet : ∀ message (world : World ρ),
      view (World.onSite (Site.report message) world).2 = view world)
    (logs : Logs view note world work fits) (kind : AssetKind) (item : String) :
    Logs view note world (Batch.item kind item work) fun added fate => ∃ outcome,
      fits added outcome ∧
        fate = Batch.failure? kind item (outcome.mapError SyncError.message) := by
  obtain ⟨added, logged, holds⟩ := logs
  unfold Logs Batch.item
  cases ran : work world with
  | mk outcome after =>
    rw [ran] at logged holds
    cases outcome with
    | ok _ => exact ⟨added, logged, _, holds, rfl⟩
    | error cause => exact ⟨added, (quiet _ after).trans logged, _, holds, rfl⟩

theorem logs_pushGroup (client : Client) (transport : Http.Transport ρ)
    (context : Context (Recorded Rest.Exchange ρ)) (sorted : policies.Sorted) (file : Path)
    (world : World (Recorded Rest.Exchange ρ)) :
    Logs (notes ·.site) ([·]) world
      (pushGroup (context.over client transport) policies file)
      fun added outcome =>
        (∀ fields, readJson world.disk file = .ok (.object fields) →
          PushesGroup client (groupName file (.object fields)) (SentAs policies fields) added
            outcome.isOk) ∧
        ((∀ fields, readJson world.disk file ≠ .ok (.object fields)) →
          added = [] ∧ outcome.isOk = false) := by
  have quiet : ∀ payload, notes (resolvePolicy policies payload world.site).2 = notes world.site :=
    fun payload => @keeps_resolvePolicy _ (notes ·.site = notes world.site)
      (fun _ _ _ same => same) policies payload world rfl
  refine .afterOk rfl rfl ?_
  cases read : readJson world.disk file with
  | error cause => exact .silent rfl ⟨fun _ other => (by cases other), fun _ => ⟨rfl, rfl⟩⟩
  | ok payload =>
    refine .afterOk rfl rfl (.afterOk rfl (quiet payload) ?_)
    cases payload with
    | object fields =>
      obtain ⟨resolved, isResolved, policy, others, order⟩ :=
        resolvePolicy_resolves sorted fields world.site
      have sends : ∀ id, SentAs policies fields id (under id resolved) := by
        intro id
        refine ⟨?_, ?_, fun key notId notPolicy => ?_, fun sorted => sorted_under id (order sorted)⟩
        · rw [find?_under, if_pos rfl]
        · rwa [find?_under, if_neg (by decide)]
        · rw [find?_under, if_neg notId, others key notPolicy]
      change Logs _ _ _ (Query.ask (importCustomGroup client (recorded transport)
        (groupName file (.object fields)) (resolvePolicy policies (.object fields) world.site).1
        policies)) _
      rw [isResolved]
      refine (logs_ask (logs_importCustomGroup client transport ([·]) sends _ _ _)).mono ?_
      intro added outcome pushes
      refine ⟨fun fields same => ?_, fun none => absurd rfl (none fields)⟩
      cases same
      exact pushes
    | _ => exact .silent rfl ⟨fun _ other => (by cases other), fun _ => ⟨rfl, rfl⟩⟩

/-- A custom group is pushed with one listing of the groups of its name and, if that is read, with
one request that holds the content of the file under the identity of the target and with its policy
resolved.  What is no object is reported as failed without a request, and resolving the policy a
second time changes nothing. -/
theorem pushGroup_under_identity (client : Client) (transport : Http.Transport ρ)
    (context : Context (Recorded Rest.Exchange ρ)) (sorted : policies.Sorted) (file : Path)
    (world : World (Recorded Rest.Exchange ρ)) :
    let push := Batch.item .customGroup file.baseName
      (pushGroup (context.over client transport) policies file)
    (∃ added, (push world).2.site.remote.record = world.site.remote.record ++ added ∧
      (∀ fields, readJson world.disk file = .ok (.object fields) →
        PushesGroup client (groupName file (.object fields)) (SentAs policies fields) added
          (push world).1.isNone) ∧
      ((∀ fields, readJson world.disk file ≠ .ok (.object fields)) →
        added = [] ∧ ∃ message, (push world).1 = some ⟨.customGroup, file.baseName, message⟩)) ∧
    ∀ payload (site later : Site ρ),
      (resolvePolicy policies (resolvePolicy policies payload site).1 later).1 =
        (resolvePolicy policies payload site).1 := by
  intro push
  obtain ⟨added, logged, outcome, ⟨object, noObject⟩, told⟩ := logs_item (fun _ _ => rfl)
    (logs_pushGroup client transport context sorted file world) .customGroup file.baseName
  rw [flatMap_singleton'] at logged
  refine ⟨⟨added, logged, fun fields read => ?_, fun none => ?_⟩, resolvePolicy_resolved sorted⟩
  · have fate : (push world).1.isNone = outcome.isOk := by
      rw [told]
      cases outcome <;> rfl
    rw [fate]
    exact object fields read
  · obtain ⟨nothing, failed⟩ := noObject none
    refine ⟨nothing, ?_⟩
    cases outcome with
    | ok _ => cases failed
    | error cause => exact ⟨cause.message, told⟩

def ambiguousPolicies : PolicyMetadata :=
  [("p1", "Base"), ("p2", "Base")]

/-- A group that refers to one of two policies by their name. -/
def ambiguousGroup : World (Recorded Rest.Exchange Unit) where
  disk := { current := [], nodes := [(["g.json"],
    .file (Bytes.ofText (Json.object [("policy", .string "Base")]).pretty))] }
  site := { tags := fun _ => "0", remote := { server := () } }

theorem pushGroup_under_identity_ambiguousGroup :
    ambiguousPolicies.Sorted ∧
      ∀ client transport (context : Context (Recorded Rest.Exchange Unit)), ∃ added fate,
        (Batch.item .customGroup "g" (pushGroup (context.over client transport)
          ambiguousPolicies ⟨true, ["g.json"]⟩) ambiguousGroup).2.site.remote.record = [] ++ added ∧
        PushesGroup client "g" (SentAs ambiguousPolicies [("policy", .string "Base")]) added
          fate := by
  have sorted : ambiguousPolicies.Sorted := by decide
  refine ⟨sorted, fun client transport context => ?_⟩
  have read : readJson ambiguousGroup.disk ⟨true, ["g.json"]⟩ =
      .ok (.object [("policy", .string "Base")]) := readJson_pretty (by decide) rfl
  obtain ⟨⟨added, logged, object, -⟩, -⟩ :=
    pushGroup_under_identity client transport context sorted ⟨true, ["g.json"]⟩ ambiguousGroup
  exact ⟨added, _, logged, object _ read⟩

end Import

end OpsContent
