import Mathlib.Data.List.Forall2
import OpsContent.Proofs.Steps
import OpsContent.Remote.Recorder
import OpsContent.Remote.Rest

/-!
# Requests of a push

Every request is kept with what came back.  While definitions are pushed, the listings of the target
are read first, then each definition is updated once, and created once if the target does not know
it, whatever becomes of the others.
-/

namespace OpsContent

namespace Rest

open Http

variable {ρ : Type}

/-- A request and what came back. -/
structure Exchange where
  request : Request
  answer : Option Response

namespace Exchange

/-- What a request comes to that has to be accepted. -/
def result (exchange : Exchange) : Except RemoteError Response :=
  match exchange.answer with
  | none => .error (.transport exchange.request.address
      ("error sending request for url (" ++ exchange.request.target ++ ")"))
  | some response => check exchange.request response

/-- Did the server take it? -/
def isAccepted (exchange : Exchange) : Bool :=
  exchange.answer.any Response.isSuccess

theorem isAccepted_iff (exchange : Exchange) :
    exchange.isAccepted ↔ ∃ response, exchange.result = .ok response := by
  obtain ⟨request, answer⟩ := exchange
  cases answer with
  | none => simp [isAccepted, result]
  | some response =>
    by_cases accepted : response.isSuccess <;> simp [isAccepted, result, check, accepted]

end Exchange

variable {γ : Type} (note : Exchange → List γ)

/-- A transport that keeps what is noted of its requests and their answers, oldest first. -/
def noting (transport : Transport ρ) : Transport (Recorded γ ρ) := fun request state =>
  let (answer, server) := transport request state.server
  (answer, { record := state.record ++ note ⟨request, answer⟩, server })

def notes (site : Site (Recorded γ ρ)) : List γ :=
  site.remote.record

variable (client : Client) (transport : Transport ρ)

/-! ## Listings -/

/-- The question for the definitions of a kind. -/
def listRequest (kind : DefinitionKind) : Request :=
  client.request .get (definitionPath kind).1 [pageSize] .empty

/-- The answer is a JSON value. -/
def IsRead (answer : Option Response) : Prop :=
  ∃ response, answer = some response ∧ response.isSuccess = true ∧ response.json?.isSome = true

/-- Listings are asked for one after another up to the first that fails. -/
inductive ListsKinds : List DefinitionKind → List Exchange → Bool → Prop where
  | done : ListsKinds [] [] true
  | failed {kind : DefinitionKind} {rest : List DefinitionKind} {answer : Option Response}
      (unread : ¬ IsRead answer) :
      ListsKinds (kind :: rest) [⟨listRequest client kind, answer⟩] false
  | answered {kind : DefinitionKind} {rest : List DefinitionKind} {answer : Option Response}
      {more : List Exchange} {complete : Bool} (read : IsRead answer)
      (later : ListsKinds rest more complete) :
      ListsKinds (kind :: rest) (⟨listRequest client kind, answer⟩ :: more) complete

theorem logs_send (request : Request) (site : Site (Recorded γ ρ)) :
    Logs notes note site (send (noting note transport) request) fun added outcome => ∃ answer,
      added = [⟨request, answer⟩] ∧
        outcome.bind (check request) = Exchange.result ⟨request, answer⟩ ∧
        outcome.toOption = answer := by
  refine ⟨[⟨request, (transport request site.remote.server).1⟩], ?_, _, rfl, ?_⟩
  · rw [List.flatMap_singleton]
    unfold send noting
    rcases transport request site.remote.server with ⟨answer, after⟩
    cases answer <;> rfl
  · unfold send noting
    rcases transport request site.remote.server with ⟨answer, after⟩
    cases answer <;> exact ⟨rfl, rfl⟩

theorem logs_sendChecked (request : Request) (site : Site (Recorded γ ρ)) :
    Logs notes note site (sendChecked (noting note transport) request) fun added outcome => ∃ answer,
      added = [⟨request, answer⟩] ∧ outcome = Exchange.result ⟨request, answer⟩ := by
  refine (logs_send note transport request site).andThen ?_ ?_
  · rintro added cause ⟨answer, rfl, result, -⟩
    exact ⟨answer, rfl, result⟩
  · rintro added response ⟨answer, rfl, result, -⟩
    exact .silent rfl ⟨answer, rfl, result⟩

/-- An answer that is a success with a readable body. -/
def Reads (answer : Option Response) (body : Json) : Prop :=
  ∃ response, answer = some response ∧ response.isSuccess = true ∧ response.json? = some body

theorem reads_iff (request : Request) (answer : Option Response) (body : Json) :
    Reads answer body ↔ ∃ response, Exchange.result ⟨request, answer⟩ = .ok response ∧
      response.json? = some body := by
  cases answer with
  | none => simp [Reads, Exchange.result]
  | some response =>
    by_cases accepted : response.isSuccess <;>
      simp [Reads, Exchange.result, check, accepted]

theorem logs_fetch (request : Request) (site : Site (Recorded γ ρ)) :
    Logs notes note site (fetch (noting note transport) request) fun added outcome =>
      ∃ answer, added = [⟨request, answer⟩] ∧ ∀ body, outcome = .ok body ↔ Reads answer body := by
  refine (logs_sendChecked note transport request site).andThen ?_ ?_
  · rintro added cause ⟨answer, rfl, result⟩
    refine ⟨answer, rfl, fun body => ?_⟩
    rw [reads_iff request, ← result]
    simp
  · rintro added response ⟨answer, rfl, result⟩
    have readable : ∀ body, Reads answer body ↔ response.json? = some body := by
      intro body
      rw [reads_iff request, ← result]
      simp
    cases read : response.json? with
    | none => exact .silent rfl ⟨answer, rfl, fun body => iff_of_false (by rintro ⟨⟩)
        (by simp [readable, read])⟩
    | some value =>
      refine .silent rfl ⟨answer, rfl, fun body => ?_⟩
      rw [readable, read, Option.some_inj]
      exact ⟨fun same => by cases same; rfl, fun same => by rw [same]; rfl⟩

theorem logs_listDefinitions (kind : DefinitionKind) (site : Site (Recorded γ ρ)) :
    Logs notes note site (listDefinitions client (noting note transport) kind) fun added outcome =>
      ∃ answer, added = [⟨listRequest client kind, answer⟩] ∧
        (outcome.isOk ↔ IsRead answer) := by
  have isRead : ∀ answer, IsRead answer ↔ ∃ body, Reads answer body := by
    simp only [IsRead, Reads, Option.isSome_iff_exists]
    grind
  refine (logs_fetch note transport (listRequest client kind) site).andThen ?_ ?_
  · rintro added cause ⟨answer, rfl, read⟩
    refine ⟨answer, rfl, iff_of_false (fun ok => by cases ok) ?_⟩
    simp [isRead, ← read]
  · rintro added body ⟨answer, rfl, read⟩
    exact .silent rfl ⟨answer, rfl, iff_of_true rfl ((isRead answer).2 ⟨body, (read body).1 rfl⟩)⟩

theorem logs_listKinds (kinds : List DefinitionKind) (site : Site (Recorded γ ρ)) :
    Logs notes note site (listKinds client (noting note transport) kinds) fun added outcome =>
      ListsKinds client kinds added outcome.isOk := by
  induction kinds generalizing site with
  | nil => exact .silent rfl .done
  | cons kind rest ih =>
    refine (logs_listDefinitions note client transport kind site).andThen ?_ ?_
    · rintro added cause ⟨answer, rfl, read⟩
      exact .failed fun isRead => by cases read.2 isRead
    · rintro added assets ⟨answer, rfl, read⟩
      refine (ih _).andThen ?_ ?_
      · exact fun more cause later => .answered (read.1 rfl) later
      · intro more listings later
        refine .silent rfl ?_
        rw [List.append_nil]
        exact .answered (read.1 rfl) later

/-! ## Pushes -/

/-- How a definition is pushed, with the last request: it is updated, and created if the target does
not know it. -/
inductive Attempts (path : String) (payload : Json) : List Exchange → Exchange → Prop where
  | updated (answer : Option Response) (known : ∀ response ∈ answer, response.status ≠ 404) :
      Attempts path payload [⟨client.request .put path [] (.json payload), answer⟩]
        ⟨client.request .put path [] (.json payload), answer⟩
  | created (response : Response) (unknown : response.status = 404) (answer : Option Response) :
      Attempts path payload [⟨client.request .put path [] (.json payload), some response⟩,
          ⟨client.request .post path [] (.json payload), answer⟩]
        ⟨client.request .post path [] (.json payload), answer⟩

theorem logs_upsert (path : String) (payload : Json) (site : Site (Recorded γ ρ)) :
    Logs notes note site (upsert client (noting note transport) path payload) fun added outcome =>
      ∃ last, Attempts client path payload added last ∧ outcome = last.result.map fun _ => () := by
  refine (logs_send note transport _ site).andThen ?_ ?_
  · rintro added cause ⟨answer, rfl, result, answered⟩
    refine ⟨_, .updated answer ?_, ?_⟩
    · rw [← answered]
      exact fun response member => by cases member
    · rw [← result]
      rfl
  · rintro added response ⟨answer, rfl, result, answered⟩
    obtain rfl : some response = answer := answered
    by_cases unknown : response.status = 404
    · rw [if_pos unknown]
      refine (logs_sendChecked note transport _ _).andThen ?_ ?_
      · rintro more cause ⟨next, rfl, created⟩
        exact ⟨_, .created response unknown next, by rw [← created]; rfl⟩
      · rintro more last ⟨next, rfl, created⟩
        exact .silent rfl ⟨_, .created response unknown next, by rw [← created]; rfl⟩
    · rw [if_neg unknown]
      refine .silent (by cases check _ response <;> rfl) ⟨_, .updated _ ?_, ?_⟩
      · rintro same ⟨⟩
        exact unknown
      · rw [← result]
        change _ = (check _ response).map _
        cases check (client.request .put path [] (.json payload)) response <;> rfl

def failureLine? (id : String) (last : Exchange) : Option String :=
  match last.result with
  | .ok _ => none
  | .error cause => some (id ++ ": " ++ cause.message)

/-- What is reported about the definitions that were refused. -/
def failureLines (definitions : List (String × Json)) (pushes : List (List Exchange × Exchange)) :
    List String :=
  (definitions.zip pushes).filterMap fun pair => failureLine? pair.1.1 pair.2.2

theorem failureLines_cons (entry : String × Json) (rest : List (String × Json))
    (push : List Exchange × Exchange) (pushes : List (List Exchange × Exchange)) :
    failureLines (entry :: rest) (push :: pushes) =
      (failureLine? entry.1 push.2).toList ++ failureLines rest pushes := by
  rw [failureLines, List.zip_cons_cons, List.filterMap_cons]
  cases failureLine? entry.1 push.2 <;> rfl

variable (kind : DefinitionKind) (remap : Remap)

/-- Each definition is attempted with its identifiers replaced. -/
abbrev AttemptsEach (definitions : List (String × Json))
    (pushes : List (List Exchange × Exchange)) : Prop :=
  List.Forall₂ (fun entry push => Attempts client (definitionPath kind).1 (remap.apply entry.2)
    push.1 push.2) definitions pushes

theorem failureLines_eq_nil_iff {definitions : List (String × Json)}
    {pushes : List (List Exchange × Exchange)}
    (each : AttemptsEach client kind remap definitions pushes) :
    failureLines definitions pushes = [] ↔ ∀ push ∈ pushes, push.2.isAccepted := by
  induction each with
  | nil => simp [failureLines]
  | @cons entry push rest pushes _ _ ih =>
    rw [failureLines_cons, List.append_eq_nil_iff, ih, List.forall_mem_cons,
      Exchange.isAccepted_iff, failureLine?]
    cases push.2.result <;> simp

/-- Each definition is attempted, whatever happens to others. -/
theorem logs_pushAll (definitions : List (String × Json)) (site : Site (Recorded γ ρ)) :
    Logs notes note site (pushAll client (noting note transport) kind remap definitions)
      fun added failures => ∃ pushes, added = (pushes.map Prod.fst).flatten ∧
        AttemptsEach client kind remap definitions pushes ∧
        failures = failureLines definitions pushes := by
  induction definitions generalizing site with
  | nil => exact .silent rfl ⟨[], rfl, .nil, rfl⟩
  | cons entry rest ih =>
    refine .bind (logs_upsert note client transport (definitionPath kind).1 (remap.apply entry.2)
      site) ?_
    rintro added outcome ⟨last, attempts, rfl⟩
    have later : ∀ (site : Site (Recorded γ ρ)) {lines : List String},
        lines = (failureLine? entry.1 last).toList →
        Logs notes note site (do
          let more ← pushAll client (noting note transport) kind remap rest
          pure (lines ++ more)) fun more failures => ∃ pushes,
            added ++ more = (pushes.map Prod.fst).flatten ∧
            AttemptsEach client kind remap (entry :: rest) pushes ∧
            failures = failureLines (entry :: rest) pushes := by
      rintro site _ rfl
      refine .bind (ih site) ?_
      rintro more failures ⟨pushes, rfl, each, rfl⟩
      refine .silent rfl ⟨(added, last) :: pushes, by simp, .cons attempts each, ?_⟩
      rw [failureLines_cons]
      rfl
    -- a failure is told, and the pushes behind it run as behind a success
    cases done : last.result with
    | ok response => exact .behind rfl (later _ (by rw [failureLine?, done]; rfl))
    | error cause => exact .behind rfl (later _ (by rw [failureLine?, done]; rfl))

variable (definitions : Table Json) (dependents : Dependents)

/-- A transport that keeps its requests with the answers, oldest first. -/
def recorded (transport : Transport ρ) : Transport (Recorded Exchange ρ) :=
  noting ([·]) transport

/-- Every definition is attempted once.  The listings of the kinds that occur among the dependents
are asked for first, in the order of pushes, and unless one of them fails each definition is updated
in the order of identifiers, and created with the same content if the target does not know it.  The
push succeeds if the last answer for each of them was a success, and tells of all others. -/
theorem importDefinitions_attempts_all (site : Site (Recorded Exchange ρ)) :
    ∃ added,
      (importDefinitions client (recorded transport) kind definitions dependents site).2.remote.record =
        site.remote.record ++ added ∧
      let outcome :=
        (importDefinitions client (recorded transport) kind definitions dependents site).1
      (ListsKinds client dependents.kinds added false ∧ outcome.isOk = false) ∨
        ∃ listed remap pushes, ListsKinds client dependents.kinds listed true ∧
          added = listed ++ (pushes.map Prod.fst).flatten ∧
          AttemptsEach client kind remap definitions pushes ∧
          (outcome = .ok () ↔ ∀ push ∈ pushes, push.2.isAccepted = true) ∧
          (outcome ≠ .ok () → outcome = .error (.invalidPayload
            ("; ".intercalate (failureLines definitions pushes)))) := by
  suffices logs : Logs notes ([·]) site
      (importDefinitions client (recorded transport) kind definitions dependents)
      fun added outcome =>
        (ListsKinds client dependents.kinds added false ∧ outcome.isOk = false) ∨
        ∃ listed remap pushes, ListsKinds client dependents.kinds listed true ∧
          added = listed ++ (pushes.map Prod.fst).flatten ∧
          AttemptsEach client kind remap definitions pushes ∧
          (outcome = .ok () ↔ ∀ push ∈ pushes, push.2.isAccepted = true) ∧
          (outcome ≠ .ok () → outcome = .error (.invalidPayload
            ("; ".intercalate (failureLines definitions pushes)))) by
    obtain ⟨added, logged, fits⟩ := logs
    rw [List.flatMap_singleton'] at logged
    exact ⟨added, logged, fits⟩
  refine (logs_listKinds ([·]) client transport dependents.kinds site).andThen ?_ ?_
  · exact fun added cause listed => .inl ⟨listed, rfl⟩
  · intro listed listings complete
    refine (logs_pushAll ([·]) client transport kind (Remap.ofListings dependents listings)
      definitions _).always.andThen ?_ ?_
    · rintro added cause ⟨failures, failed, -⟩
      cases failed
    · rintro _ _ ⟨_, ⟨⟩, pushes, rfl, each, rfl⟩
      have accepted := failureLines_eq_nil_iff client kind _ each
      by_cases none : failureLines definitions pushes = []
      · rw [none]
        refine .silent rfl (.inr ⟨listed, _, pushes, complete, by simp, each, ?_, ?_⟩)
        · exact iff_of_true rfl (accepted.1 none)
        · exact fun failed => absurd rfl failed
      · rw [if_pos (by simpa using none)]
        refine .silent rfl (.inr ⟨listed, _, pushes, complete, by simp, each, ?_, fun _ => rfl⟩)
        exact iff_of_false (fun ok => by cases ok) fun all => none (accepted.2 all)

end Rest

end OpsContent
