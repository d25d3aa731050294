import OpsContent.Proofs.Identifiers
import OpsContent.Proofs.PushedRequests

/-!
# The names that are pushed

A definition is pushed with every text and key replaced that is an identifier, its name not
excepted.  The name stays exactly if it is no identifier that is replaced.
-/

namespace OpsContent

def Json.fields : Json → Table Json
  | .object fields => fields
  | _ => []

theorem Json.field?_eq_find? (value : Json) (key : String) :
    value.field? key = value.fields.find? key := by
  cases value <;> rfl

namespace Remap

variable {key : String} {dependents : Dependents}

/-! ## Fields after a replacement -/

/-- What comes to stand under a key: the value of the last field whose key is replaced by it, or
is it and stays. -/
def heir? (remap : Remap) (key : String) (fields : List (String × Json)) : Option Json :=
  (fields.filter fun field => remap.rename field.1 = key).getLast?.map Prod.snd

theorem heir?_cons (remap : Remap) (key : String) (field : String × Json)
    (rest : List (String × Json)) :
    heir? remap key (field :: rest) =
      (heir? remap key rest).or (if remap.rename field.1 = key then some field.2 else none) := by
  unfold heir?
  by_cases becomes : remap.rename field.1 = key
  · rw [List.filter_cons_of_pos (by simpa using becomes), if_pos becomes, List.getLast?_cons]
    cases (rest.filter fun field => remap.rename field.1 = key).getLast? <;> rfl
  · rw [List.filter_cons_of_neg (by simpa using becomes), if_neg becomes, Option.or_none]

theorem find?_applyFields (remap : Remap) (key : String) (done : Table Json)
    (fields : List (String × Json)) :
    (applyFields remap done fields).find? key =
      ((heir? remap key fields).map remap.apply).or (done.find? key) := by
  induction fields generalizing done with
  | nil => rw [applyFields]; rfl
  | cons field rest ih =>
    obtain ⟨name, value⟩ := field
    rw [applyFields, ih, Table.find?_insert, heir?_cons]
    cases heir? remap key rest with
    | some found => rfl
    | none =>
      by_cases becomes : remap.rename name = key
      · simp [becomes]
      · simp [becomes, Ne.symm becomes]

theorem field?_apply (remap : Remap) (key : String) (value : Json) :
    (remap.apply value).field? key = (heir? remap key value.fields).map remap.apply := by
  cases value with
  | object fields =>
    rw [apply, Json.field?, find?_applyFields, Table.find?_nil, Option.or_none]
    rfl
  | null | bool | number | string | array => simp [apply, Json.field?, Json.fields, heir?]

theorem apply_string_eq_iff (remap : Remap) (text : String) :
    remap.apply (.string text) = .string text ↔ remap.rename text = text := by
  rw [apply, Json.string.injEq]

/-- The key is neither renamed nor a new name. -/
def Settles (remap : Remap) (key : String) : Prop :=
  remap.find? key = none ∧ ∀ id, remap.find? id ≠ some key

theorem Settles.rename_eq_iff {remap : Remap} (settles : remap.Settles key) (other : String) :
    remap.rename other = key ↔ other = key := by
  unfold rename
  cases found : remap.find? other with
  | none => rfl
  | some target =>
    constructor
    · rintro rfl
      exact absurd found (settles.2 other)
    · rintro rfl
      rw [settles.1] at found
      cases found

theorem heir?_of_settles {remap : Remap} (settles : remap.Settles key) {fields : Table Json}
    (sorted : fields.Sorted) : heir? remap key fields = fields.find? key := by
  induction fields with
  | nil => rfl
  | cons field rest ih =>
    obtain ⟨below, tailSorted⟩ := List.pairwise_cons.1 sorted
    rw [heir?_cons, ih tailSorted, Table.find?]
    by_cases same : field.1 = key
    · rw [if_pos ((settles.rename_eq_iff field.1).2 same), if_pos same,
        Table.find?_eq_none_of_lt (same ▸ below), Option.none_or]
    · rw [if_neg (fun becomes => same ((settles.rename_eq_iff field.1).1 becomes)),
        if_neg same, Option.or_none]

/-- The server knows the definition under another identifier. -/
def Moves (dependents : Dependents) (listings : Listings) (id target : String) : Prop :=
  ∃ entry, dependents.find? id = some entry ∧ known? listings entry.1 entry.2 = some target ∧
    target ≠ id

theorem find?_eq_some_iff_moves (sorted : dependents.Sorted) (listings : Listings)
    (id target : String) :
    (ofListings dependents listings).find? id = some target ↔
      Moves dependents listings id target := by
  rw [find?_ofListings sorted, Option.bind_eq_some_iff]
  simp [Moves, Option.filter_eq_some_iff]

theorem rename_eq_self_iff (sorted : dependents.Sorted) (listings : Listings) (id : String) :
    (ofListings dependents listings).rename id = id ↔
      ∀ target, ¬ Moves dependents listings id target := by
  rw [rename]
  constructor
  · intro same target moves
    have found := (find?_eq_some_iff_moves sorted listings id target).2 moves
    rw [found, Option.getD_some] at same
    obtain ⟨-, -, -, different⟩ := moves
    exact different same
  · intro stays
    cases found : (ofListings dependents listings).find? id with
    | none => rfl
    | some target =>
      exact absurd ((find?_eq_some_iff_moves sorted listings id target).1 found) (stays target)

/-- No identifier moves from the key or to it. -/
def TakesNoPart (dependents : Dependents) (listings : Listings) (key : String) : Prop :=
  (∀ target, ¬ Moves dependents listings key target) ∧
    ∀ id, ¬ Moves dependents listings id key

theorem settles_of_takesNoPart (sorted : dependents.Sorted) {listings : Listings}
    (noPart : TakesNoPart dependents listings key) :
    (ofListings dependents listings).Settles key := by
  constructor
  · cases found : (ofListings dependents listings).find? key with
    | none => rfl
    | some target =>
      exact absurd ((find?_eq_some_iff_moves sorted listings key target).1 found)
        (noPart.1 target)
  · intro id found
    exact noPart.2 id ((find?_eq_some_iff_moves sorted listings id key).1 found)

end Remap

/-! ## What is sent -/

namespace Rest

open Http

variable {ρ : Type} {request : Request} {listings : Remap.Listings}

/-- The JSON value that a request carries. -/
def carried? (request : Request) : Option Json :=
  match request.body with
  | .json payload => some payload
  | _ => none

/-- A transport that keeps the payloads it carries. -/
def watched (transport : Transport ρ) : Transport (Recorded Json ρ) :=
  noting (fun exchange => (carried? exchange.request).toList) transport

def unwatched (site : Site ρ) : Site (Recorded Json ρ) :=
  { site with remote := { server := site.remote } }

variable (client : Client) (transport : Transport ρ) (kind : DefinitionKind)

/-- Listings are asked for without a payload. -/
theorem flatMap_listsKinds {kinds : List DefinitionKind} {listed : List Exchange} {complete : Bool}
    (lists : ListsKinds client kinds listed complete) :
    (listed.flatMap fun exchange => (carried? exchange.request).toList) = [] := by
  induction lists with
  | done => rfl
  | failed => rfl
  | answered _ _ ih => exact ih

/-- Whatever is attempted carries the definition with its identifiers replaced, and nothing else. -/
theorem mem_flatMap_attemptsEach {remap : Remap} {definitions : List (String × Json)}
    {pushes : List (List Exchange × Exchange)} {sent : Json}
    (each : AttemptsEach client kind remap definitions pushes) :
    (sent ∈ (pushes.map Prod.fst).flatten.flatMap
        fun exchange => (carried? exchange.request).toList) ↔
      ∃ entry ∈ definitions, sent = remap.apply entry.2 := by
  induction each with
  | nil => simp
  | @cons _ push _ _ attempts _ ih =>
    obtain ⟨made, last⟩ := push
    rw [List.map_cons, List.flatten_cons, List.flatMap_append, List.mem_append, ih]
    simp only [List.mem_cons, exists_eq_or_imp]
    refine or_congr ?_ Iff.rfl
    cases attempts <;> simp [carried?, Client.request]

variable (definitions : Table Json) (dependents : Dependents)

/-- What an import sends. -/
def payloads (site : Site ρ) : List Json :=
  (importDefinitions client (watched transport) kind definitions dependents
    (unwatched site)).2.remote.record

/-- What the server lists at first. -/
def targetListings (site : Site ρ) : Except RemoteError Remap.Listings :=
  (listKinds client (watched transport) dependents.kinds (unwatched site)).1

/-- What is sent are the definitions with their identifiers replaced, unless the definitions of
the target cannot be listed. -/
theorem mem_payloads_iff (site : Site ρ) (payload : Json) :
    payload ∈ payloads client transport kind definitions dependents site ↔
      ∃ listings, targetListings client transport dependents site = .ok listings ∧
        ∃ entry ∈ definitions, payload = (Remap.ofListings dependents listings).apply entry.2 := by
  let carried : Exchange → List Json := fun exchange => (carried? exchange.request).toList
  suffices logs : Logs notes carried (unwatched site)
      (importDefinitions client (watched transport) kind definitions dependents) fun added _ =>
        payload ∈ added.flatMap carried ↔
          ∃ listings, targetListings client transport dependents site = .ok listings ∧
            ∃ entry ∈ definitions, payload = (Remap.ofListings dependents listings).apply entry.2 by
    obtain ⟨added, logged, sends⟩ := logs
    rw [← sends, show payloads client transport kind definitions dependents site = _ from logged]
    rfl
  obtain ⟨listed, logged, lists⟩ :=
    logs_listKinds carried client transport dependents.kinds (unwatched site)
  have listing : Logs notes carried (unwatched site)
      (listKinds client (watched transport) dependents.kinds) fun added outcome =>
        added.flatMap carried = [] ∧ targetListings client transport dependents site = outcome :=
    ⟨listed, logged, flatMap_listsKinds client lists, rfl⟩
  refine listing.andThen ?_ ?_
  · rintro added cause ⟨nothing, failed⟩
    simp [nothing, failed]
  · rintro added listings ⟨nothing, told⟩
    refine (logs_pushAll carried client transport kind (Remap.ofListings dependents listings)
      definitions _).always.andThen ?_ ?_
    · rintro _ cause ⟨_, failed, -⟩
      cases failed
    · rintro _ _ ⟨_, ⟨⟩, pushes, rfl, each, -⟩
      refine .silent (by split <;> rfl) ?_
      rw [List.append_nil, List.flatMap_append, nothing, List.nil_append,
        mem_flatMap_attemptsEach client kind each]
      simp [told]

/-- A payload holds under the name of its kind what the definition holds there exactly if the
field that comes to stand there has that value after the replacement.  Where the key of the name
takes no part, this is so exactly if the name is no accumulated identifier that moves. -/
theorem importDefinitions_keeps_name_iff {ρ : Type} (client : Client) (transport : Transport ρ)
    (kind : DefinitionKind) (definitions : Table Json)
    (batches : List (DefinitionKind × Table Json)) (site : Site ρ) (payload : Json)
    (sent : payload ∈ payloads client transport kind definitions
      (Dependents.accumulated batches) site) :
    ∃ listings, targetListings client transport (Dependents.accumulated batches) site =
        .ok listings ∧
      ∃ entry ∈ definitions,
        payload = (Remap.ofListings (Dependents.accumulated batches) listings).apply entry.2 ∧
        (payload.field? kind.nameKey = entry.2.field? kind.nameKey ↔
          (Remap.heir? (Remap.ofListings (Dependents.accumulated batches) listings) kind.nameKey
            entry.2.fields).map
              (Remap.ofListings (Dependents.accumulated batches) listings).apply =
            entry.2.field? kind.nameKey) ∧
        (entry.2.fields.Sorted →
          Remap.TakesNoPart (Dependents.accumulated batches) listings kind.nameKey →
          ∀ name, entry.2.field? kind.nameKey = some (.string name) →
            (payload.field? kind.nameKey = entry.2.field? kind.nameKey ↔
              ∀ target, ¬ Remap.Moves (Dependents.accumulated batches) listings name target)) := by
  obtain ⟨listings, listed, entry, inDefinitions, rfl⟩ :=
    (mem_payloads_iff client transport kind definitions _ site payload).1 sent
  have sorted := Dependents.sorted_accumulated batches
  refine ⟨listings, listed, entry, inDefinitions, rfl, ?_, ?_⟩
  · rw [Remap.field?_apply]
  · intro fieldsSorted noPart name named
    rw [Remap.field?_apply, Remap.heir?_of_settles (Remap.settles_of_takesNoPart sorted noPart)
      fieldsSorted, ← Json.field?_eq_find?, named, Option.map_some, Option.some.injEq,
      Remap.apply_string_eq_iff, Remap.rename_eq_self_iff sorted]

/-- A server that knows a symptom of the given name, and accepts one push. -/
def knowingServer (name : String) : Site Script :=
  let answer (text : String) : Option Response :=
    some { status := 200, body := Bytes.ofText text }
  let asset := "\x7b\"id\": \"S-9\", \"name\": \"" ++ name ++ "\"\x7d"
  let listing := "\x7b\"symptomDefinitions\": [" ++ asset ++ "]\x7d"
  { tags := fun _ => "", remote := { answers := [answer listing, answer ""] } }

def oneSymptom (id name : String) : Table Json :=
  [(id, Json.ofFields [("name", .string name)])]

def oneDependent (id name : String) : Dependents :=
  Dependents.accumulated [(.symptom, oneSymptom id name)]

def symptomPayloads (id name : String) : List Json :=
  payloads ⟨"http://ops", "token"⟩ Script.transport .symptom (oneSymptom id name)
    (oneDependent id name) (knowingServer name)

theorem known?_knowingServer
    (listed : targetListings ⟨"http://ops", "token"⟩ Script.transport (oneDependent "d1" "cpu")
      (knowingServer "cpu") = .ok listings) :
    Remap.known? listings .symptom (Json.ofFields [("name", .string "cpu")]) = some "S-9" := by
  have known : (targetListings ⟨"http://ops", "token"⟩ Script.transport (oneDependent "d1" "cpu")
      (knowingServer "cpu")).toOption.bind (fun listings =>
        Remap.known? listings .symptom (Json.ofFields [("name", .string "cpu")])) =
      some "S-9" := by
    decide +kernel
  rw [listed] at known
  exact known

theorem moves_oneDependent
    (listed : targetListings ⟨"http://ops", "token"⟩ Script.transport (oneDependent "d1" "cpu")
      (knowingServer "cpu") = .ok listings) {id target : String}
    (moves : Remap.Moves (oneDependent "d1" "cpu") listings id target) :
    id = "d1" ∧ target = "S-9" := by
  obtain ⟨entry, found, known, -⟩ := moves
  have accumulated : oneDependent "d1" "cpu" =
      [("d1", .symptom, Json.ofFields [("name", .string "cpu")])] := rfl
  rw [accumulated, Table.find?, Table.find?_nil] at found
  split at found
  next same =>
    cases found
    rw [known?_knowingServer listed, Option.some.injEq] at known
    exact ⟨same.symm, known.symm⟩
  · cases found

/-- Under an identifier that is not its name, a definition keeps its name. -/
theorem importDefinitions_keeps_name_iff_identified :
    ∃ payload ∈ symptomPayloads "d1" "cpu", ∃ entry ∈ oneSymptom "d1" "cpu",
      payload.field? "name" = entry.2.field? "name" ∧
        entry.2.field? "name" = some (.string "cpu") := by
  obtain ⟨payload, sent⟩ : ∃ payload, payload ∈ symptomPayloads "d1" "cpu" := by
    apply List.exists_mem_of_length_pos
    decide +kernel
  obtain ⟨listings, listed, entry, member, -, -, kept⟩ :=
    importDefinitions_keeps_name_iff ⟨"http://ops", "token"⟩ Script.transport .symptom
      (oneSymptom "d1" "cpu") [(.symptom, oneSymptom "d1" "cpu")] (knowingServer "cpu") payload sent
  have isOnly := List.mem_singleton.1 member
  have named : entry.2.field? "name" = some (.string "cpu") := by rw [isOnly]; rfl
  refine ⟨payload, sent, entry, member, ?_, named⟩
  have sorted : entry.2.fields.Sorted := by
    rw [isOnly]
    exact List.pairwise_singleton _ _
  have noPart : Remap.TakesNoPart (oneDependent "d1" "cpu") listings "name" := by
    constructor
    · intro target moves
      exact absurd (moves_oneDependent listed moves).1 (by decide)
    · intro id moves
      exact absurd (moves_oneDependent listed moves).2 (by decide)
  apply (kept sorted noPart "cpu" named).2
  intro target moves
  exact absurd (moves_oneDependent listed moves).1 (by decide)

/-- A definition under its own name is pushed under the identifier that the target has for it, and
loses its name. -/
theorem importDefinitions_renames_definition :
    (oneSymptom "cpu" "cpu").map (fun entry => entry.2.textField? "name") = [some "cpu"] ∧
      (symptomPayloads "cpu" "cpu").map (Json.textField? "name") = [some "S-9"] := by
  decide +kernel

end Rest

end OpsContent
