import OpsContent.Remote.Http
import OpsContent.Remote.Query
import OpsContent.Remote.Remap

/-!
# The query interface over HTTP

Listings are read with one request each. A definition is updated, and created if the server does
not know it. A custom group is pushed under the identifier that the server has for its name.
-/

namespace OpsContent.Rest

open Http

variable {ρ : Type} {α : Type}

/-- The address of the query interface, and what requests are authorized by. -/
structure Client where
  base : String
  authorization : String

/-- May the byte stand in a header? -/
def isHeaderByte (byte : UInt8) : Bool :=
  (32 ≤ byte && byte != 127) || byte == 9

/-- A client for an address, unless the token cannot be sent. -/
def Client.make (base token : String) : Except RemoteError Client :=
  let authorization := "vRealizeOpsToken " ++ token
  if (Bytes.ofText authorization).all isHeaderByte then
    .ok { base := String.ofList (base.toList.reverse.dropWhile (· == '/')).reverse, authorization }
  else .error (.invalidPayload "invalid token: failed to parse header value")

/-- Listings are asked for in one page. -/
def pageSize : String × String := ("pageSize", "10000")

/-- A request with the headers that every request has. -/
def Client.request (client : Client) (method : Method) (path : String)
    (query : List (String × String)) (body : Body) (accept : String := "application/json") :
    Request where
  method
  address := client.base ++ path
  query
  headers := [("authorization", client.authorization), ("accept", accept)]
  body

/-- Send a request; a connection that breaks is an error. -/
def send (transport : Transport ρ) (request : Request) : QueryAction ρ Response := fun site =>
  let (answer, remote) := transport request site.remote
  let site := { site with remote }
  match answer with
  | some response => (.ok response, site)
  | none =>
    (.error (.transport request.address
      ("error sending request for url (" ++ request.target ++ ")")), site)

/-- Refuse an answer that is no success. -/
def check (request : Request) (response : Response) : Except RemoteError Response :=
  if response.isSuccess then .ok response
  else .error (.status request.method.name request.address response.status response.text)

/-- Send a request, and take only an answer of success. -/
def sendChecked (transport : Transport ρ) (request : Request) : QueryAction ρ Response := do
  let response ← send transport request
  World.settle (check request response)

/-- The error for a body that is not what was asked for. -/
def undecodable (request : Request) : RemoteError :=
  .decode request.address "error decoding response body"

/-- Send a request for a JSON value. -/
def fetch (transport : Transport ρ) (request : Request) : QueryAction ρ Json := do
  let response ← sendChecked transport request
  match response.json? with
  | some value => pure value
  | none => throw (undecodable request)

/-- Get the JSON value under a path of the interface. -/
def getJson (client : Client) (transport : Transport ρ) (path : String)
    (query : List (String × String)) : QueryAction ρ Json :=
  fetch transport (client.request .get path query .empty)

/-- The list under a key of a listing, if it has one. -/
def entries (body : Json) (key : String) : List Json :=
  ((body.field? key).bind Json.items?).getD []

/-- The entries that have names. -/
def listings (body : Json) (key : String) : List Listing :=
  (entries body key).filterMap fun entry => do
    let name ← entry.textField? "name"
    some { id := entry.textField? "id", name }

/-- Listed policies; entries without identifier or name are dropped. -/
def policies (body : Json) : List PolicySummary :=
  (entries body "policySummaries").filterMap fun entry => do
    let id ← entry.textField? "id"
    let name ← entry.textField? "name"
    some { id, name }

/-- Where the definitions of a kind are, and the key of their listing. -/
def definitionPath : DefinitionKind → String × String
  | .symptom => ("/api/symptomdefinitions", "symptomDefinitions")
  | .recommendation => ("/api/recommendations", "recommendations")
  | .alert => ("/api/alertdefinitions", "alertDefinitions")

/-- Where custom groups are. -/
def groupPath : String := "/api/resources/groups"

/-- List the names under a path. -/
def listNames (client : Client) (transport : Transport ρ) (path key : String) :
    QueryAction ρ (List Listing) := do
  pure (listings (← getJson client transport path [pageSize]) key)

/-- List views, at an address that is not public. -/
def listViews (client : Client) (transport : Transport ρ) : QueryAction ρ (List Listing) := do
  let request := client.request .get "/internal/views" [] .empty
  let internal := ("x-vrealizeops-api-use-unsupported", "true")
  let body ← fetch transport { request with headers := request.headers ++ [internal] }
  pure (listings body "views")

/-- List the definitions of a kind. -/
def listDefinitions (client : Client) (transport : Transport ρ) (kind : DefinitionKind) :
    QueryAction ρ (List RemoteAsset) := do
  let (path, key) := definitionPath kind
  let body ← getJson client transport path [pageSize]
  pure ((entries body key).filterMap (RemoteAsset.ofDefinition? kind))

/-- Get the archive of a policy. -/
def policyContent (client : Client) (transport : Transport ρ) (policy : PolicySummary) :
    QueryAction ρ Bytes := do
  let request :=
    client.request .get "/api/policies/export" [("id", policy.id)] .empty "application/zip"
  let response ← sendChecked transport request
  if response.complete then pure response.body else throw (undecodable request)

/-- Send data that has to be accepted. -/
def push (client : Client) (transport : Transport ρ) (method : Method) (path : String)
    (payload : Json) : QueryAction ρ Unit := do
  let _ ← sendChecked transport (client.request method path [] (.json payload))

/-- Update a definition, or create it if the server does not know it. -/
def upsert (client : Client) (transport : Transport ρ) (path : String) (payload : Json) :
    QueryAction ρ Unit := do
  let request := client.request .put path [] (.json payload)
  let response ← send transport request
  if response.status = 404 then push client transport .post path payload
  else
    let _ ← World.settle (check request response)

/-- List the definitions of some kinds, up to the first failure. -/
def listKinds (client : Client) (transport : Transport ρ) :
    List DefinitionKind → QueryAction ρ Remap.Listings
  | [] => pure []
  | kind :: rest => do
      let assets ← listDefinitions client transport kind
      let more ← listKinds client transport rest
      pure ((kind, assets) :: more)

/-- Push definitions one after another, and collect what failed. -/
def pushAll (client : Client) (transport : Transport ρ) (kind : DefinitionKind) (remap : Remap) :
    List (String × Json) → StateM (Site ρ) (List String)
  | [] => pure []
  | (id, definition) :: rest => do
      let path := (definitionPath kind).1
      let outcome ← (upsert client transport path (remap.apply definition) : StateM _ _)
      let failures ← match outcome with
        | .ok () => pure []
        | .error cause => do
            Site.warn ("Unable to import " ++ kind.key ++ " '" ++ id ++ "': " ++ cause.message)
            pure [id ++ ": " ++ cause.message]
      let more ← pushAll client transport kind remap rest
      pure (failures ++ more)

/-- Push definitions of a kind with references to the definitions of the target. -/
def importDefinitions (client : Client) (transport : Transport ρ) (kind : DefinitionKind)
    (definitions : Table Json) (dependents : Dependents) : QueryAction ρ Unit := do
  let listings ← listKinds client transport dependents.kinds
  let remap := Remap.ofListings dependents listings
  let failures ← World.always (pushAll client transport kind remap definitions)
  if !failures.isEmpty then throw (.invalidPayload ("; ".intercalate failures))

/-- The identifier of the first group of exactly this name. -/
def groupId? (client : Client) (transport : Transport ρ) (name : String) :
    QueryAction ρ (Option String) := do
  let body ← getJson client transport groupPath [("name", name), pageSize]
  let groups := (entries body "groups").filterMap RemoteAsset.ofCustomGroup?
  pure ((groups.find? (·.name == name)).bind (·.id))

/-- Warn of a group whose policy is not among the policies of the package. -/
def warnOfPolicy (name : String) (fields : Table Json) (policies : PolicyMetadata) :
    StateM (Site ρ) Unit :=
  match (fields.find? "policy").bind Json.text? with
  | some policy =>
    if !policies.isEmpty && !policies.holds policy then
      Site.warn ("Custom group '" ++ name ++ "' references policy '" ++ policy ++
        "' missing from policy metadata")
    else pure ()
  | none => pure ()

/-- Push a custom group under the identifier that it has on the target. -/
def importCustomGroup (client : Client) (transport : Transport ρ) (name : String)
    (payload : Json) (policies : PolicyMetadata) : QueryAction ρ Unit := do
  match payload with
  | .object fields =>
    let fields : Table Json := fields
    World.always (warnOfPolicy name fields policies)
    match ← groupId? client transport name with
    | some id =>
      push client transport .put groupPath (.object (fields.insert "id" (.string id)))
    | none => push client transport .post groupPath (.object (fields.erase "id"))
  | _ => throw (.invalidPayload ("custom group '" ++ name ++ "' is not a JSON object"))

/-- Send the archive of a policy. -/
def importPolicy (client : Client) (transport : Transport ρ) (name : String) (content : Bytes)
    (overwrite : Bool) : QueryAction ρ Unit := do
  let body := Body.form "policy" (name ++ ".zip") "application/zip" content
  let query := [("forceImport", if overwrite then "true" else "false")]
  let _ ← sendChecked transport (client.request .post "/api/policies/import" query body)

/-- Those user groups of the server that are asked for, in the order of the server. -/
def findGroups (client : Client) (transport : Transport ρ) (names : List String) :
    QueryAction ρ (List String) := do
  let body ← getJson client transport "/api/auth/usergroups" []
  let listed := (entries body "userGroups").filterMap (·.textField? "name")
  pure (listed.filter names.contains)

/-- The query interface of the server behind a transport. -/
def query (client : Client) (transport : Transport ρ) : Query ρ where
  listViews := listViews client transport
  listReports := listNames client transport "/api/reportdefinitions" "reportDefinitions"
  listSuperMetrics := listNames client transport "/api/supermetrics" "superMetrics"
  listPolicies := policies <$> getJson client transport "/api/policies" []
  policyContent := policyContent client transport
  listCustomGroups := do
    let body ← getJson client transport groupPath [pageSize]
    pure ((entries body "groups").filterMap RemoteAsset.ofCustomGroup?)
  listDefinitions := listDefinitions client transport
  importDefinitions := importDefinitions client transport
  importCustomGroup := importCustomGroup client transport
  importPolicy := importPolicy client transport
  findGroups := findGroups client transport

end OpsContent.Rest
