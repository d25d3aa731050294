import OpsContent.Json.Draft
import OpsContent.Json.Writer
import OpsContent.Text.Blank
import OpsContent.Text.Bytes

/-!
# Requests and answers

What is sent to the server and what comes back. How a request travels is left open: a transport
is an action on the state of the server, which answers or fails to.
-/

namespace OpsContent.Http

/-- What a request carries. -/
inductive Body where
  | empty
  | json (value : Json)
  | form (field fileName mediaType : String) (content : Bytes)

/-- The methods of requests. -/
inductive Method where
  | get
  | put
  | post
  deriving DecidableEq

def Method.name : Method → String
  | .get => "GET"
  | .put => "PUT"
  | .post => "POST"

/-- A request to the server. -/
structure Request where
  method : Method
  /-- The address without the query. -/
  address : String
  query : List (String × String) := []
  headers : List (String × String) := []
  body : Body := .empty

/-- What the server answers; the body may break off. -/
structure Response where
  status : Nat
  body : Bytes
  complete : Bool := true

namespace Response

/-- Is this a status of success? -/
def isSuccess (response : Response) : Bool :=
  200 ≤ response.status && response.status < 300

/-- The body as a text, unless it broke off. -/
def text (response : Response) : String :=
  if response.complete then response.body.toTextLossy else ""

/-- The body as JSON, unless it broke off. -/
def json? (response : Response) : Option Json :=
  if response.complete then
    response.body.toText?.bind fun text => (Json.parse text).toOption
  else none

end Response

/-- How requests are sent; without an answer the connection failed. -/
abbrev Transport (ρ : Type) := Request → StateM ρ (Option Response)

/-- No server answers. -/
def unreachable {ρ : Type} : Transport ρ := fun _ => pure none

/-- A server that answers in a fixed order and keeps what it is asked. -/
structure Script where
  /-- What is still to be answered; a missing answer drops the connection. -/
  answers : List (Option Response)
  requests : List Request := []

/-- Answer the next request of a script. Behind its end the server fails. -/
def Script.transport : Transport Script := fun request script =>
  let requests := script.requests ++ [request]
  match script.answers with
  | [] => (some { status := 500, body := Bytes.ofText "no response scripted" },
      { script with requests })
  | answer :: answers => (answer, { answers, requests })

/-- Two upper-case digits of a byte. -/
def percent (byte : UInt8) : List Char :=
  let digit (value : Nat) : Char :=
    Char.ofNat (if value < 10 then '0'.toNat + value else 'A'.toNat + value - 10)
  ['%', digit (byte.toNat / 16), digit (byte.toNat % 16)]

/-- A text with all but plain characters as bytes in hexadecimal. -/
def encodeText (plain : Char → Bool) (text : String) : List Char :=
  text.toList.flatMap fun char =>
    if plain char then [char] else (Bytes.ofText char.toString).flatMap percent

/-- A text as it stands in a query. -/
def encodeQuery (text : String) : List Char :=
  text.toList.flatMap fun char =>
    if char == ' ' then ['+']
    else if char.isAlphanum || ['*', '-', '.', '_'].contains char then [char]
    else (Bytes.ofText char.toString).flatMap percent

/-- The query behind the question mark. -/
def queryText (query : List (String × String)) : String :=
  "&".intercalate (query.map fun (name, value) =>
    String.ofList (encodeQuery name ++ '=' :: encodeQuery value))

/-- May the character stand in a path as it is? -/
def isPathChar (char : Char) : Bool :=
  '!' ≤ char && char ≤ '~' &&
    !(['"', '<', '>', '\x60', '\x7b', '\x7d'].contains char)

/-- An address in the form in which it is shown: host in small letters, no port where it is the
usual one, and unusual characters of the path encoded. -/
def showAddress (address : String) : String :=
  let shown (scheme port : String) (rest : List Char) : String :=
    let authority := String.ofList (rest.takeWhile (· != '/'))
    let path := rest.dropWhile (· != '/')
    let host := Text.lowerAscii
      (if Text.endsWith authority port then
        String.ofList (authority.toList.take (authority.length - port.length))
      else authority)
    scheme ++ host ++ (if path.isEmpty then "/" else String.ofList (encodeText isPathChar
      (String.ofList path)))
  if Text.startsWith address "https://" then
    shown "https://" ":443" (address.toList.drop 8)
  else if Text.startsWith address "http://" then
    shown "http://" ":80" (address.toList.drop 7)
  else address

/-- The address with the query. -/
def Request.target (request : Request) : String :=
  showAddress request.address ++
    (if request.query.isEmpty then "" else "?" ++ queryText request.query)

end OpsContent.Http
