import OpsContent.Decimal.Unsigned
import OpsContent.Disk.Operation
import OpsContent.Failure
import OpsContent.Text.LowerCase

/-!
# Connection settings

A setting comes from the first layer that provides it: flags, environment, config file and, for
most, a built-in value. A layer leaves open what it does not say, and `Layer.or` puts one layer
over another.
-/

namespace OpsContent

/-- Settings of one source, each given or left open. -/
structure Layer where
  host : Option String := none
  port : Option Nat := none
  token : Option String := none
  sshUser : Option String := none
  sshPort : Option Nat := none
  insecure : Option Bool := none
  timeout : Option Nat := none
  scratch : Option Path := none
  deriving DecidableEq

namespace Layer

/-- What a layer leaves open is taken from the one below it. -/
def or (upper lower : Layer) : Layer where
  host := upper.host.or lower.host
  port := upper.port.or lower.port
  token := upper.token.or lower.token
  sshUser := upper.sshUser.or lower.sshUser
  sshPort := upper.sshPort.or lower.sshPort
  insecure := upper.insecure.or lower.insecure
  timeout := upper.timeout.or lower.timeout
  scratch := upper.scratch.or lower.scratch

open JsonDraft in
/-- The fields of a settings file. -/
def record : Record Layer where
  name := "SettingsLayer"
  default := {}
  strict := true
  fields :=
    [("host", fun draft layer => do
        pure { layer with host := ← readOption (readString "a string") draft }),
      ("port", fun draft layer => do
        pure { layer with port := ← readOption (readNat Unsigned.largest16 "u16") draft }),
      ("token", fun draft layer => do
        pure { layer with token := ← readOption (readString "a string") draft }),
      ("ssh_user", fun draft layer => do
        pure { layer with sshUser := ← readOption (readString "a string") draft }),
      ("ssh_port", fun draft layer => do
        pure { layer with sshPort := ← readOption (readNat Unsigned.largest16 "u16") draft }),
      ("insecure", fun draft layer => do
        pure { layer with insecure := ← readOption readBool draft }),
      ("timeout_secs", fun draft layer => do
        pure { layer with timeout := ← readOption (readNat Unsigned.largest64 "u64") draft }),
      ("temp_dir", fun draft layer => do
        let text ← readOption (readString "path string") draft
        pure { layer with scratch := text.map Path.ofText })]

def read : JsonDraft → Except JsonError Layer :=
  record.read

/-- Read a settings file. -/
def ofFile (disk : Disk) (path : Path) : Except Failure Layer :=
  match disk.readText path with
  | .error cause => .error (.config ("Cannot read " ++ path.text ++ ": " ++ cause.message))
  | .ok text =>
    match JsonDraft.readText read text with
    | .error cause =>
      .error (.config ("Invalid config file " ++ path.text ++ ": " ++ cause.message))
    | .ok layer => .ok layer

/-- The variables of the environment. -/
abbrev Environment := String → Option String

/-- A variable that is set to more than blanks. -/
def nonBlank (environment : Environment) (name : String) : Option String :=
  (environment name).filter fun value => !Text.isAbsent value

/-- The error for a value that is not accepted. -/
def refuse (name value reason : String) : Failure :=
  .config ("Invalid value for " ++ name ++ ": '" ++ value ++ "' (" ++ reason ++ ")")

/-- Read a variable as a number, if it is set. -/
def readNumber (environment : Environment) (largest : Nat) (name : String) :
    Except Failure (Option Nat) :=
  match nonBlank environment name with
  | none => .ok none
  | some value =>
    match Unsigned.read largest (Text.trim value) with
    | .ok number => .ok (some number)
    | .error cause => .error (refuse name value cause.message)

/-- A variable that holds a truth value. -/
def readSwitch (environment : Environment) (name : String) : Except Failure (Option Bool) :=
  match nonBlank environment name with
  | none => .ok none
  | some value =>
    let word := Text.lower (Text.trim value)
    if ["1", "true", "yes", "on"].contains word then .ok (some true)
    else if ["0", "false", "no", "off"].contains word then .ok (some false)
    else .error (refuse name word "expected true or false")

/-- The settings that variables give. -/
def ofEnvironment (environment : Environment) : Except Failure Layer := do
  let port ← readNumber environment Unsigned.largest16 "VRSYNC_PORT"
  let sshPort ← readNumber environment Unsigned.largest16 "VRSYNC_SSH_PORT"
  let insecure ← readSwitch environment "VRSYNC_INSECURE"
  let timeout ← readNumber environment Unsigned.largest64 "VRSYNC_TIMEOUT"
  pure {
    host := nonBlank environment "VRSYNC_HOST"
    port
    token := nonBlank environment "VRSYNC_TOKEN"
    sshUser := nonBlank environment "VRSYNC_SSH_USER"
    sshPort
    insecure
    timeout
    scratch := (nonBlank environment "VRSYNC_TEMP_DIR").map Path.ofText }

def toJson (layer : Layer) : Json :=
  let number (value : Option Nat) : Json := (value.map Json.ofNat).getD .null
  Json.ofFields [("host", .ofText? layer.host), ("port", number layer.port),
    ("token", .ofText? layer.token), ("ssh_user", .ofText? layer.sshUser),
    ("ssh_port", number layer.sshPort),
    ("insecure", (layer.insecure.map Json.bool).getD .null),
    ("timeout_secs", number layer.timeout), ("temp_dir", .ofText? (layer.scratch.map Path.text))]

end Layer

/-- Settings with every layer resolved. -/
structure Settings where
  host : Option String
  port : Nat
  token : Option String
  sshUser : String
  sshPort : Nat
  insecure : Bool
  timeout : Nat
  scratch : Option Path
  deriving DecidableEq

namespace Settings

/-- Built-in values stand in for what a layer leaves open. -/
def ofLayer (layer : Layer) : Settings where
  host := layer.host
  port := layer.port.getD 443
  token := layer.token
  sshUser := layer.sshUser.getD "root"
  sshPort := layer.sshPort.getD 22
  insecure := layer.insecure.getD false
  timeout := layer.timeout.getD 360
  scratch := layer.scratch

/-- Where settings are looked for without being told. -/
def defaultFile (home : Path) : Path :=
  (home.join ".vrsync").join "config.json"

/-- The layer of the config file. A file that is named has to exist. -/
def fileLayer (disk : Disk) (home : Path) : Option Path → Except Failure Layer
  | some path =>
    if disk.isFile path then Layer.ofFile disk path
    else .error (.config ("Config file not found: " ++ path.text))
  | none =>
    if disk.isFile (defaultFile home) then Layer.ofFile disk (defaultFile home) else .ok {}

/-- Settings from flags, environment and config file. -/
def resolve (disk : Disk) (home : Path) (flags : Layer) (config : Option Path)
    (environment : Layer.Environment) : Except Failure Settings := do
  let named ← Layer.ofEnvironment environment
  let file ← fileLayer disk home config
  pure (ofLayer ((flags.or named).or file))

/-- The address of the query interface. -/
def url (settings : Settings) : String :=
  "https://" ++ settings.host.getD "" ++ ":" ++ toString settings.port ++ "/suite-api"

/-- Names of the settings without which no connection can be made. -/
def missing (settings : Settings) : List String :=
  (if settings.host.all Text.isAbsent then ["host"] else []) ++
  (if settings.token.all Text.isAbsent then ["token"] else []) ++
  (if Text.isAbsent settings.sshUser then ["ssh_user"] else []) ++
  (if settings.port = 0 then ["port"] else [])

/-- Refuse settings with which no connection can be made. -/
def validate (settings : Settings) : Except Failure Unit :=
  if settings.missing.isEmpty then .ok ()
  else .error (.config
    ("Configuration validation failed: Empty " ++ " ".intercalate settings.missing))

def systemScratch : Path :=
  Path.ofText "/tmp"

/-- Where workspaces are made. -/
def workspace (settings : Settings) : Path :=
  settings.scratch.getD systemScratch

/-- Settings as data. The token is a secret and left out. -/
def fields (settings : Settings) : List (String × Json) :=
  [("host", .ofText? settings.host), ("port", .ofNat settings.port),
    ("ssh_user", .string settings.sshUser), ("ssh_port", .ofNat settings.sshPort),
    ("insecure", .bool settings.insecure), ("timeout_secs", .ofNat settings.timeout),
    ("temp_dir", .ofText? (settings.scratch.map Path.text))]

end Settings

end OpsContent
