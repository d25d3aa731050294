import OpsContent.Cli.Run

/-!
# The program

Words and environment come from the system. The files that the program works on come from
standard input, as a JSON object of paths and texts in which a path that ends with a slash is a
directory; without it, the program works on an empty directory. No server is reached from here:
every connection fails and no program can be started.
-/

namespace OpsContent.Main

def workplace : Location := ["work"]

def filesOf (description : Json) : List (String × Option Bytes) :=
  match description with
  | .object fields => fields.map fun (name, content) =>
    (name, if Text.endsWith name "/" then none else content.text?.map Bytes.ofText)
  | _ => []

def diskOf (description : String) : Disk :=
  let empty : Disk := { current := workplace, nodes := [(workplace, .directory)] }
  match Json.parse description with
  | .ok description => (Disk.plant (Path.ofText ".") (filesOf description) empty).2
  | .error _ => empty

def access : Cli.Access Unit Ssh.Script where
  transport := Http.unreachable
  launcher := Ssh.Script.launch

/-- The world at the start. The seed tells the scratch names of runs apart. -/
def worldOf (description seed : String) : World (Cli.Link Unit Ssh.Script) where
  disk := diskOf description
  site :=
    { tags := fun number => seed ++ "-" ++ toString number
      remote := ((), { directory := "", server }) }
where
  /-- Programs are not found. -/
  server : Ssh.Script :=
    { outcomes := [], default := { ending := .cannotStart (.system .notFound) } }

/-- Environment that the program looks at. -/
def variableNames : List String :=
  ["HOME", "VRSYNC_CONFIG", "VRSYNC_HOST", "VRSYNC_PORT", "VRSYNC_TOKEN", "VRSYNC_SSH_USER",
    "VRSYNC_SSH_PORT", "VRSYNC_INSECURE", "VRSYNC_TIMEOUT", "VRSYNC_TEMP_DIR", "CLICOLOR",
    "CLICOLOR_FORCE", "NO_COLOR"]

def readEnvironment : IO (List (String × String)) :=
  variableNames.filterMapM fun name => do
    pure ((← IO.getEnv name).map fun value => (name, value))

partial def readAll (stream : IO.FS.Stream) (before : String) : IO String := do
  let line ← stream.getLine
  if line.isEmpty then pure before else readAll stream (before ++ line)

end OpsContent.Main

open OpsContent in
def main (words : List String) : IO UInt32 := do
  let environment ← Main.readEnvironment
  let input ← IO.getStdin
  let output ← IO.getStdout
  let description ← if ← input.isTty then pure "" else Main.readAll input ""
  let seed := toString (← IO.monoNanosNow)
  let surroundings : Cli.Surroundings :=
    { home := Path.ofText ((environment.lookup "HOME").getD "/")
      environment := fun name => environment.lookup name }
  let (ending, _) := Cli.program Main.access surroundings (← output.isTty) words
    (Main.worldOf description seed)
  IO.print ending.output
  IO.eprint ending.complaint
  pure (UInt32.ofNat ending.exit)
