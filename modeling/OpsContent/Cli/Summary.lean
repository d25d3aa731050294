import OpsContent.Cli.Ink
import OpsContent.Cli.Invocation
import OpsContent.Remote.Ssh
import OpsContent.Stats
import OpsContent.Status

/-!
# What commands print

Every command that succeeds prints one text: a line of data for programs, or a summary for
people.
-/

namespace OpsContent.Cli

def ofLines (lines : List String) : String :=
  String.join (lines.map (· ++ "\n"))

def ofData (data : Json) : String :=
  ofLines [data.compact]

def countLine (label : String) (count : Nat) : String :=
  "  " ++ Text.padRight 20 label ++ " " ++ toString count

def programName : String := "vrsync"

def programVersion : String := "0.1.0"

def programBuild : String := "dev"

/-- The program as data, its fields in the order in which they are shown. -/
def versionJson : Json :=
  .object [("name", .string "vrops-sync"), ("version", .string programVersion),
    ("build", .string programBuild), ("package_type", .string Package.defaultType),
    ("ops_cli", .string Ssh.tool)]

def versionText : String :=
  ofLines [programName ++ " " ++ programVersion ++ " (" ++ programBuild ++ ")",
    "  package type: " ++ Package.defaultType,
    "  server tool:  " ++ Ssh.tool]

/-- What a descriptor asks for, of one kind. -/
def requestText (colors : Bool) : Option (List String) → String
  | none => Ink.dimmed.paint colors "not requested"
  | some [] => Ink.yellow.paint colors "requested, no patterns"
  | some patterns => Ink.cyan.paint colors (", ".intercalate patterns)

def presenceText (colors : Bool) (present : Bool) : String :=
  if present then Ink.green.paint colors "present" else Ink.dimmed.paint colors "missing"

def kindLine (colors : Bool) (status : KindStatus) : String :=
  "  " ++ Text.padRight 20 status.kind.label ++ " " ++
    Text.padLeft 4 (toString status.held) ++ "  " ++ requestText colors status.patterns

/-- The status as text. -/
def statusText (colors : Bool) (status : ProjectStatus) : String :=
  let descriptor := match status.descriptor with
    | some path => path.text
    | none => Ink.yellow.paint colors ("no " ++ Descriptor.fileName)
  ofLines ([Ink.bold.paint colors (programName ++ " Status"), "=============", "",
    "Project:    " ++ status.project.text, "Descriptor: " ++ descriptor, ""] ++
    status.kinds.map (kindLine colors) ++
    ["", "  " ++ PolicyMetadata.fileName ++ ": " ++ presenceText colors status.hasPolicyMetadata,
      "  " ++ Sharing.fileName ++ ": " ++ presenceText colors status.hasSharingMetadata])

def exportJson (package : Package) (stats : ExportStats) (dryRun : Bool) : Json :=
  Json.ofFields [("success", .bool true), ("package", .string package.fullName),
    ("project", .string package.path.text), ("dry_run", .bool dryRun), ("stats", stats.toJson)]

/-- What an export has done, as text. -/
def exportText (package : Package) (stats : ExportStats) (dryRun : Bool) : String :=
  if stats.isEmpty then ofLines ["Nothing exported for " ++ package.fullName ++ "."]
  else
    let title :=
      if dryRun then "Dry run for " ++ package.fullName ++ " (project not updated)"
      else "Export complete for " ++ package.fullName
    let counts := (AssetKind.all.filter fun kind => 0 < stats.assets.count kind).map fun kind =>
      countLine kind.label (stats.assets.count kind)
    ofLines ([title, ""] ++ counts ++
      ["", "  Total: " ++ toString stats.total ++ " assets",
        "  Location: " ++ package.path.text])

def importJson (packages : List Package) (stats : ImportStats) (dryRun : Bool) : Json :=
  Json.ofFields [("success", .bool true), ("packages", .ofTexts (packages.map Package.fullName)),
    ("dry_run", .bool dryRun), ("stats", stats.toJson)]

/-- How many assets of a kind went to the server. -/
def handled (stats : ImportStats) (kind : AssetKind) : Nat :=
  stats.queued.count kind + stats.pushed.count kind

/-- What an import has done, as text. -/
def importText (packages : List Package) (stats : ImportStats) (dryRun : Bool) : String :=
  let title := (if dryRun then "Dry run of " else "Imported ") ++ toString packages.length ++
    " package(s)"
  let counts := (AssetKind.all.filter fun kind => 0 < handled stats kind).map fun kind =>
    countLine kind.label (handled stats kind)
  let shared := if 0 < stats.shared then [countLine "dashboards shared" stats.shared] else []
  let unshared :=
    if 0 < stats.unshared then [countLine "dashboards unshared" stats.unshared] else []
  let prepared :=
    if dryRun && 0 < stats.queued.total then
      ["", "  " ++ toString stats.queued.total ++ " file(s) prepared, nothing submitted"]
    else []
  ofLines ([title, ""] ++ counts ++ shared ++ unshared ++ prepared)

/-- The words that a shell offers behind the name of the program. -/
def completionText : Shell → String
  | .bash => ofLines ["complete -W \"" ++ words ++ "\" " ++ programName]
  | .zsh => ofLines ["#compdef " ++ programName, "_arguments '1: :(" ++ words ++ ")'"]
  | .fish => ofLines ["complete -c " ++ programName ++ " -f -a \"" ++ words ++ "\""]
  | .powerShell =>
    ofLines ["Register-ArgumentCompleter -Native -CommandName " ++ programName ++
      " -ScriptBlock \x7b '" ++ words ++ "'.Split(' ') \x7d"]
  | .elvish =>
    ofLines ["set edit:completion:arg-completer[" ++ programName ++ "] = \x7b|@rest| put " ++
      words ++ " \x7d"]
where
  /-- The names of commands with a blank between them. -/
  words : String := " ".intercalate commandNames

end OpsContent.Cli
