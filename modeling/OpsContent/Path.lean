import OpsContent.Text.Blank

/-!
# Paths

A path is the text of it split at the slashes, so that joining a plain name to a path is
appending one piece. Empty pieces stand for repeated or trailing slashes and `.` for the
directory itself; both are kept for display and passed over where components count.
-/

namespace OpsContent

/-- A path as it was written, cut at its slashes. -/
structure Path where
  absolute : Bool
  pieces : List String
  deriving DecidableEq

namespace Path

/-- Cut at every slash. -/
def split (chars : List Char) : List String :=
  (chars.splitOn '/').map String.ofList

/-- Read a path. -/
def ofText (text : String) : Path :=
  match text.toList with
  | '/' :: rest => ⟨true, split rest⟩
  | chars => ⟨false, split chars⟩

/-- Write a path as it was read. -/
def text (path : Path) : String :=
  (if path.absolute then "/" else "") ++ "/".intercalate path.pieces

/-- The path that follows a text from another path on. An absolute text replaces the path, and
one slash stands between the two otherwise. -/
def join (path : Path) (name : String) : Path :=
  let next := ofText name
  if next.absolute then next
  else if path.pieces.getLast? = some "" then
    { path with pieces := path.pieces.dropLast ++ next.pieces }
  else { path with pieces := path.pieces ++ next.pieces }

/-- Does the piece lead nowhere? -/
def isIdle (piece : String) : Bool :=
  piece == "" || piece == "."

/-- Pieces without idle ones at the end. A leading `.` of a relative path is kept. -/
def trimIdle (path : Path) : List String :=
  let kept := (path.pieces.reverse.dropWhile isIdle).reverse
  match kept, path.absolute, path.pieces with
  | [], false, "." :: _ => ["."]
  | kept, _, _ => kept

/-- The last name, if it is one. -/
def fileName? (path : Path) : Option String :=
  match path.trimIdle.getLast? with
  | none => none
  | some name => if name == ".." || name == "." then none else some name

/-- The path without its last component. The root and the empty path have none. -/
def parent? (path : Path) : Option Path :=
  match path.trimIdle with
  | [] => none
  | pieces =>
    let shorter := trimIdle { path with pieces := pieces.dropLast }
    some { path with pieces := if shorter.isEmpty then [""] else shorter }

/-- Split a file name at its last dot. A dot at the start does not count. -/
def splitName (name : String) : String × Option String :=
  let reversed := name.toList.reverse
  let ending := reversed.takeWhile (· != '.')
  match reversed.dropWhile (· != '.') with
  | [] => (name, none)
  | _ :: [] => (name, none)
  | _ :: start => (String.ofList start.reverse, some (String.ofList ending.reverse))

/-- The last name without its extension. -/
def fileStem? (path : Path) : Option String :=
  path.fileName?.map fun name => (splitName name).1

/-- The extension of the last name. -/
def extension? (path : Path) : Option String :=
  path.fileName?.bind fun name => (splitName name).2

/-- The last name without its extension, or nothing. -/
def baseName (path : Path) : String :=
  path.fileStem?.getD ""

/-- The path with another last name. -/
def withFileName (path : Path) (name : String) : Path :=
  match path.fileName? with
  | some _ => (path.parent?.getD ⟨false, [""]⟩).join name
  | none => path.join name

/-- Has the path this extension, in any case? -/
def hasExtension (path : Path) (extension : String) : Bool :=
  match path.extension? with
  | some found => Text.equalIgnoringCase found extension
  | none => false

/-- A name that can be an entry of a directory. -/
def IsPlain (name : String) : Prop :=
  name ≠ "" ∧ name ≠ "." ∧ name ≠ ".." ∧ '/' ∉ name.toList ∧ Char.ofNat 0 ∉ name.toList

instance (name : String) : Decidable (IsPlain name) :=
  inferInstanceAs (Decidable (_ ∧ _ ∧ _ ∧ _ ∧ _))

end Path

end OpsContent
