import OpsContent.Text.Blank
import OpsContent.Xml.Attribute

/-!
# View documents

A view document holds `Content`, in it `Views`, and in that a `ViewDef` whose attribute `id`
names the view. Element names compare without regard to case; text and comments between
elements do not count. The document has to be well formed up to its end.
-/

namespace OpsContent.ViewDocument

open Xml

/-- What comes first in an element, blanks and comments apart. -/
inductive Child where
  | element (name : String) (empty : Bool) (id : Option (List Char))
  | other (label : String)
  | none
  deriving DecidableEq

/-- Why a document does not name its view. -/
inductive Error where
  | noRoot
  | wrongRoot (name : String)
  | emptyRoot
  | wrongChild (found : Child)
  | emptyViews
  | wrongView (found : Child)
  | noId
  | truncated
  | surplusElement (name : String)
  | malformed (cause : Malformed)
  deriving DecidableEq

def Child.describe (missing : String) : Child → String
  | .element name _ _ => "\"" ++ name ++ "\""
  | .other label => "\"" ++ label ++ "\""
  | .none => missing

/-- What is expected instead, for a document that can be read. -/
def Error.detail : Error → String
  | .noRoot => "The document has no root element."
  | .wrongRoot name =>
    "The root element is \"" ++ name ++ "\" while the expected one is \"Content\"."
  | .emptyRoot =>
    "The \"Content\" element does not have any children. " ++
      "Exactly one with name \"Views\" is expected."
  | .wrongChild found =>
    "First child element under \"Content\" is " ++ found.describe "UNKNOWN" ++
      ", expected: \"Views\"."
  | .emptyViews =>
    "Child node under \"Content\" -> \"Views\" is NOT PRESENT, expected \"ViewDef\"."
  | .wrongView found =>
    "Child node under \"Content\" -> \"Views\" is " ++ found.describe "NOT PRESENT" ++
      ", expected \"ViewDef\"."
  | .noId => "No id attribute available for \"Content\" -> \"Views\" -> \"ViewDef\"."
  | _ => ""

/-- The wording of each cause, for a document of the given name. -/
def Error.message (source : String) : Error → String
  | .truncated => broken ++ ": unexpected end of document."
  | .surplusElement name => broken ++ ": element \"" ++ name ++ "\" after the root element."
  | .malformed cause => broken ++ ". " ++ cause.message
  | error =>
    "The view file \"" ++ source ++ "\" is not in the expected format. " ++ error.detail
where
  /-- The beginning of the wording for a document that is not XML. -/
  broken : String :=
    "The view file \"" ++ source ++ "\" has invalid format. It is not a correct XML file"

/-- Skip to the root element: its name, whether it is empty, and the events behind it. -/
def root : List Event → Except Error (String × Bool × List Event)
  | [] => .error .noRoot
  | .start name _ :: rest => .ok (String.ofList name, false, rest)
  | .empty name _ :: rest => .ok (String.ofList name, true, rest)
  | .finish :: _ => .error .noRoot
  | .malformed cause :: _ => .error (.malformed cause)
  | _ :: rest => root rest

/-- An element as a child, with its attribute `id`. -/
def childElement (name attributes : List Char) (empty : Bool) : Except Error Child :=
  match attributeValue "id".toList attributes with
  | .ok id => .ok (.element (String.ofList name) empty id)
  | .error cause => .error (.malformed cause)

/-- The first child of the element that was just opened, and the events behind it. -/
def firstChild : List Event → Except Error (Child × List Event)
  | [] => .error .truncated
  | .start name attributes :: rest => (·, rest) <$> childElement name attributes false
  | .empty name attributes :: rest => (·, rest) <$> childElement name attributes true
  | .characterData :: rest => .ok (.other "#cdata-section", rest)
  | .instruction :: rest => .ok (.other "#processing-instruction", rest)
  | .close _ :: rest => .ok (.none, rest)
  | .finish :: _ => .error .truncated
  | .malformed cause :: _ => .error (.malformed cause)
  | _ :: rest => firstChild rest

/-- Read to the end of the document with a number of elements still open. -/
def finish : Nat → List Event → Except Error Unit
  | _, [] => .error .truncated
  | 0, .start name _ :: _ => .error (.surplusElement (String.ofList name))
  | 0, .empty name _ :: _ => .error (.surplusElement (String.ofList name))
  | depth, .start _ _ :: rest => finish (depth + 1) rest
  | depth, .close _ :: rest => finish (depth - 1) rest
  | 0, .finish :: _ => .ok ()
  | _ + 1, .finish :: _ => .error .truncated
  | _, .malformed cause :: _ => .error (.malformed cause)
  | depth, _ :: rest => finish depth rest

/-- The identifier of the only view, by the events of its document. -/
def idOfEvents (events : List Event) : Except Error String := do
  let (rootName, rootEmpty, events) ← root events
  if !Text.equalIgnoringCase rootName "Content" then throw (.wrongRoot rootName)
  if rootEmpty then throw .emptyRoot
  let (views, events) ← firstChild events
  match views with
  | .element viewsName viewsEmpty _ =>
    if !Text.equalIgnoringCase viewsName "Views" then throw (.wrongChild views)
    if viewsEmpty then throw .emptyViews
    let (view, events) ← firstChild events
    match view with
    | .element viewName viewEmpty id =>
      if !Text.equalIgnoringCase viewName "ViewDef" then throw (.wrongView view)
      match id.map Text.trimChars with
      | some (first :: more) =>
        finish (if viewEmpty then 2 else 3) events
        pure (String.ofList (first :: more))
      | _ => throw .noId
    | found => throw (.wrongView found)
  | found => throw (.wrongChild found)

/-- The identifier of the view in a document. -/
def id (text : String) : Except Error String :=
  idOfEvents (events text.toList)

end OpsContent.ViewDocument
