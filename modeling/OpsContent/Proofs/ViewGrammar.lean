import OpsContent.Proofs.Steps
import OpsContent.Staging.Upload

/-!
# The grammar of view documents

The identifier of a view is read from exactly those documents whose events are properly nested and
all closed, with one root element `Content` that begins with `Views`, which begins with a `ViewDef`
that has an identifier.
-/

namespace OpsContent.Xml

variable {stack : List (List Char)} {name attributes : List Char}

/-- May the event stand before the root? -/
def Event.isMisc : Event → Bool
  | .text | .comment | .characterData | .instruction | .declaration | .doctype => true
  | _ => false

/-- Is the event passed over inside an element? -/
def Event.isSkipped : Event → Bool
  | .text | .comment | .declaration | .doctype => true
  | _ => false

/-- Events inside the given open elements, innermost first: every end tag closes the innermost one.
A complete stream can be read up to its end, where all elements are closed. -/
inductive Stream (complete : Bool) : List (List Char) → List Event → Prop where
  | finish {stack : List (List Char)} (closed : complete = true → stack = []) :
      Stream complete stack [.finish]
  | malformed {stack : List (List Char)} (cause : Malformed) (partly : complete = false) :
      Stream complete stack [.malformed cause]
  | misc {stack : List (List Char)} {event : Event} {rest : List Event}
      (misc : event.isMisc = true) (later : Stream complete stack rest) :
      Stream complete stack (event :: rest)
  | start {stack : List (List Char)} (name attributes : List Char) {rest : List Event}
      (later : Stream complete (name :: stack) rest) :
      Stream complete stack (.start name attributes :: rest)
  | empty {stack : List (List Char)} (name attributes : List Char) {rest : List Event}
      (later : Stream complete stack rest) :
      Stream complete stack (.empty name attributes :: rest)
  | close {stack : List (List Char)} (name : List Char) {rest : List Event}
      (later : Stream complete stack rest) :
      Stream complete (name :: stack) (.close name :: rest)

/-- How many elements begin outside of all others, with a number of elements open. -/
def roots : Nat → List Event → Nat
  | _, [] => 0
  | 0, .start _ _ :: rest => roots 1 rest + 1
  | 0, .empty _ _ :: rest => roots 0 rest + 1
  | depth, .start _ _ :: rest => roots (depth + 1) rest
  | depth, .close _ :: rest => roots (depth - 1) rest
  | depth, _ :: rest => roots depth rest

theorem markup_ne_finish (chars : List Char) : (markup chars).1 ≠ .finish := by
  unfold markup
  split
  · simp
  · unfold bang
    repeat' split
    all_goals simp
  · simp only [question]
    repeat' split
    all_goals simp
  · split <;> simp
  · simp only [element]
    repeat' split
    all_goals simp

theorem stream_eventsInside (fuel : Nat) (stack : List (List Char)) (chars : List Char) :
    Stream false stack (eventsInside fuel stack chars) := by
  induction fuel generalizing stack chars with
  | zero => exact .finish (by simp)
  | succ fuel ih =>
    cases chars with
    | nil => exact .finish (by simp)
    | cons char chars =>
      rw [eventsInside]
      split
      · have notFinish := markup_ne_finish chars
        split
        · exact .malformed _ rfl
        · split
          · exact .malformed _ rfl
          · split
            next same => exact same ▸ .close _ (ih _ _)
            · exact .malformed _ rfl
        · exact .start _ _ (ih _ _)
        next event rest notMalformed notClose notStart read =>
          rw [read] at notFinish
          cases event with
          | empty => exact .empty _ _ (ih _ _)
          | finish => exact absurd rfl notFinish
          | malformed cause => exact absurd rfl (notMalformed cause)
          | close name => exact absurd rfl (notClose name)
          | start name attributes => exact absurd rfl (notStart name attributes)
          | _ => exact .misc rfl (ih _ _)
      · exact .misc rfl (ih _ _)

section Steps

variable {complete : Bool} {stack : List (List Char)} {rest : List Event} {event : Event}

theorem stream_start_iff :
    Stream complete stack (.start name attributes :: rest) ↔
      Stream complete (name :: stack) rest := by
  refine ⟨fun stream => ?_, .start name attributes⟩
  cases stream with
  | start _ _ later => exact later
  | misc misc => cases misc

theorem stream_empty_iff :
    Stream complete stack (.empty name attributes :: rest) ↔ Stream complete stack rest := by
  refine ⟨fun stream => ?_, .empty name attributes⟩
  cases stream with
  | empty _ _ later => exact later
  | misc misc => cases misc

theorem stream_misc_iff (misc : event.isMisc) :
    Stream complete stack (event :: rest) ↔ Stream complete stack rest := by
  refine ⟨fun stream => ?_, .misc misc⟩
  cases stream with
  | misc _ later => exact later
  | _ => cases misc

theorem roots_misc (misc : event.isMisc) (depth : Nat) :
    roots depth (event :: rest) = roots depth rest := by
  cases depth <;> cases event <;> first | rfl | cases misc

end Steps

section Skipping

variable {skips : Event → Bool} (misc : ∀ event, skips event → event.isMisc)

include misc

theorem stream_dropWhile {complete : Bool} (events : List Event) :
    Stream complete stack (events.dropWhile skips) ↔ Stream complete stack events := by
  induction events with
  | nil => rfl
  | cons event events ih =>
    by_cases skip : skips event
    · rw [List.dropWhile_cons_of_pos skip, ih, stream_misc_iff (misc event skip)]
    · rw [List.dropWhile_cons_of_neg skip]

theorem roots_dropWhile (depth : Nat) (events : List Event) :
    roots depth (events.dropWhile skips) = roots depth events := by
  induction events with
  | nil => rfl
  | cons event events ih =>
    by_cases skip : skips event
    · rw [List.dropWhile_cons_of_pos skip, ih, roots_misc (misc event skip)]
    · rw [List.dropWhile_cons_of_neg skip]

end Skipping

theorem Event.isMisc_of_isSkipped (event : Event) (skipped : event.isSkipped) :
    event.isMisc := by
  cases event <;> first | rfl | cases skipped

def tag (empty : Bool) (name attributes : List Char) : Event :=
  if empty then .empty name attributes else .start name attributes

def opened (empty : Bool) (name : List Char) (stack : List (List Char)) : List (List Char) :=
  if empty then stack else name :: stack

theorem stream_tag_iff {complete empty : Bool} {rest : List Event} :
    Stream complete stack (tag empty name attributes :: rest) ↔
      Stream complete (opened empty name stack) rest := by
  cases empty
  · exact stream_start_iff
  · exact stream_empty_iff

end OpsContent.Xml

namespace OpsContent.ViewDocument

variable {name : String} {id : Option (List Char)} {rest : List Event}

open Xml Event

/-- The documents that name a view, with the identifier. -/
structure NamesView (events : List Event) (id : String) : Prop where
  nested : Stream true [] events
  single : roots 0 events = 1
  path : ∃ root rootRest inRoot views viewsRest inViews empty view viewRest inView viewsId raw,
    events.dropWhile Event.isMisc = .start root rootRest :: inRoot ∧
    Text.equalIgnoringCase (String.ofList root) "Content" = true ∧
    inRoot.dropWhile Event.isSkipped = .start views viewsRest :: inViews ∧
    Text.equalIgnoringCase (String.ofList views) "Views" = true ∧
    attributeValue "id".toList viewsRest = .ok viewsId ∧
    inViews.dropWhile Event.isSkipped = tag empty view viewRest :: inView ∧
    Text.equalIgnoringCase (String.ofList view) "ViewDef" = true ∧
    attributeValue "id".toList viewRest = .ok (some raw) ∧
    String.ofList (Text.trimChars raw) = id ∧ id ≠ ""

theorem finish_misc {event : Event} (misc : event.isMisc) (depth : Nat)
    (rest : List Event) : finish depth (event :: rest) = finish depth rest := by
  cases depth <;> cases event <;> first | rfl | cases misc

/-- A document is read to its end exactly when all open elements are closed there and no other
root element begins. -/
theorem finish_eq_ok_iff {stack : List (List Char)} {events : List Event}
    (stream : Stream false stack events) :
    finish stack.length events = .ok () ↔
      Stream true stack events ∧ roots stack.length events = 0 := by
  induction stream with
  | @finish stack _ =>
    cases stack with
    | nil => exact iff_of_true rfl ⟨.finish fun _ => rfl, rfl⟩
    | cons name stack =>
      refine iff_of_false (by simp [finish]) ?_
      rintro ⟨closed, -⟩
      cases closed with
      | finish closed => cases closed rfl
      | misc misc => cases misc
  | malformed cause =>
    refine iff_of_false (by simp [finish]) ?_
    rintro ⟨closed, -⟩
    cases closed with
    | malformed _ complete => cases complete
    | misc misc => cases misc
  | misc misc _ ih => rw [finish_misc misc, roots_misc misc, stream_misc_iff misc, ih]
  | @start stack name attributes rest _ ih =>
    rw [stream_start_iff]
    cases stack with
    | nil => simp [finish, roots]
    | cons outer stack => exact ih
  | @empty stack name attributes rest _ ih =>
    rw [stream_empty_iff]
    cases stack with
    | nil => simp [finish, roots]
    | cons outer stack => exact ih
  | @close stack name rest later ih =>
    have closes : Stream true (name :: stack) (.close name :: rest) ↔ Stream true stack rest := by
      refine ⟨fun stream => ?_, .close name⟩
      cases stream with
      | close _ later => exact later
      | misc misc => cases misc
    rw [closes]
    exact ih

theorem root_eq_ok_iff {events : List Event} (stream : Stream false [] events) :
    root events = .ok (name, false, rest) ↔
      ∃ chars attributes, events.dropWhile isMisc = .start chars attributes :: rest ∧
        name = String.ofList chars := by
  -- No end tag can stand outside of all elements.
  generalize outside : ([] : List (List Char)) = stack at stream
  induction stream with
  | @misc stack event events misc _ ih =>
    have skipped : root (event :: events) = root events := by
      cases event <;> first | rfl | cases misc
    rw [skipped, List.dropWhile_cons_of_pos misc, ih outside]
  | close => cases outside
  | start chars attributes =>
    simp only [root, List.dropWhile_cons_of_neg, isMisc, Bool.false_eq_true,
      not_false_eq_true, Except.ok.injEq, Prod.mk.injEq, List.cons.injEq, start.injEq]
    grind
  | _ => simp [root, isMisc]

theorem firstChild_tag_eq_ok_iff {chars attributes : List Char} {empty wanted : Bool}
    {after : List Event} :
    firstChild (tag empty chars attributes :: rest) = .ok (.element name wanted id, after) ↔
      (empty = wanted ∧ rest = after) ∧ name = String.ofList chars ∧
        attributeValue "id".toList attributes = .ok id := by
  have opened : firstChild (tag empty chars attributes :: rest) =
      (·, rest) <$> childElement chars attributes empty := by
    cases empty <;> rfl
  rw [opened, childElement]
  cases attributeValue "id".toList attributes with
  | error cause => simp [Functor.map, Except.map]
  | ok read =>
    simp only [Functor.map, Except.map, Except.ok.injEq, Prod.mk.injEq, Child.element.injEq]
    grind

theorem firstChild_eq_ok_iff {events : List Event} {empty : Bool} :
    firstChild events = .ok (.element name empty id, rest) ↔
      ∃ chars attributes, events.dropWhile isSkipped = tag empty chars attributes :: rest ∧
        name = String.ofList chars ∧ attributeValue "id".toList attributes = .ok id := by
  induction events with
  | nil => simp [firstChild]
  | cons event events ih =>
    cases event with
    | text | comment | declaration | doctype => exact ih
    | start chars attributes =>
      rw [show start chars attributes = tag false chars attributes from rfl,
        firstChild_tag_eq_ok_iff, List.dropWhile_cons_of_neg (by simp [tag, isSkipped])]
      cases empty <;> simp only [tag] <;> grind
    | empty chars attributes =>
      rw [show Event.empty chars attributes = tag true chars attributes from rfl,
        firstChild_tag_eq_ok_iff, List.dropWhile_cons_of_neg (by simp [tag, isSkipped])]
      cases empty <;> simp only [tag] <;> grind
    | _ => cases empty <;> simp [firstChild, isSkipped, tag]

/-- What is looked up in a document, in order. -/
theorem idOfEvents_eq_ok_iff {events : List Event} {id : String} :
    idOfEvents events = .ok id ↔
      ∃ rootName inRoot viewsName viewsId inViews viewName empty raw inView,
        root events = .ok (rootName, false, inRoot) ∧
        Text.equalIgnoringCase rootName "Content" ∧
        firstChild inRoot = .ok (.element viewsName false viewsId, inViews) ∧
        Text.equalIgnoringCase viewsName "Views" ∧
        firstChild inViews = .ok (.element viewName empty (some raw), inView) ∧
        Text.equalIgnoringCase viewName "ViewDef" ∧
        (String.ofList (Text.trimChars raw) = id ∧ id ≠ "") ∧
        finish (if empty then 2 else 3) inView = .ok () := by
  constructor
  · intro found
    obtain ⟨⟨rootName, rootEmpty, inRoot⟩, atRoot, found⟩ := bind_eq_ok found
    dsimp only at found
    split at found
    · cases found
    next content =>
    split at found
    · cases found
    next opened =>
    obtain ⟨⟨found', inViews⟩, atViews, found⟩ := bind_eq_ok found
    dsimp only at found
    split at found
    next viewsName viewsEmpty viewsId =>
      split at found
      · cases found
      next views =>
      split at found
      · cases found
      next openedViews =>
      obtain ⟨⟨found'', inView⟩, atView, found⟩ := bind_eq_ok found
      dsimp only at found
      split at found
      next viewName viewEmpty viewId =>
        split at found
        · cases found
        next view =>
        split at found
        next first more trimmed =>
          obtain ⟨_, ended, found⟩ := bind_eq_ok found
          cases found
          obtain ⟨raw, rfl, trims⟩ := Option.map_eq_some_iff.mp trimmed
          obtain rfl := eq_false_of_ne_true opened
          obtain rfl := eq_false_of_ne_true openedViews
          exact ⟨rootName, inRoot, viewsName, viewsId, inViews, viewName, viewEmpty, raw, inView,
            atRoot, by simpa using content, atViews, by simpa using views, atView,
            by simpa using view, ⟨by rw [trims], by simp⟩, ended⟩
        · cases found
      · cases found
    · cases found
  · rintro ⟨rootName, inRoot, viewsName, viewsId, inViews, viewName, empty, raw, inView, atRoot,
      content, atViews, views, atView, view, ⟨rfl, nonempty⟩, ended⟩
    have trims : ∃ first more, Text.trimChars raw = first :: more := by
      cases trimmed : Text.trimChars raw with
      | nil => simp [trimmed] at nonempty
      | cons first more => exact ⟨first, more, rfl⟩
    obtain ⟨first, more, trimmed⟩ := trims
    simp only [idOfEvents, atRoot, content, atViews, views, atView, view, trimmed, ended, bind,
      Except.bind, pure, Except.pure, Bool.not_true, Bool.false_eq_true, if_false, Option.map_some]

theorem idOfEvents_eq_ok_iff_namesView {events : List Event} (stream : Stream false [] events)
    {id : String} : idOfEvents events = .ok id ↔ NamesView events id := by
  -- The tags that are looked up leave the elements open in which the rest is read.
  have inside {empty : Bool} {root rootRest views viewsRest view viewRest : List Char}
      {inRoot inViews inView : List Event}
      (atRoot : events.dropWhile isMisc = .start root rootRest :: inRoot)
      (atViews : inRoot.dropWhile isSkipped = .start views viewsRest :: inViews)
      (atView : inViews.dropWhile isSkipped = tag empty view viewRest :: inView) :
      (∀ complete, Stream complete [] events ↔
          Stream complete (opened empty view [views, root]) inView) ∧
        roots 0 events = roots (opened empty view [views, root]).length inView + 1 := by
    constructor
    · intro complete
      rw [← stream_dropWhile (fun _ misc => misc), atRoot, stream_start_iff,
        ← stream_dropWhile isMisc_of_isSkipped, atViews, stream_start_iff,
        ← stream_dropWhile isMisc_of_isSkipped, atView, stream_tag_iff]
    · have opens : roots 0 (.start root rootRest :: inRoot) = roots 1 inRoot + 1 := rfl
      have deeper : roots 1 (.start views viewsRest :: inViews) = roots 2 inViews := rfl
      rw [← roots_dropWhile (fun _ misc => misc), atRoot, opens,
        ← roots_dropWhile isMisc_of_isSkipped, atViews, deeper,
        ← roots_dropWhile isMisc_of_isSkipped, atView]
      cases empty <;> rfl
  -- What is behind them is read to the end when nothing is left open.
  have ends {empty : Bool} {root rootRest views viewsRest view viewRest : List Char}
      {inRoot inViews inView : List Event}
      (atRoot : events.dropWhile isMisc = .start root rootRest :: inRoot)
      (atViews : inRoot.dropWhile isSkipped = .start views viewsRest :: inViews)
      (atView : inViews.dropWhile isSkipped = tag empty view viewRest :: inView) :
      finish (if empty then 2 else 3) inView = .ok () ↔
        Stream true [] events ∧ roots 0 events = 1 := by
    have depth : (if empty then 2 else 3) = (opened empty view [views, root]).length := by
      cases empty <;> rfl
    rw [depth, finish_eq_ok_iff (((inside atRoot atViews atView).1 false).mp stream),
      (inside atRoot atViews atView).1 true, (inside atRoot atViews atView).2, Nat.add_eq_right]
  rw [idOfEvents_eq_ok_iff]
  constructor
  · rintro ⟨_, inRoot, _, viewsId, inViews, _, empty, raw, inView, first, content, second, isViews,
      third, isView, named, ended⟩
    obtain ⟨root, rootRest, atRoot, rfl⟩ := (root_eq_ok_iff stream).mp first
    obtain ⟨views, viewsRest, atViews, rfl, viewsRead⟩ := firstChild_eq_ok_iff.mp second
    obtain ⟨view, viewRest, atView, rfl, viewRead⟩ := firstChild_eq_ok_iff.mp third
    obtain ⟨nested, single⟩ := (ends atRoot atViews atView).mp ended
    exact ⟨nested, single, root, rootRest, inRoot, views, viewsRest, inViews, empty, view, viewRest,
      inView, viewsId, raw, atRoot, content, atViews, isViews, viewsRead, atView, isView, viewRead,
      named⟩
  · rintro ⟨nested, single, root, rootRest, inRoot, views, viewsRest, inViews, empty, view, viewRest,
      inView, viewsId, raw, atRoot, content, atViews, isViews, viewsRead, atView, isView, viewRead,
      named⟩
    exact ⟨_, inRoot, _, viewsId, inViews, _, empty, raw, inView,
      (root_eq_ok_iff stream).mpr ⟨root, rootRest, atRoot, rfl⟩, content,
      firstChild_eq_ok_iff.mpr ⟨views, viewsRest, atViews, rfl, viewsRead⟩, isViews,
      firstChild_eq_ok_iff.mpr ⟨view, viewRest, atView, rfl, viewRead⟩, isView, named,
      (ends atRoot atViews atView).mpr ⟨nested, single⟩⟩

/-- A document gives exactly the identifier it names a view by; any other is a configuration
error. -/
theorem id_eq_ok_iff_namesView (text : String) :
    (∀ id, ViewDocument.id text = .ok id ↔ NamesView (events text.toList) id) ∧
      ∀ disk file, Disk.readText disk file = .ok text →
        (∀ id, ¬NamesView (events text.toList) id) →
          ∃ message, Staging.viewId disk file = .error (.configuration message) := by
  have grammar (id : String) : ViewDocument.id text = .ok id ↔ NamesView (events text.toList) id :=
    idOfEvents_eq_ok_iff_namesView (stream_eventsInside _ [] _)
  refine ⟨grammar, fun disk file read unnamed => ?_⟩
  cases given : ViewDocument.id text with
  | ok id => exact absurd ((grammar id).mp given) (unnamed id)
  | error cause =>
    refine ⟨cause.message file.text, ?_⟩
    simp only [Staging.viewId, read, given]

end OpsContent.ViewDocument
