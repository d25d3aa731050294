import OpsContent.Proofs.Encodings
import OpsContent.Properties

/-!
# Entries over the lines of a property file

The selection of entries can be done line by line, with one mark of what the lines so far leave
open.  Where they leave nothing open, the selection of a whole is that of its parts, and this
carries over to texts that are joined at line ends and to files in either encoding.
-/

namespace OpsContent.Properties

open List Bytes

variable {chars : List Char} {content : Bytes} {contents : List Bytes}

/-! ## Line by line -/

/-- The entry that a line is part of, told by whether it is kept.  The lines before it may leave
an entry open; otherwise the line starts one of its own unless it is skipped. -/
def entryAt (start : List Char) (pending : Option Bool) (line : Line) : Option Bool :=
  match pending with
  | some kept => some kept
  | none =>
    if isSkipped line then none else some (start.isPrefixOf (key (Text.trimStart line)))

/-- What the next line is a continuation of. -/
def leaves (start : List Char) (pending : Option Bool) (line : Line) : Option Bool :=
  if continues line then entryAt start pending line else none

/-- The lines of the entries that are kept, found line by line. -/
def carry (start : List Char) : Option Bool → List Line → List Line
  | _, [] => []
  | pending, line :: rest =>
    let later := carry start (leaves start pending line) rest
    if entryAt start pending line = some true then line :: later else later

theorem carry_continuation (start : List Char) (kept : Bool) (line : Line) (rest : List Line) :
    carry start (if continues line then some kept else none) rest =
      (if kept then (continuation line rest).1 else []) ++
        carry start none (continuation line rest).2 := by
  induction rest generalizing line with
  | nil => simp [carry, continuation]
  | cons next rest ih =>
    rw [continuation]
    by_cases goesOn : continues line
    · simp only [goesOn, if_true, carry, leaves, entryAt, Option.some.injEq]
      rw [ih next]
      cases kept <;> simp
    · simp [goesOn]

theorem select_eq_carry (start : List Char) (all : List Line) :
    select start all = carry start none all := by
  fun_induction select start all with
  | case1 => rfl
  | case2 line rest skipped ih => simpa [carry, entryAt, leaves, skipped] using ih
  | case3 line rest notSkipped entry matched ih =>
    have later := carry_continuation start true line rest
    simp only [carry, leaves, entryAt, notSkipped, matched, if_true, Bool.false_eq_true, if_false]
    rw [later, if_pos rfl, ih, cons_append]
  | case4 line rest notSkipped entry unmatched ih =>
    have later := carry_continuation start false line rest
    have fails : start.isPrefixOf (key (Text.trimStart line)) = false :=
      Bool.eq_false_iff.2 unmatched
    simp only [carry, leaves, entryAt, notSkipped, fails, Option.some.injEq, Bool.false_eq_true,
      if_false]
    rw [later, if_neg (by simp), ih, nil_append]

theorem carry_append (start : List Char) (pending : Option Bool) (first rest : List Line) :
    carry start pending (first ++ rest) =
      carry start pending first ++ carry start (first.foldl (leaves start) pending) rest := by
  induction first generalizing pending with
  | nil => rfl
  | cons line more ih =>
    simp only [cons_append, carry, foldl_cons, ih]
    split <;> simp

/-- Do the lines end within an entry?  A line is part of one if the line before it is continued
or if it is not skipped. -/
def leavesOpen (all : List Line) : Bool :=
  all.foldl (fun inEntry line => (inEntry || !isSkipped line) && continues line) false

theorem isSome_foldl_leaves (start : List Char) (pending : Option Bool) (all : List Line) :
    (all.foldl (leaves start) pending).isSome =
      all.foldl (fun inEntry line => (inEntry || !isSkipped line) && continues line)
        pending.isSome := by
  induction all generalizing pending with
  | nil => rfl
  | cons line rest ih =>
    have here : (leaves start pending line).isSome =
        ((pending.isSome || !isSkipped line) && continues line) := by
      cases pending <;> cases skipped : isSkipped line <;> cases goesOn : continues line <;>
        simp [leaves, entryAt, skipped, goesOn]
    rw [foldl_cons, foldl_cons, ih, here]

theorem select_append (start : List Char) {first : List Line} (closed : leavesOpen first = false)
    (rest : List Line) :
    select start (first ++ rest) = select start first ++ select start rest := by
  have nothing : first.foldl (leaves start) none = none := by
    have marks := isSome_foldl_leaves start none first
    rw [Option.isSome_none, ← leavesOpen, closed] at marks
    simpa using marks
  rw [select_eq_carry, carry_append, nothing, ← select_eq_carry, ← select_eq_carry]

theorem select_sublist (start : List Char) (all : List Line) : (select start all).Sublist all := by
  rw [select_eq_carry]
  generalize none = pending
  induction all generalizing pending with
  | nil => exact List.Sublist.refl []
  | cons line rest ih =>
    rw [carry]
    split
    · exact (ih _).cons_cons line
    · exact (ih _).cons line

/-! ## Texts joined at line ends -/

theorem lines_append_lineFeed (before rest : List Char) :
    lines (before ++ '\n' :: rest) = (before.splitOn '\n').map dropReturn ++ lines rest := by
  have some : rest.splitOn '\n' ≠ [] := splitOn_ne_nil _ _
  simp only [lines, splitOn_append_cons_self, getLast?_append_of_ne_nil _ some,
    dropLast_append_of_ne_nil some, map_append, append_assoc]

@[simp] theorem lines_nil : lines [] = [] := rfl

/-- The text with its last line closed. -/
def close (chars : List Char) : List Char :=
  if chars.getLast? = none ∨ chars.getLast? = some '\n' then chars else chars ++ ['\n']

theorem mem_of_mem_close {char : Char} (member : char ∈ close chars) : char = '\n' ∨ char ∈ chars := by
  unfold close at member
  split at member
  · exact .inr member
  · simpa [or_comm] using member

theorem close_cases (chars : List Char) :
    chars = [] ∧ close chars = [] ∨ ∃ before, close chars = before ++ ['\n'] := by
  cases chars using List.reverseRecOn with
  | nil => exact .inl ⟨rfl, rfl⟩
  | append_singleton before last =>
    right
    by_cases ends : last = '\n'
    · exact ⟨before, by simp [close, ends]⟩
    · exact ⟨before ++ [last], by simp [close, ends]⟩

theorem lines_close_append (chars rest : List Char) :
    lines (close chars ++ rest) = lines (close chars) ++ lines rest := by
  rcases close_cases chars with ⟨-, empty⟩ | ⟨before, closed⟩
  · simp [empty]
  · have alone := lines_append_lineFeed before []
    rw [lines_nil, append_nil] at alone
    rw [closed, alone, append_assoc, singleton_append, lines_append_lineFeed]

theorem getLast?_splitOn {before : List Char} {last : Char} (inLine : last ≠ '\n') :
    ∃ part, ((before ++ [last]).splitOn '\n').getLast? = some (part ++ [last]) := by
  induction before with
  | nil => exact ⟨[], by simp [splitOn_cons_eq_if_modifyHead, inLine]⟩
  | cons char more ih =>
    obtain ⟨part, isLast⟩ := ih
    rw [cons_append, splitOn_cons_eq_if_modifyHead]
    cases parts : (more ++ [last]).splitOn '\n' with
    | nil => simp [parts] at isLast
    | cons head tail =>
      rw [parts] at isLast
      split
      · exact ⟨part, by rw [getLast?_cons_cons, isLast]⟩
      · cases tail with
        | nil =>
          obtain rfl : head = part ++ [last] := by simpa using isLast
          exact ⟨char :: part, by simp⟩
        | cons next tail =>
          exact ⟨part, by simpa [getLast?_cons_cons] using isLast⟩

/-- A line end added to a text only ends its last line, unless a carriage return would become
part of it. -/
theorem lines_close (noReturn : chars.getLast? ≠ some '\r') :
    lines (close chars) = lines chars := by
  unfold close
  split
  · rfl
  next unclosed =>
    cases chars using List.reverseRecOn with
    | nil => simp at unclosed
    | append_singleton before last =>
      simp only [getLast?_append, getLast?_singleton, Option.some_or, reduceCtorEq,
        Option.some.injEq, false_or] at unclosed noReturn
      obtain ⟨part, isLast⟩ := @getLast?_splitOn before last unclosed
      have kept : dropReturn (part ++ [last]) = part ++ [last] := by simp [dropReturn, noReturn]
      have whole := dropLast_append_getLast? _ isLast
      have alone := lines_append_lineFeed (before ++ [last]) []
      rw [lines_nil, append_nil, ← whole, map_append, map_singleton, kept]
        at alone
      rw [alone]
      simp only [lines, isLast]
      simp

theorem filterChars_nil (start : List Char) : filterChars start [] = [] := by
  simp [filterChars, select]

theorem filterChars_close_append (start : List Char)
    (closed : leavesOpen (lines (close chars)) = false) (rest : List Char) :
    filterChars start (close chars ++ rest) =
      filterChars start (close chars) ++ filterChars start rest := by
  simp only [filterChars, lines_close_append, select_append start closed, flatMap_append]

/-- Texts that are closed and joined hold the entries of each text, if none ends in a carriage
return and each one that leaves an entry open is followed by nothing. -/
theorem filterChars_flatMap_close (start : List Char) {texts : List (List Char)}
    (noReturn : ∀ text ∈ texts, text.getLast? ≠ some '\r')
    (closed : texts.Pairwise fun earlier later => leavesOpen (lines earlier) = false ∨ later = []) :
    filterChars start (texts.flatMap close) = texts.flatMap (filterChars start) := by
  induction texts with
  | nil => exact filterChars_nil start
  | cons text rest ih =>
    obtain ⟨here, later⟩ := pairwise_cons.1 closed
    have same : lines (close text) = lines text := lines_close (noReturn text (by simp))
    have alone : filterChars start (close text) = filterChars start text := by
      simp [filterChars, same]
    have others := ih (forall_mem_cons.1 noReturn).2 later
    rw [flatMap_cons, flatMap_cons, ← others, ← alone]
    by_cases ends : leavesOpen (lines text) = false
    · exact filterChars_close_append start (same ▸ ends) _
    · have nothing : rest.flatMap close = [] := by
        apply flatMap_eq_nil_iff.2
        intro other member
        obtain rfl := (here other member).resolve_left ends
        rfl
      rw [nothing, filterChars_nil, append_nil, append_nil]

/-! ## Files -/

def charsOf (content : Bytes) : List Char :=
  match content.toText? with
  | some text => text.toList
  | none => content.latinChars

/-- Does the last entry run on? -/
def endsOpen (content : Bytes) : Bool :=
  leavesOpen (lines (charsOf content))

@[simp] theorem charsOf_ofText (text : String) : charsOf (ofText text) = text.toList := by
  simp [charsOf]

theorem mem_of_mem_splitOn {mark char : Char} {part : List Char}
    (member : part ∈ chars.splitOn mark) (inPart : char ∈ part) : char ∈ chars := by
  induction chars generalizing part with
  | nil => simp_all
  | cons first rest ih =>
    rw [splitOn_cons_eq_if_modifyHead] at member
    cases parts : rest.splitOn mark with
    | nil => simp_all
    | cons head tail =>
      rw [parts] at ih
      rw [parts, modifyHead_cons] at member
      grind

theorem mem_of_mem_lines {char : Char} {line : Line} (member : line ∈ lines chars)
    (inLine : char ∈ line) : char ∈ chars := by
  rcases mem_append.1 member with ended | last
  · obtain ⟨part, inParts, rfl⟩ := mem_map.1 ended
    have inPart : char ∈ part := by
      unfold dropReturn at inLine
      split at inLine
      · exact dropLast_subset _ inLine
      · exact inLine
    exact mem_of_mem_splitOn (dropLast_subset _ inParts) inPart
  · split at last
    · simp at last
    · rw [mem_singleton] at last
      cases found : (chars.splitOn '\n').getLast? with
      | none => simp [last, found] at inLine
      | some part =>
        rw [last, found, Option.getD_some] at inLine
        exact mem_of_mem_splitOn (mem_of_getLast? found) inLine

theorem mem_of_mem_filterChars {start : List Char} {char : Char}
    (member : char ∈ filterChars start chars) : char = '\n' ∨ char ∈ chars := by
  obtain ⟨line, selected, inLine⟩ := mem_flatMap.1 member
  rcases mem_append.1 inLine with inside | lineEnd
  · exact .inr (mem_of_mem_lines ((select_sublist start _).subset selected) inside)
  · exact .inl (mem_singleton.1 lineEnd)

theorem filterBytes_of_isAscii (ascii : content.IsAscii) (start : String) :
    filterBytes content start =
      ofLatinChars (filterChars start.toList content.latinChars) := by
  have low : ∀ char ∈ filterChars start.toList content.latinChars, char.toNat < 128 := by
    intro char member
    rcases mem_of_mem_filterChars member with rfl | inContent
    · decide
    · exact lt_of_mem_latinChars ascii inContent
  simp only [filterBytes, toText?_of_isAscii ascii, filter, String.toList_ofList]
  exact ofText_ofList_of_lt low

/-- The files can be read in one encoding: all are UTF-8, or those that are hold the first 128
characters only. -/
def SameEncoding (contents : List Bytes) : Prop :=
  (∀ content ∈ contents, content.IsText) ∨ ∀ content ∈ contents, content.IsText → content.IsAscii

theorem charsOf_of_latin (latin : content.IsText → content.IsAscii) :
    charsOf content = content.latinChars := by
  unfold charsOf
  by_cases isText : content.IsText
  · rw [toText?_of_isAscii (latin isText)]
    exact String.toList_ofList
  · rw [toText?_eq_none_iff.2 isText]

theorem filterBytes_of_latin (latin : content.IsText → content.IsAscii) (start : String) :
    filterBytes content start =
      ofLatinChars (filterChars start.toList content.latinChars) := by
  by_cases isText : content.IsText
  · exact filterBytes_of_isAscii (latin isText) start
  · simp [filterBytes, toText?_eq_none_iff.2 isText]

/-- The file is read in the encoding, and so is what is filtered of it. -/
structure Written (encode : Char → Bytes) (content : Bytes) : Prop where
  keeps : ∀ char ∈ charsOf content, Bytes.KeepsAscii encode char
  whole : (charsOf content).flatMap encode = content
  filtered : ∀ start : String,
    filterBytes content start = (filterChars start.toList (charsOf content)).flatMap encode

theorem written_utf8 (isText : content.IsText) : Written String.utf8EncodeChar content := by
  obtain ⟨text, rfl⟩ := isText
  refine ⟨fun char _ => keepsAscii_utf8 char, ?_, fun start => ?_⟩
  · rw [charsOf_ofText, ofText_eq_flatMap]
  · simp [filterBytes, filter, ofText_ofList]

theorem written_latin (latin : content.IsText → content.IsAscii) :
    Written latinByte content := by
  refine ⟨?_, ?_, fun start => ?_⟩ <;> rw [charsOf_of_latin latin]
  · exact fun char member => keepsAscii_latin (toNat_lt_of_mem_latinChars member)
  · rw [← ofLatinChars_eq_flatMap, ofLatinChars_latinChars]
  · rw [filterBytes_of_latin latin, ofLatinChars_eq_flatMap]

section

variable {encode : Char → Bytes}

theorem Written.closeLine_eq (written : Written encode content) (feed : encode '\n' = [0x0A]) :
    content.closeLine = (close (charsOf content)).flatMap encode := by
  have isFeed := getLast?_flatMap_eq_iff written.keeps (by decide : '\n'.toNat < 128)
  have isNil := flatMap_eq_nil_iff written.keeps
  rw [written.whole] at isFeed isNil
  unfold closeLine close
  split
  next ends =>
    rw [if_pos, written.whole]
    rcases endsLine_iff.1 ends with empty | ⟨before, ended⟩
    · exact .inl (getLast?_eq_none_iff.2 (isNil.1 empty))
    · exact .inr (isFeed.1 (by rw [ended, getLast?_concat]; rfl))
  next unended =>
    rw [if_neg, flatMap_append, written.whole, flatMap_singleton, feed]
    rintro (empty | ended)
    · exact unended (endsLine_iff.2 (.inl (isNil.2 (getLast?_eq_none_iff.1 empty))))
    · exact unended (endsLine_iff.2
        (.inr ⟨_, (dropLast_append_getLast? _ (isFeed.2 ended)).symm⟩))

variable (written : ∀ content ∈ contents, Written encode content)

include written

theorem flatMap_closeLine_eq (feed : encode '\n' = [0x0A]) :
    contents.flatMap closeLine =
      ((contents.map charsOf).flatMap close).flatMap encode := by
  rw [flatMap_assoc, flatMap_map]
  exact flatMap_congr fun content member => (written content member).closeLine_eq feed

/-- Closed and joined files hold the entries of each file, if the whole is read as its parts
are. -/
theorem filterBytes_flatMap_of_written
    (joined : Written encode (contents.flatMap closeLine))
    (read : charsOf (contents.flatMap closeLine) = (contents.map charsOf).flatMap close)
    (noReturn : ∀ content ∈ contents, content.getLast? ≠ some 0x0D)
    (closed : contents.Pairwise fun earlier later => endsOpen earlier = false ∨ later = [])
    (start : String) :
    filterBytes (contents.flatMap closeLine) start =
      contents.flatMap fun content => filterBytes content start := by
  have noReturnChars : ∀ text ∈ contents.map charsOf, text.getLast? ≠ some '\r' := by
    intro text member isReturn
    obtain ⟨content, inside, rfl⟩ := mem_map.1 member
    have here := written content inside
    apply noReturn content inside
    rw [← here.whole]
    exact (getLast?_flatMap_eq_iff here.keeps (by decide : '\r'.toNat < 128)).2 isReturn
  have closedChars : (contents.map charsOf).Pairwise fun earlier later =>
      leavesOpen (lines earlier) = false ∨ later = [] :=
    pairwise_map.2 (closed.imp fun ends => ends.imp_right fun empty => by rw [empty]; rfl)
  rw [joined.filtered, read, filterChars_flatMap_close _ noReturnChars closedChars,
    flatMap_assoc, flatMap_map]
  exact flatMap_congr fun content member => ((written content member).filtered start).symm

end

/-- Closed and joined files hold the entries of each file, if they can be read in one encoding,
none ends in a carriage return and behind one that ends within an entry all are empty. -/
theorem filterBytes_flatMap_closeLine {contents : List Bytes} (encoding : SameEncoding contents)
    (noReturn : ∀ content ∈ contents, content.getLast? ≠ some 0x0D)
    (closed : contents.Pairwise fun earlier later => endsOpen earlier = false ∨ later = [])
    (start : String) :
    filterBytes (contents.flatMap closeLine) start =
      contents.flatMap fun content => filterBytes content start := by
  by_cases valid : ∀ content ∈ contents, content.IsText
  · have written := fun content member => written_utf8 (valid content member)
    refine filterBytes_flatMap_of_written written
      (written_utf8 (isText_flatMap_closeLine.2 valid)) ?_ noReturn closed start
    rw [flatMap_closeLine_eq written (by decide), ← ofText_ofList, charsOf_ofText,
      String.toList_ofList]
  · have latin := encoding.resolve_left valid
    have written := fun content member => written_latin (latin content member)
    have joined : Bytes.IsText (contents.flatMap closeLine) →
        Bytes.IsAscii (contents.flatMap closeLine) :=
      fun isText => absurd (isText_flatMap_closeLine.1 isText) valid
    refine filterBytes_flatMap_of_written written (written_latin joined) ?_ noReturn closed start
    rw [charsOf_of_latin joined, flatMap_closeLine_eq written (by decide),
      ← ofLatinChars_eq_flatMap, latinChars_ofLatinChars]
    intro char member
    obtain ⟨text, inTexts, inText⟩ := mem_flatMap.1 member
    obtain ⟨content, inside, rfl⟩ := mem_map.1 inTexts
    rcases mem_of_mem_close inText with rfl | inText
    · decide
    · rw [charsOf_of_latin (latin content inside)] at inText
      exact toNat_lt_of_mem_latinChars inText

end OpsContent.Properties
