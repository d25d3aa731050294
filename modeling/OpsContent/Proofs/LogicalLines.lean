import Mathlib.Data.List.Flatten
import Mathlib.Data.List.TakeWhile
import OpsContent.Proofs.PropertyEntries

/-!
# Logical lines of a property file

An entry stands on one or more lines, and its key is that of its logical line: the lines joined
without the backslashes that continue them and without leading blanks.  The filter looks at the
first line of an entry alone, so it knows only the beginning of a key that is spread over several
lines.  What it keeps is rightly kept; what it misses are the entries whose key matches but has
too few characters in the first line.
-/

namespace OpsContent.Properties

open List

variable {line : Line}

/-! ## Keys -/

/-- A character of an entry, with or without a backslash before it. -/
inductive Piece where
  | plain (char : Char)
  | escaped (char : Char)
  deriving DecidableEq

namespace Piece

def endsKey : Piece → Bool
  | .plain char => Properties.endsKey char
  | .escaped _ => false

def resolved : Piece → Char
  | .plain char => char
  | .escaped char => unescaped char

end Piece

/-- A line with its escapes resolved. -/
def pieces : Line → List Piece
  | [] => []
  | '\\' :: [] => []
  | '\\' :: char :: rest => .escaped char :: pieces rest
  | char :: rest => .plain char :: pieces rest

/-- The key that a line begins with. -/
def keyOf (line : Line) : List Char :=
  ((pieces line).takeWhile fun piece => !piece.endsKey).map Piece.resolved

theorem key_eq_keyOf (line : Line) : key line = keyOf line := by
  fun_induction key line with
  | case1 => rfl
  | case2 => rfl
  | case3 char rest ih => simp [keyOf, pieces, Piece.endsKey, Piece.resolved, ih]
  | case4 char rest _ _ ends => simp [keyOf, pieces, Piece.endsKey, ends]
  | case5 char rest _ _ goesOn ih => simp_all [keyOf, pieces, Piece.endsKey, Piece.resolved]

/-! ## Continued lines -/

theorem odd_takeWhile_concat {α : Type} [BEq α] (mark : α) (before : List α) (last : α) :
    (((before ++ [last]).reverse.takeWhile (· == mark)).length % 2 == 1) =
      (last == mark && !((before.reverse.takeWhile (· == mark)).length % 2 == 1)) := by
  have parity : ∀ count : Nat, ((count + 1) % 2 == 1) = !(count % 2 == 1) := by
    intro count
    rcases Nat.mod_two_eq_zero_or_one count with even | odd <;> simp [Nat.add_mod, *]
  rw [reverse_concat, takeWhile_cons]
  split
  next isMark => rw [length_cons, parity, isMark, Bool.true_and]
  next other => simp [other]

theorem continues_concat (before : Line) (last : Char) :
    continues (before ++ [last]) = (last == '\\' && !continues before) :=
  odd_takeWhile_concat '\\' before last

theorem continues_cons_cons (char : Char) (rest : Line) :
    continues ('\\' :: char :: rest) = continues rest := by
  induction rest using List.reverseRecOn with
  | nil =>
    rw [show ['\\', char] = ['\\'] ++ [char] from rfl, continues_concat]
    exact Bool.and_false _
  | append_singleton rest last ih =>
    rw [← cons_append, ← cons_append, continues_concat, continues_concat, ih]

theorem continues_cons {char : Char} (other : char ≠ '\\') (rest : Line) :
    continues (char :: rest) = continues rest := by
  induction rest using List.reverseRecOn with
  | nil => simp [continues, other]
  | append_singleton rest last ih =>
    rw [← cons_append, continues_concat, continues_concat, ih]

def uncontinued (line : Line) : Line :=
  if continues line then line.dropLast else line

theorem exists_of_continues (goesOn : continues line) :
    ∃ before, line = before ++ ['\\'] ∧ continues before = false := by
  cases line using List.reverseRecOn with
  | nil => cases goesOn
  | append_singleton before last =>
    rw [continues_concat, Bool.and_eq_true, beq_iff_eq, Bool.not_eq_true'] at goesOn
    exact ⟨before, by rw [goesOn.1], goesOn.2⟩

theorem continues_uncontinued (line : Line) : continues (uncontinued line) = false := by
  unfold uncontinued
  split
  next goesOn =>
    obtain ⟨before, rfl, closed⟩ := exists_of_continues goesOn
    rwa [dropLast_concat]
  next closed => exact Bool.eq_false_iff.2 closed

theorem pieces_append (closed : continues line = false) (rest : Line) :
    pieces (line ++ rest) = pieces line ++ pieces rest := by
  fun_induction pieces line with
  | case1 => rfl
  | case2 => cases closed
  | case3 char more ih =>
    rw [continues_cons_cons] at closed
    simp [pieces, ih closed]
  | case4 char more alone escapes ih =>
    have other : char ≠ '\\' := by
      rintro rfl
      cases more with
      | nil => exact alone rfl rfl
      | cons next more => exact escapes next more rfl rfl
    rw [continues_cons other] at closed
    simp [pieces, other, ih closed]

theorem pieces_uncontinued (line : Line) : pieces (uncontinued line) = pieces line := by
  unfold uncontinued
  split
  next goesOn =>
    obtain ⟨before, rfl, closed⟩ := exists_of_continues goesOn
    rw [dropLast_concat, pieces_append closed]
    exact (append_nil _).symm
  · rfl

/-! ## Entries -/

/-- The lines of one entry: all but the last continue. -/
@[ext] structure Entry where
  first : Line
  more : List Line
  starts : isSkipped first = false
  chained : (first :: more).IsChain fun line _ => continues line = true

namespace Entry

/-- All lines of an entry. -/
def lines (entry : Entry) : List Line :=
  entry.first :: entry.more

def text (entry : Entry) : List Char :=
  entry.lines.flatMap fun line => line ++ ['\n']

/-- The entry does not run into the next one. -/
def Closed (entry : Entry) : Prop :=
  ∀ last, entry.lines.getLast? = some last → continues last = false

/-- The lines of the entry joined to one, without the backslashes that continue them and without
leading blanks. -/
def logicalLine (entry : Entry) : Line :=
  entry.lines.flatMap fun line => uncontinued (Text.trimStart line)

/-- The key of the whole entry. -/
def key (entry : Entry) : List Char :=
  keyOf entry.logicalLine

/-- The key as the first line alone has it. -/
def headKey (entry : Entry) : List Char :=
  keyOf (Text.trimStart entry.first)

def endsKeyAtOnce (entry : Entry) : Bool :=
  (pieces (Text.trimStart entry.first)).any Piece.endsKey

theorem pieces_logicalLine (entry : Entry) :
    pieces entry.logicalLine =
      pieces (Text.trimStart entry.first) ++
        pieces (entry.more.flatMap fun line => uncontinued (Text.trimStart line)) := by
  rw [logicalLine, lines, flatMap_cons, pieces_append (continues_uncontinued _),
    pieces_uncontinued]

theorem headKey_prefix_key (entry : Entry) : entry.headKey <+: entry.key := by
  rw [headKey, key, keyOf, keyOf, pieces_logicalLine, takeWhile_append]
  split
  next whole =>
    have all := takeWhile_prefix (l := pieces (Text.trimStart entry.first))
      fun piece => !piece.endsKey
    rw [all.eq_of_length whole]
    exact (prefix_append _ _).map _
  · exact prefix_rfl

theorem headKey_eq_key {entry : Entry}
    (whole : entry.endsKeyAtOnce ∨ entry.more = []) : entry.headKey = entry.key := by
  rw [headKey, key, keyOf, keyOf, pieces_logicalLine]
  rcases whole with ends | alone
  · obtain ⟨piece, member, isEnd⟩ := any_eq_true.1 ends
    rw [takeWhile_append, if_neg]
    intro length
    have all := (List.takeWhile_prefix (l := pieces (Text.trimStart entry.first))
      fun piece => !piece.endsKey).eq_of_length length
    rw [← all] at member
    have goesOn := mem_takeWhile_imp member
    rw [isEnd] at goesOn
    cases goesOn
  · rw [alone, flatMap_nil, pieces, append_nil]

end Entry

/-- The entries that stand on the given lines.  Comments and blank lines where an entry could
start belong to none, and an entry goes on as long as its lines are continued. -/
inductive Reads : List Line → List Entry → Prop where
  | nil : Reads [] []
  | skip {line : Line} {rest : List Line} {entries : List Entry} (skipped : isSkipped line = true)
      (later : Reads rest entries) : Reads (line :: rest) entries
  | read {entry : Entry} {rest : List Line} {entries : List Entry}
      (ends : entry.Closed ∨ rest = []) (later : Reads rest entries) :
      Reads (entry.lines ++ rest) (entry :: entries)

theorem continuation_of_chained {more rest : List Line}
    (chained : (line :: more).IsChain fun line _ => continues line)
    (ends : (∀ last, (line :: more).getLast? = some last → continues last = false) ∨ rest = []) :
    continuation line (more ++ rest) = (more, rest) := by
  induction more generalizing line with
  | nil =>
    cases rest with
    | nil => rfl
    | cons next rest =>
      have closed : continues line = false := ends.elim (fun all => all line rfl) nofun
      simp [continuation, closed]
  | cons next more ih =>
    obtain ⟨goesOn, chained⟩ := isChain_cons_cons.1 chained
    rw [getLast?_cons_cons] at ends
    simp [continuation, goesOn, ih chained ends]

theorem continuation_chained (line : Line) (rest : List Line) :
    (line :: (continuation line rest).1).IsChain fun line _ => continues line := by
  induction rest generalizing line with
  | nil => exact .singleton line
  | cons next rest ih =>
    rw [continuation]
    split
    next goesOn => exact .cons_cons goesOn (ih next)
    · exact .singleton line

theorem continuation_ends (line : Line) (rest : List Line) :
    (∀ last, (line :: (continuation line rest).1).getLast? = some last → continues last = false) ∨
      (continuation line rest).2 = [] := by
  induction rest generalizing line with
  | nil => exact Or.inr rfl
  | cons next rest ih =>
    rw [continuation]
    split
    · simpa only [getLast?_cons_cons] using ih next
    next closed =>
      left
      rintro last ⟨⟩
      exact Bool.eq_false_iff.2 closed

theorem exists_reads (all : List Line) : ∃ entries, Reads all entries := by
  -- The selection passes over one entry after another, whatever it selects.
  fun_induction select [] all with
  | case1 => exact ⟨[], .nil⟩
  | case2 line rest skipped ih =>
    obtain ⟨entries, later⟩ := ih
    exact ⟨entries, .skip skipped later⟩
  | case3 line rest starts following _ ih | case4 line rest starts following _ ih =>
    obtain ⟨entries, later⟩ := ih
    let entry : Entry := ⟨line, (continuation line rest).1, Bool.eq_false_iff.2 starts,
      continuation_chained line rest⟩
    refine ⟨entry :: entries, ?_⟩
    have whole : entry.lines ++ (continuation line rest).2 = line :: rest :=
      congrArg (line :: ·) (continuation_append line rest)
    rw [← whole]
    exact .read (continuation_ends line rest) later

namespace Reads

variable {all : List Line} {entries : List Entry}

theorem continuation_read {entry : Entry} {rest : List Line} (ends : entry.Closed ∨ rest = []) :
    continuation entry.first (entry.more ++ rest) = (entry.more, rest) :=
  continuation_of_chained entry.chained ends

/-- A text is read into entries in one way. -/
theorem unique {other : List Entry} (reads : Reads all entries) (again : Reads all other) :
    entries = other := by
  induction reads generalizing other with
  | nil =>
    generalize noLines : ([] : List Line) = lines at again
    cases again with
    | nil => rfl
    | skip => cases noLines
    | read => cases noLines
  | @skip line rest entries skipped later ih =>
    generalize whole : line :: rest = lines at again
    cases again with
    | nil => cases whole
    | skip _ again =>
      cases whole
      exact ih again
    | @read entry more _ _ _ =>
      cases whole
      rw [entry.starts] at skipped
      cases skipped
  | @read entry rest entries ends later ih =>
    generalize whole : entry.lines ++ rest = lines at again
    cases again with
    | nil => cases whole
    | skip skipped _ =>
      cases whole
      rw [entry.starts] at skipped
      cases skipped
    | @read entry' rest' entries' ends' again =>
      obtain ⟨sameFirst, sameRest⟩ := cons_eq_cons.1 whole
      have split := (continuation_read ends).symm.trans
        ((congrArg₂ continuation sameFirst sameRest).trans (continuation_read ends'))
      obtain ⟨sameMore, rfl⟩ := Prod.mk.inj split
      rw [ih again, Entry.ext sameFirst sameMore]

theorem select_eq (reads : Reads all entries) (start : List Char) :
    select start all =
      (entries.filter fun entry => start.isPrefixOf entry.headKey).flatMap Entry.lines := by
  induction reads with
  | nil => simp [select]
  | skip skipped later ih => rw [select, if_pos skipped, ih]
  | @read entry rest entries ends later ih =>
    have headKey : Properties.key (Text.trimStart entry.first) = entry.headKey :=
      key_eq_keyOf _
    rw [Entry.lines, cons_append, select, if_neg (by simp [entry.starts]),
      continuation_read ends, headKey, filter_cons]
    dsimp only
    rw [ih]
    split <;> rfl

theorem filterChars_eq {chars : List Char} (reads : Reads (lines chars) entries)
    (start : List Char) :
    filterChars start chars =
      (entries.filter fun entry => start.isPrefixOf entry.headKey).flatMap Entry.text := by
  rw [filterChars, reads.select_eq, flatMap_assoc]
  rfl

end Reads

/-! ## What the filter keeps -/

/-- The first line of an entry shows that its key starts with the given characters if the key does
and enough of it stands there. -/
theorem Entry.isPrefixOf_headKey (entry : Entry) (start : List Char) :
    start.isPrefixOf entry.headKey =
      (start.isPrefixOf entry.key && decide (start.length ≤ entry.headKey.length)) := by
  rw [Bool.eq_iff_iff, Bool.and_eq_true, decide_eq_true_iff, isPrefixOf_iff_prefix,
    isPrefixOf_iff_prefix]
  constructor
  · intro shown
    exact ⟨shown.trans entry.headKey_prefix_key, shown.length_le⟩
  · rintro ⟨starts, enough⟩
    exact prefix_of_prefix_length_le starts entry.headKey_prefix_key enough

theorem all_of_flatMap_filter {entries : List Entry} {kept : Entry → Bool}
    (same : (entries.filter kept).flatMap Entry.text = entries.flatMap Entry.text) :
    ∀ entry ∈ entries, kept entry := by
  induction entries with
  | nil => simp
  | cons entry rest ih =>
    rw [filter_cons] at same
    split at same
    next here =>
      rw [flatMap_cons, flatMap_cons, append_cancel_left_eq] at same
      exact forall_mem_cons.2 ⟨here, ih same⟩
    · have shorter : ((rest.filter kept).flatMap Entry.text).length ≤
          (rest.flatMap Entry.text).length :=
        (filter_sublist.flatMap Entry.text).length_le
      have length := congrArg List.length same
      simp only [flatMap_cons, length_append, Entry.text, Entry.lines,
        length_cons, length_nil] at length shorter
      omega

/-- The filter against the keys of logical lines.  Every text is read into entries in one way, and
the filter keeps exactly those whose key starts with the given text and has at least as many
characters in the first line.  So it keeps the entries whose key starts with the given text, as it
should, if and only if each of them has so many characters of its key in its first line.  That is
the case in particular if the keys end in the first lines or the entries have no other. -/
theorem filter_keeps_iff_headKey (content start : String) :
    ∃ entries, Reads (lines content.toList) entries ∧
      (∀ other, Reads (lines content.toList) other → other = entries) ∧
      (filter content start).toList =
        (entries.filter fun entry => start.toList.isPrefixOf entry.key &&
          decide (start.length ≤ entry.headKey.length)).flatMap Entry.text ∧
      ((filter content start).toList =
          (entries.filter fun entry => start.toList.isPrefixOf entry.key).flatMap Entry.text ↔
        ∀ entry ∈ entries, start.toList <+: entry.key → start.length ≤ entry.headKey.length) ∧
      ∀ entry ∈ entries, entry.headKey <+: entry.key ∧
        (entry.endsKeyAtOnce = true ∨ entry.more = [] → entry.headKey = entry.key) := by
  obtain ⟨entries, reads⟩ := exists_reads (lines content.toList)
  have kept : (filter content start).toList =
      (entries.filter fun entry => start.toList.isPrefixOf entry.key &&
        decide (start.length ≤ entry.headKey.length)).flatMap Entry.text := by
    rw [filter, String.toList_ofList, reads.filterChars_eq]
    simp only [Entry.isPrefixOf_headKey, String.length_toList]
  have inOrder : (entries.filter fun entry => start.toList.isPrefixOf entry.key &&
        decide (start.length ≤ entry.headKey.length)) =
      (entries.filter fun entry => start.toList.isPrefixOf entry.key).filter fun entry =>
        decide (start.length ≤ entry.headKey.length) := by
    rw [List.filter_filter]
    simp only [Bool.and_comm]
  refine ⟨entries, reads, fun other again => again.unique reads, kept, ?_, fun entry _ =>
    ⟨entry.headKey_prefix_key, Entry.headKey_eq_key⟩⟩
  rw [kept, inOrder]
  constructor
  · intro same entry member starts
    have among : entry ∈ entries.filter fun entry => start.toList.isPrefixOf entry.key :=
      List.mem_filter.2 ⟨member, List.isPrefixOf_iff_prefix.2 starts⟩
    exact of_decide_eq_true (all_of_flatMap_filter same entry among)
  · intro enough
    rw [List.filter_eq_self.2]
    intro entry among
    obtain ⟨member, starts⟩ := List.mem_filter.1 among
    exact decide_eq_true (enough entry member (List.isPrefixOf_iff_prefix.1 starts))

def spreadEntry : Entry where
  first := "view.\\".toList
  more := ["  123=CPU".toList]
  starts := by decide
  chained := by decide

/-- The filter for the beginning of a key drops the entry if its first line has less of it. -/
theorem filter_drops_spreadEntry :
    Reads (lines "view.\\\n  123=CPU\n".toList) [spreadEntry] ∧
      String.ofList spreadEntry.key = "view.123" ∧
      "view.1".toList <+: spreadEntry.key ∧
      filter "view.\\\n  123=CPU\n" "view.1" = "" := by
  refine ⟨?_, by decide, by decide, by decide +kernel⟩
  have written : lines "view.\\\n  123=CPU\n".toList = spreadEntry.lines ++ [] := by decide
  rw [written]
  exact .read (Or.inr rfl) .nil

end OpsContent.Properties
