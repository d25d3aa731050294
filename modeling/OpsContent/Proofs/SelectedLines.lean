import Mathlib.Data.List.Chain
import OpsContent.Proofs.LogicalLines

/-!
# Lines that the filter of property files selects

The filter takes whole lines of a file and changes none of them, in whichever encoding the file is
read: line ends, backslashes and the marks of comments are written alike in both, so the lines of
the bytes are those of the characters.  What is kept can be read again into the same entries, and
this is why filters for longer and longer keys can follow one another.
-/

namespace OpsContent

open List Properties

/-! ## Lines of bytes -/

namespace Bytes

variable {char : Char}

/-- The lines of a byte string: the bytes up to a line feed, less one carriage return directly
before it.  The last line may lack its end. -/
def lines (content : Bytes) : List Bytes :=
  let parts := content.splitOn 0x0A
  let last := parts.getLast?.getD []
  (parts.dropLast.map fun line => if line.getLast? = some 0x0D then line.dropLast else line) ++
    (if last.isEmpty then [] else [last])

/-- Does the line end in an odd number of backslashes? -/
def endsOddly (line : Bytes) : Bool :=
  (line.reverse.takeWhile (· == 0x5C)).length % 2 == 1

variable {encode : Char → Bytes} {chars : List Char}

theorem splitOn_append_of_notMem {mark : UInt8} {first : Bytes} (apart : mark ∉ first)
    (rest : Bytes) :
    (first ++ rest).splitOn mark = (rest.splitOn mark).modifyHead (first ++ ·) := by
  induction first with
  | nil =>
    rw [nil_append]
    cases rest.splitOn mark <;> rfl
  | cons byte more ih =>
    rw [mem_cons, not_or] at apart
    rw [cons_append, splitOn_cons_eq_if_modifyHead, ih apart.2,
      if_neg (by simpa using Ne.symm apart.1)]
    simp [modifyHead_modifyHead, Function.comp_def]

theorem splitOn_flatMap (keeps : ∀ char ∈ chars, KeepsAscii encode char) :
    (chars.flatMap encode).splitOn 0x0A =
      (chars.splitOn '\n').map fun part => part.flatMap encode := by
  induction chars with
  | nil => rfl
  | cons char rest ih =>
    obtain ⟨here, later⟩ := forall_mem_cons.1 keeps
    rw [flatMap_cons, splitOn_cons_eq_if_modifyHead]
    by_cases isFeed : char = '\n'
    · have written : encode char = [0x0A] := by rw [isFeed] at here ⊢; exact here.low (by decide)
      simp [isFeed ▸ written, isFeed, ih later, splitOn_cons_eq_if_modifyHead]
    · have apart : 0x0A ∉ encode char := fun member =>
        isFeed (here.eq_of_mem (by decide : '\n'.toNat < 128) member)
      rw [splitOn_append_of_notMem apart, ih later, if_neg (by simp [isFeed])]
      cases rest.splitOn '\n' <;> simp

theorem flatMap_dropReturn (keeps : ∀ char ∈ chars, KeepsAscii encode char) :
    (if (chars.flatMap encode).getLast? = some 0x0D then (chars.flatMap encode).dropLast
      else chars.flatMap encode) = (dropReturn chars).flatMap encode := by
  have isReturn := getLast?_flatMap_eq_iff keeps (by decide : '\r'.toNat < 128)
  unfold dropReturn
  split
  next ends =>
    have ends := isReturn.1 ends
    rw [if_pos ends]
    have whole := dropLast_append_getLast? _ ends
    have written := (keeps '\r' (mem_of_getLast? ends)).low (by decide)
    rw [← whole, flatMap_append, flatMap_singleton, written, dropLast_concat,
      dropLast_concat]
  next other => rw [if_neg fun ends => other (isReturn.2 ends)]

theorem lines_flatMap (keeps : ∀ char ∈ chars, KeepsAscii encode char) :
    lines (chars.flatMap encode) =
      (Properties.lines chars).map fun line => line.flatMap encode := by
  have inPart : ∀ part ∈ chars.splitOn '\n', ∀ char ∈ part, KeepsAscii encode char :=
    fun part member char inside => keeps char (Properties.mem_of_mem_splitOn member inside)
  obtain ⟨last, isLast⟩ : ∃ last, (chars.splitOn '\n').getLast? = some last :=
    ⟨_, getLast?_eq_some_getLast (splitOn_ne_nil _ _)⟩
  simp only [lines, Properties.lines, splitOn_flatMap keeps, getLast?_map, isLast,
    Option.map_some, Option.getD_some, ← map_dropLast, map_map, map_append]
  congr 1
  · apply map_congr_left
    intro part member
    exact flatMap_dropReturn (inPart part (dropLast_subset _ member))
  · have empty := flatMap_eq_nil_iff (inPart last (mem_of_getLast? isLast))
    by_cases nothing : last = []
    · simp [nothing]
    · simp [nothing, mt empty.1 nothing]

theorem endsOddly_concat (before : Bytes) (last : UInt8) :
    endsOddly (before ++ [last]) = (last == 0x5C && !endsOddly before) :=
  odd_takeWhile_concat 0x5C before last

theorem endsOddly_flatMap (keeps : ∀ char ∈ chars, KeepsAscii encode char) :
    endsOddly (chars.flatMap encode) = continues chars := by
  induction chars using List.reverseRecOn with
  | nil => rfl
  | append_singleton before last ih =>
    have here := keeps last (by simp)
    have earlier := ih fun char member => keeps char (by simp [member])
    rw [continues_concat, ← earlier, flatMap_append, flatMap_singleton]
    by_cases mark : last = '\\'
    · have written : encode last = [0x5C] := by
        rw [mark] at here ⊢
        exact here.low (by decide)
      rw [written, endsOddly_concat, mark]
      rfl
    · obtain ⟨bytes, byte, encoded⟩ : ∃ bytes byte, encode last = bytes ++ [byte] :=
        ⟨_, _, (dropLast_concat_getLast here.notEmpty).symm⟩
      have other : byte ≠ 0x5C := by
        rintro rfl
        exact mark (here.eq_of_mem (by decide : '\\'.toNat < 128) (by rw [encoded]; simp))
      rw [encoded, ← append_assoc, endsOddly_concat, beq_false_of_ne other,
        beq_false_of_ne mark, Bool.false_and, Bool.false_and]

/-! ## Files in either encoding -/

/-- How characters of a file are written back. -/
def encodingOf (content : Bytes) : Char → Bytes :=
  if content.IsText then String.utf8EncodeChar else latinByte

def readAs (content part : Bytes) : List Char :=
  if content.IsText then (part.toText?.getD "").toList else part.latinChars

/-- A file is written as its encoding says. -/
theorem written (content : Bytes) : Properties.Written content.encodingOf content := by
  unfold encodingOf
  split
  next isText => exact written_utf8 isText
  next latin => exact written_latin fun isText => absurd isText latin

theorem readAs_flatMap {content : Bytes} {part : List Char}
    (inside : ∀ char ∈ part, char ∈ charsOf content) :
    content.readAs (part.flatMap content.encodingOf) = part := by
  unfold readAs encodingOf
  split
  · rw [← ofText_ofList, toText?_ofText]
    exact String.toList_ofList
  next latin =>
    rw [charsOf, toText?_eq_none_iff.2 latin] at inside
    rw [← ofLatinChars_eq_flatMap]
    exact latinChars_ofLatinChars fun char member => toNat_lt_of_mem_latinChars (inside char member)

theorem lines_eq_map (content : Bytes) :
    content.lines = (Properties.lines (Properties.charsOf content)).map fun line =>
      line.flatMap content.encodingOf := by
  rw [← lines_flatMap content.written.keeps, content.written.whole]

theorem map_readAs_lines (content : Bytes) :
    content.lines.map content.readAs = Properties.lines (Properties.charsOf content) := by
  rw [lines_eq_map, map_map]
  refine (map_congr_left fun line member => ?_).trans (map_id _)
  exact readAs_flatMap fun char inside => mem_of_mem_lines member inside

section

variable {content line : Bytes} (member : line ∈ content.lines)

include member

theorem flatMap_readAs : (content.readAs line).flatMap content.encodingOf = line := by
  rw [lines_eq_map] at member
  obtain ⟨chars, isLine, rfl⟩ := mem_map.1 member
  rw [readAs_flatMap fun char => mem_of_mem_lines isLine]

theorem endsOddly_eq_continues : line.endsOddly = continues (content.readAs line) := by
  have isLine : content.readAs line ∈ Properties.lines (Properties.charsOf content) := by
    rw [← map_readAs_lines]
    exact mem_map_of_mem member
  rw [← endsOddly_flatMap fun char inside =>
    content.written.keeps char (mem_of_mem_lines isLine inside),
    flatMap_readAs member]

end

end Bytes

namespace Properties

/-! ## Kept positions -/

/-- Does the line belong to an entry that is kept? -/
def keptAt (start : List Char) (all : List Line) (index : Nat) : Bool :=
  all[index]?.any fun line =>
    entryAt start ((all.take index).foldl (leaves start) none) line = some true

theorem keptAt_append_of_lt (start : List Char) {first : List Line} (rest : List Line)
    {index : Nat} (inFirst : index < first.length) :
    keptAt start (first ++ rest) index = keptAt start first index := by
  rw [keptAt, keptAt, getElem?_append_left inFirst,
    take_append_of_le_length (Nat.le_of_lt inFirst)]

theorem keptAt_concat (start : List Char) (before : List Line) (last : Line) :
    keptAt start (before ++ [last]) before.length =
      decide (entryAt start (before.foldl (leaves start) none) last = some true) := by
  simp [keptAt]

theorem select_eq_filter_zipIdx (start : List Char) (all : List Line) :
    select start all = (all.zipIdx.filter fun row => keptAt start all row.2).map Prod.fst := by
  rw [select_eq_carry]
  induction all using List.reverseRecOn with
  | nil => rfl
  | append_singleton before last ih =>
    have early : (before.zipIdx.filter fun row => keptAt start (before ++ [last]) row.2) =
        before.zipIdx.filter fun row => keptAt start before row.2 := by
      apply filter_congr
      rintro ⟨line, index⟩ member
      exact keptAt_append_of_lt start [last] (by simpa using (mem_zipIdx member).2.1)
    rw [carry_append, ih, zipIdx_append, filter_append, map_append, early]
    congr 1
    simp only [Nat.zero_add, zipIdx_singleton, filter_cons, filter_nil,
      keptAt_concat, carry]
    split <;> simp_all

section

variable {start : List Char} {all : List Line} {index : Nat} {line : Line}
  (found : all[index]? = some line)

theorem leavesOpen_eq_isSome (start : List Char) (all : List Line) :
    leavesOpen all = (all.foldl (leaves start) none).isSome :=
  (isSome_foldl_leaves start none all).symm

include found

theorem keptAt_of_getElem? :
    keptAt start all index =
      decide (entryAt start ((all.take index).foldl (leaves start) none) line = some true) := by
  rw [keptAt, found, Option.any_some]

theorem foldl_take_succ :
    (all.take (index + 1)).foldl (leaves start) none =
      leaves start ((all.take index).foldl (leaves start) none) line := by
  rw [take_add_one, found, Option.toList_some, foldl_append, foldl_cons,
    foldl_nil]

theorem keptAt_succ {next : Line} (follows : all[index + 1]? = some next)
    (within : leavesOpen (all.take (index + 1))) :
    keptAt start all (index + 1) = keptAt start all index := by
  rw [leavesOpen_eq_isSome start, foldl_take_succ found] at within
  rw [keptAt_of_getElem? follows, keptAt_of_getElem? found, foldl_take_succ found]
  unfold leaves at within ⊢
  split at within
  next goesOn =>
    obtain ⟨kept, isKept⟩ := Option.isSome_iff_exists.1 within
    rw [if_pos goesOn, isKept, entryAt]
  · cases within

theorem leavesOpen_of_keptAt (kept : keptAt start all index)
    (goesOn : continues line) : leavesOpen (all.take (index + 1)) := by
  rw [keptAt_of_getElem? found, decide_eq_true_iff] at kept
  rw [leavesOpen_eq_isSome start, foldl_take_succ found, leaves, if_pos goesOn, kept,
    Option.isSome_some]

theorem isSkipped_of_keptAt (kept : keptAt start all index)
    (closed : leavesOpen (all.take index) = false) : isSkipped line = false := by
  have nothing : (all.take index).foldl (leaves start) none = none := by
    rw [leavesOpen_eq_isSome start] at closed
    simpa using closed
  rw [keptAt_of_getElem? found, nothing, entryAt, decide_eq_true_iff] at kept
  by_contra skipped
  rw [if_pos (Bool.of_not_eq_false skipped)] at kept
  cases kept

end

/-- Only whole entries are kept, and each kept one begins with a line of its own. -/
structure KeepsEntries (content : Bytes) (kept : Nat → Bool) : Prop where
  /-- A kept line that ends in an odd number of backslashes is followed by the next one. -/
  goesOn : ∀ index line, content.lines[index]? = some line → kept index = true →
    line.endsOddly = true → index + 1 < content.lines.length → kept (index + 1) = true
  /-- A line within an entry is kept exactly if the line before it is. -/
  together : ∀ index, index + 1 < content.lines.length →
    leavesOpen ((content.lines.take (index + 1)).map content.readAs) = true →
      kept (index + 1) = kept index
  /-- No comment or blank line is kept where an entry could start. -/
  starts : ∀ index line, content.lines[index]? = some line → kept index = true →
    leavesOpen ((content.lines.take index).map content.readAs) = false →
      isSkipped (content.readAs line) = false

theorem keepsEntries_keptAt (content : Bytes) (start : List Char) :
    KeepsEntries content (keptAt start (content.lines.map content.readAs)) := by
  have read : ∀ {index line}, content.lines[index]? = some line →
      (content.lines.map content.readAs)[index]? = some (content.readAs line) :=
    fun found => by rw [getElem?_map, found, Option.map_some]
  have together : ∀ index, index + 1 < content.lines.length →
      leavesOpen ((content.lines.take (index + 1)).map content.readAs) →
        keptAt start (content.lines.map content.readAs) (index + 1) =
          keptAt start (content.lines.map content.readAs) index := by
    intro index inside within
    rw [map_take] at within
    exact keptAt_succ (read (getElem?_eq_getElem (Nat.lt_of_succ_lt inside)))
      (read (getElem?_eq_getElem inside)) within
  refine ⟨fun index line found kept odd inside => ?_, together,
    fun index line found kept closed => ?_⟩
  · rw [Bytes.endsOddly_eq_continues (mem_of_getElem? found)] at odd
    rw [together index inside, kept]
    rw [map_take]
    exact leavesOpen_of_keptAt (read found) kept odd
  · rw [map_take] at closed
    exact isSkipped_of_keptAt (read found) kept closed

theorem filterBytes_eq_lines (content : Bytes) (start : String) :
    filterBytes content start =
      (content.lines.zipIdx.filter fun row =>
        keptAt start.toList (content.lines.map content.readAs) row.2).flatMap fun row =>
          row.1 ++ [0x0A] := by
  have feed : content.encodingOf '\n' = [0x0A] := by
    unfold Bytes.encodingOf
    split <;> rfl
  rw [content.written.filtered, filterChars, ← content.map_readAs_lines, select_eq_filter_zipIdx,
    zipIdx_map, filter_map, map_map, flatMap_map, flatMap_assoc]
  apply flatMap_congr
  intro row member
  have isLine : row.1 ∈ content.lines :=
    fst_mem_of_mem_zipIdx (mem_of_mem_filter member)
  simp [feed, Bytes.flatMap_readAs isLine]

/-! ## Filtering again -/

def ReturnsEndLines (chars : List Char) : Prop :=
  (chars.IsChain fun char next => char = '\r' → next = '\n') ∧ chars.getLast? ≠ some '\r'

instance (chars : List Char) : Decidable (ReturnsEndLines chars) :=
  inferInstanceAs (Decidable (_ ∧ _))

theorem dropReturn_subset (line : Line) : dropReturn line ⊆ line := by
  unfold dropReturn
  split
  · exact dropLast_subset line
  · exact List.Subset.refl line

namespace ReturnsEndLines

variable {before after line rest : List Char}

theorem eq_nil (ends : ReturnsEndLines (before ++ '\r' :: after ++ rest))
    (oneLine : '\n' ∉ after) : after = [] := by
  cases after with
  | nil => rfl
  | cons next after =>
    have chain := ends.1
    rw [append_assoc, cons_append, cons_append,
      isChain_append_cons_cons] at chain
    rw [chain.2.1 rfl] at oneLine
    simp at oneLine

theorem notMem_dropReturn (ends : ReturnsEndLines (line ++ rest)) (oneLine : '\n' ∉ line) :
    '\r' ∉ dropReturn line := by
  by_cases returns : '\r' ∈ line
  · obtain ⟨before, after, rfl, apart⟩ := eq_append_cons_of_mem returns
    have nothing : after = [] := ends.eq_nil fun member => oneLine (by simp [member])
    rw [nothing, dropReturn, if_pos (by simp), dropLast_concat]
    exact apart
  · exact fun member => returns (dropReturn_subset line member)

theorem notMem (ends : ReturnsEndLines line) (oneLine : '\n' ∉ line) : '\r' ∉ line := by
  intro returns
  obtain ⟨before, after, rfl, -⟩ := eq_append_cons_of_mem returns
  rw [← append_nil (before ++ _)] at ends
  have nothing : after = [] := ends.eq_nil fun member => oneLine (by simp [member])
  exact ends.2 (by simp [nothing])

theorem tail (ends : ReturnsEndLines (before ++ '\n' :: rest)) : ReturnsEndLines rest := by
  refine ⟨((isChain_append.1 ends.1).2.1).tail, fun isLast => ends.2 ?_⟩
  rw [getLast?_append, getLast?_cons, isLast]
  rfl

end ReturnsEndLines

theorem notMem_of_mem_lines {chars : List Char} (ends : ReturnsEndLines chars) :
    ∀ line ∈ lines chars, '\n' ∉ line ∧ '\r' ∉ line := by
  -- The first line is cut off, and what is behind it is shorter.
  induction size : chars.length using Nat.strong_induction_on generalizing chars with
  | _ bound ih =>
    by_cases goesOn : '\n' ∈ chars
    · obtain ⟨before, rest, rfl, oneLine⟩ := eq_append_cons_of_mem goesOn
      have shorter : rest.length < bound := by
        rw [length_append, length_cons] at size
        omega
      rw [lines_append_lineFeed, splitOn_eq_singleton oneLine, map_singleton,
        singleton_append, forall_mem_cons]
      exact ⟨⟨fun member => oneLine (dropReturn_subset before member),
        ends.notMem_dropReturn oneLine⟩, ih rest.length shorter ends.tail rfl⟩
    · intro line member
      exact ⟨fun inside => goesOn (mem_of_mem_lines member inside),
        fun inside => ends.notMem goesOn (mem_of_mem_lines member inside)⟩

theorem lines_flatMap_lineFeed {all : List Line}
    (plain : ∀ line ∈ all, '\n' ∉ line ∧ '\r' ∉ line) :
    lines (all.flatMap fun line => line ++ ['\n']) = all := by
  induction all with
  | nil => rfl
  | cons line rest ih =>
    obtain ⟨⟨noFeed, noReturn⟩, later⟩ := forall_mem_cons.1 plain
    have kept : dropReturn line = line := if_neg fun isLast =>
      noReturn (mem_of_getLast? isLast)
    rw [flatMap_cons, append_assoc, singleton_append, lines_append_lineFeed,
      splitOn_eq_singleton noFeed, map_singleton, kept, ih later,
      singleton_append]

/-- Entries that are kept are read back as they are: only the last entry of a file may lack its
end, and then it is the last one that is kept. -/
theorem Reads.kept {all : List Line} {entries : List Entry} (reads : Reads all entries)
    (keep : Entry → Bool) :
    Reads ((entries.filter keep).flatMap Entry.lines) (entries.filter keep) := by
  induction reads with
  | nil => exact .nil
  | skip _ _ ih => exact ih
  | @read entry rest entries ends later ih =>
    rw [filter_cons]
    split
    · rw [flatMap_cons]
      refine .read (ends.imp_right ?_) ih
      rintro rfl
      rw [later.unique .nil]
      rfl
    · exact ih

theorem select_select (start more : List Char) (all : List Line) :
    select (start ++ more) (select start all) = select (start ++ more) all := by
  obtain ⟨entries, reads⟩ := exists_reads all
  rw [reads.select_eq start, (reads.kept _).select_eq, reads.select_eq, filter_filter]
  congr 1
  apply filter_congr
  intro entry _
  rw [Bool.eq_iff_iff, Bool.and_eq_true, isPrefixOf_iff_prefix, isPrefixOf_iff_prefix]
  exact and_iff_left_of_imp (prefix_append start more).trans

theorem filterChars_filterChars {chars : List Char} (ends : ReturnsEndLines chars)
    (start more : List Char) :
    filterChars (start ++ more) (filterChars start chars) = filterChars (start ++ more) chars := by
  have plain : ∀ line ∈ select start (lines chars), '\n' ∉ line ∧ '\r' ∉ line :=
    fun line member => notMem_of_mem_lines ends line ((select_sublist start _).subset member)
  unfold filterChars
  rw [lines_flatMap_lineFeed plain, select_select]

/-- The filter selects whole entries and nothing else.  For every file, in whichever encoding it is
read, the output are lines of the file at kept positions, byte for byte and each closed by a line
feed.  Entries are kept whole, and no comment or blank line is kept where an entry could start.  In
a text whose carriage returns end lines, filtering for one beginning of a key and then for a longer
one is filtering for the longer one, so that filtering twice is filtering once. -/
theorem filter_selects_entries :
    (∀ (content : Bytes) (start : String), ∃ kept : Nat → Bool,
      filterBytes content start =
          (content.lines.zipIdx.filter fun row => kept row.2).flatMap (fun row =>
            row.1 ++ [0x0A]) ∧
        KeepsEntries content kept ∧
        (¬ content.IsText → ∀ char ∈ filterChars start.toList content.latinChars,
          char.toNat < 256)) ∧
    (∀ content start more : String, ReturnsEndLines content.toList →
      filter (filter content start) (start ++ more) = filter content (start ++ more)) ∧
    ∀ content start : String, ReturnsEndLines content.toList →
      filter (filter content start) start = filter content start := by
  have again : ∀ content start more : String, ReturnsEndLines content.toList →
      filter (filter content start) (start ++ more) = filter content (start ++ more) := by
    intro content start more ends
    simp only [filter, String.toList_ofList, String.toList_append, filterChars_filterChars ends]
  refine ⟨fun content start => ⟨_, filterBytes_eq_lines content start,
    keepsEntries_keptAt content start.toList, fun _ char member => ?_⟩, again,
    fun content start ends => ?_⟩
  · rcases mem_of_mem_filterChars member with rfl | inContent
    · decide
    · exact Bytes.toNat_lt_of_mem_latinChars inContent
  · have twice := again content start "" ends
    rwa [String.append_empty] at twice

/-- A continued entry whose second line looks like a comment, an entry that breaks off at the end
of the text, and a file that is no UTF-8. -/
theorem filter_selects_entries_continued :
    filter "a.x=1\\\r\n# 2\r\n\r\nb=3\r\na.y=4\\" "a." = "a.x=1\\\n# 2\na.y=4\\\n" ∧
      filter (filter "a.x=1\\\r\n# 2\r\n\r\nb=3\r\na.y=4\\" "a.") ("a." ++ "y") =
        filter "a.x=1\\\r\n# 2\r\n\r\nb=3\r\na.y=4\\" ("a." ++ "y") ∧
      ¬ Bytes.IsText [0x61, 0x3D, 0xE4, 0x0A] ∧
      ∀ char ∈ filterChars "a".toList (Bytes.latinChars [0x61, 0x3D, 0xE4, 0x0A]),
        char.toNat < 256 := by
  obtain ⟨kept, -, -, latin⟩ := filter_selects_entries.1 [0x61, 0x3D, 0xE4, 0x0A] "a"
  refine ⟨by decide +kernel, filter_selects_entries.2.1 _ _ _ (by decide),
    by decide, latin (by decide)⟩

end Properties

end OpsContent
