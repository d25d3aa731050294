import Mathlib.Tactic.IntervalCases
import OpsContent.Json.Draft
import OpsContent.Json.Writer

/-!
# Reading what was written

A JSON value whose numbers are whole and fit a word, and which is not nested too deep, is read back
from the text that it is written to.  The text is cut into the tokens of the value, whatever the
spaces between them, and the tokens are read as the value.
-/

namespace OpsContent

open List JsonDraft

namespace JsonToken

variable {number : Nat}
variable {fuel depth limit : Nat} {key : String} {rest : List Char} {char : Char}

/-! ## Numbers -/

/-- No number goes on here. -/
def Stops (rest : List Char) : Prop :=
  ∀ char ∈ rest.head?, char.isDigit = false ∧ char ≠ '.' ∧ char ≠ 'e' ∧ char ≠ 'E'

theorem digitValue_digitChar {digit : Nat} (small : digit < 10) :
    digitValue (Nat.digitChar digit) = digit ∧ (Nat.digitChar digit).isDigit := by
  interval_cases digit <;> decide

theorem absorb_append {word value : Nat} {digits : List Char}
    (first : absorb word digits = (value, [])) (more : List Char) :
    absorb word (digits ++ more) = absorb value more := by
  induction digits generalizing word with
  | nil =>
    cases first
    rfl
  | cons digit rest ih =>
    rw [absorb] at first
    rw [cons_append, absorb]
    split at first
    next fits =>
      rw [if_pos fits]
      exact ih first
    · cases first

theorem absorb_toDigits (fits : number ≤ maxWord) :
    absorb 0 (Nat.toDigits 10 number) = (number, []) := by
  induction number using Nat.strongRecOn with
  | ind number ih =>
    by_cases small : number < 10
    · rw [Nat.toDigits_of_lt_base small, absorb, (digitValue_digitChar small).1]
      simp [absorb, fits]
    · rw [Nat.toDigits_of_base_le (by decide) (by omega),
        absorb_append (ih (number / 10) (by omega) (by omega)), absorb,
        (digitValue_digitChar (Nat.mod_lt _ (by decide))).1, Nat.div_add_mod']
      simp [absorb, fits]

theorem isDigit_of_mem_toDigits (member : char ∈ Nat.toDigits 10 number) : char.isDigit :=
  Nat.isDigit_of_mem_toDigits (by decide) (by decide) member

theorem span_toDigits (number : Nat) (stops : Stops rest) :
    (Nat.toDigits 10 number ++ rest).takeWhile Char.isDigit = Nat.toDigits 10 number ∧
      (Nat.toDigits 10 number ++ rest).dropWhile Char.isDigit = rest := by
  have digits : ∀ char ∈ Nat.toDigits 10 number, char.isDigit :=
    fun _ => isDigit_of_mem_toDigits
  rw [takeWhile_append_of_pos digits, dropWhile_append_of_pos digits]
  cases rest with
  | nil => simp
  | cons char more =>
    have stop := (stops char (by simp)).1
    simp [stop]

theorem afterWhole_of_stops (negative : Bool) (word : Nat) (stops : Stops rest) :
    afterWhole negative word 0 rest = (.number (wholeNumber negative word), rest) := by
  unfold afterWhole
  split
  · exact absurd rfl (stops '.' (by simp)).2.1
  · exact absurd rfl (stops 'e' (by simp)).2.2.1
  · exact absurd rfl (stops 'E' (by simp)).2.2.2
  · rfl

theorem toDigits_of_pos (positive : 0 < number) :
    ∃ first more, Nat.toDigits 10 number = first :: more ∧ first ≠ '0' := by
  induction number using Nat.strongRecOn with
  | ind number ih =>
    by_cases small : number < 10
    · refine ⟨Nat.digitChar number, [], Nat.toDigits_of_lt_base small, ?_⟩
      interval_cases number <;> decide
    · obtain ⟨first, more, digits, notZero⟩ := ih (number / 10) (by omega) (by omega)
      refine ⟨first, more ++ [Nat.digitChar (number % 10)], ?_, notZero⟩
      rw [Nat.toDigits_of_base_le (by decide) (by omega), digits, cons_append]

theorem numberPart_toDigits (negative : Bool) (fits : number ≤ maxWord) (stops : Stops rest) :
    numberPart negative (Nat.toDigits 10 number ++ rest) =
      (.number (wholeNumber negative number), rest) := by
  have whole := afterWhole_of_stops negative number stops
  rcases Nat.eq_zero_or_pos number with rfl | positive
  · rw [Nat.toDigits_of_lt_base (by decide)]
    cases rest with
    | nil => exact whole
    | cons next more =>
      have notDigit := (stops next (by simp)).1
      change (if next.isDigit then _ else _) = _
      rw [if_neg (by simp [notDigit])]
      exact whole
  · obtain ⟨first, more, digits, notZero⟩ := toDigits_of_pos positive
    have isDigit : first.isDigit := isDigit_of_mem_toDigits (by rw [digits]; simp)
    obtain ⟨run, left⟩ := span_toDigits number stops
    rw [digits, cons_append] at run left ⊢
    unfold numberPart
    split
    next noChars => cases noChars
    next zero => exact absurd (List.cons.inj zero).1 notZero
    next isCons =>
      obtain ⟨rfl, rfl⟩ := List.cons.inj isCons
      rw [if_pos isDigit, run, left, ← digits]
      dsimp only
      rw [absorb_toDigits fits]
      exact whole

/-! ## Strings -/

theorem length_le_foldl_utf8Size (chars : List Char) (start : Nat) :
    start + chars.length ≤ chars.foldl (fun size char => size + char.utf8Size) start := by
  induction chars generalizing start with
  | nil => exact Nat.le_refl _
  | cons char rest ih =>
    have later := ih (start + char.utf8Size)
    have positive := char.utf8Size_pos
    rw [foldl_cons, length_cons]
    omega

theorem hexEscape_append {four : List Char} {digits : List Nat} (isFour : four.length = 4)
    (read : four.mapM hexValue? = some digits) :
    hexEscape (four ++ rest) =
      .ok (digits.foldl (fun value digit => value * 16 + digit) 0, rest) := by
  have long := length_le_foldl_utf8Size (four ++ rest) 0
  rw [length_append] at long
  unfold hexEscape
  rw [if_neg (by omega), take_left' isFour, drop_left' isFour, read]

def controlEscape (number : Nat) : List Char :=
  if number < 16 then ['0', '0', '0'] ++ Text.hexDigits number
  else ['0', '0'] ++ Text.hexDigits number

theorem unicodeEscape_controlEscape (control : number < 32) (rest : List Char) :
    unicodeEscape (controlEscape number ++ rest) = .ok (Char.ofNat number, rest) := by
  have four : (controlEscape number).length = 4 ∧
      (controlEscape number).mapM hexValue? = some [0, 0, number / 16, number % 16] := by
    interval_cases number <;> decide
  have value : [0, 0, number / 16, number % 16].foldl (fun value digit => value * 16 + digit) 0 =
      number := by
    simp only [foldl_cons, foldl_nil]
    omega
  unfold unicodeEscape
  rw [hexEscape_append four.1 four.2, value]
  change (if _ then _ else _) = _
  rw [if_neg (by omega), if_neg (by omega)]
  rfl

theorem stringPart_escapedChar (fuel : Nat) (read : List Char) (char : Char) (chars : List Char) :
    stringPart (fuel + 1) read (Json.escapedChar char ++ chars) =
      stringPart fuel (char :: read) chars := by
  have ofNumber : ∀ number, char.toNat = number → char = Char.ofNat number := by
    rintro _ rfl
    exact char.ofNat_toNat.symm
  by_cases quote : char = '"'
  · subst quote
    rfl
  by_cases backslash : char = '\\'
  · subst backslash
    rfl
  by_cases lineFeed : char = '\n'
  · subst lineFeed
    rfl
  by_cases carriage : char = '\r'
  · subst carriage
    rfl
  by_cases tab : char = '\t'
  · subst tab
    rfl
  by_cases backspace : char.toNat = 8
  · rw [ofNumber 8 backspace]
    rfl
  by_cases formFeed : char.toNat = 12
  · rw [ofNumber 12 formFeed]
    rfl
  simp only [Json.escapedChar, quote, backslash, lineFeed, carriage, tab, backspace, formFeed,
    if_false]
  by_cases control : char.toNat < 32
  · have escape := unicodeEscape_controlEscape control chars
    have written : (if char.toNat < 16 then
          ['\\', 'u', '0', '0', '0'] ++ Text.hexDigits char.toNat
        else if char.toNat < 32 then ['\\', 'u', '0', '0'] ++ Text.hexDigits char.toNat
        else [char]) = '\\' :: 'u' :: controlEscape char.toNat := by
      rw [if_pos control, controlEscape]
      split <;> rfl
    rw [Char.ofNat_toNat] at escape
    rw [written]
    rw [cons_append, cons_append, stringPart, if_neg (by decide), if_pos rfl, if_pos rfl,
      escape]
  · rw [if_neg (by omega), if_neg control]
    simp [stringPart, quote, backslash, control]

theorem stringPart_flatMap {text : List Char} (enough : text.length < fuel)
    (read rest : List Char) :
    stringPart fuel read (text.flatMap Json.escapedChar ++ '"' :: rest) =
      (.string (String.ofList (read.reverse ++ text)), rest) := by
  induction text generalizing fuel read with
  | nil =>
    obtain ⟨less, rfl⟩ := Nat.exists_eq_add_one_of_ne_zero (Nat.ne_zero_of_lt enough)
    simp [stringPart]
  | cons char more ih =>
    obtain ⟨less, rfl⟩ := Nat.exists_eq_add_one_of_ne_zero (Nat.ne_zero_of_lt enough)
    rw [flatMap_cons, append_assoc, stringPart_escapedChar,
      ih (by simpa using enough)]
    simp

theorem length_le_flatMap_escapedChar (text : List Char) :
    text.length ≤ (text.flatMap Json.escapedChar).length := by
  induction text with
  | nil => exact Nat.le_refl 0
  | cons char rest ih =>
    have positive : 0 < (Json.escapedChar char).length := by
      unfold Json.escapedChar
      repeat' split
      all_goals simp
    rw [flatMap_cons, length_append, length_cons]
    omega

/-! ## Texts -/

/-- The characters are cut into the tokens, whatever follows. -/
def Scanned (chars rest : List Char) (tokens : List JsonToken) : Prop :=
  ∃ steps ≤ chars.length, ∀ fuel, scanAll (fuel + steps) (chars ++ rest) =
    tokens ++ scanAll fuel rest

namespace Scanned

variable {chars more rest : List Char} {tokens later : List JsonToken}

theorem nil (rest : List Char) : Scanned [] rest [] :=
  ⟨0, Nat.le_refl 0, fun _ => rfl⟩

theorem append (first : Scanned chars (more ++ rest) tokens) (second : Scanned more rest later) :
    Scanned (chars ++ more) rest (tokens ++ later) := by
  obtain ⟨steps, few, scans⟩ := first
  obtain ⟨moreSteps, fewMore, scansMore⟩ := second
  refine ⟨moreSteps + steps, by rw [length_append]; omega, fun fuel => ?_⟩
  rw [append_assoc, ← Nat.add_assoc, scans, scansMore, append_assoc]

theorem space (isSpace : JsonToken.isSpace char) (rest : List Char) :
    Scanned [char] rest [] := by
  refine ⟨1, Nat.le_refl 1, fun fuel => ?_⟩
  rw [singleton_append, scanAll, if_pos isSpace]
  rfl

theorem token {first : Char} {token : JsonToken} (notSpace : JsonToken.isSpace first = false)
    (wellFormed : token.isMalformed = false)
    (scanned : scan first (chars ++ rest) = (token, rest)) :
    Scanned (first :: chars) rest [token] := by
  refine ⟨1, by simp, fun fuel => ?_⟩
  rw [cons_append, scanAll, if_neg (by simp [notSpace]), scanned]
  simp [wellFormed]

theorem lineBreak (level : Nat) (rest : List Char) : Scanned (Json.lineBreak level) rest [] := by
  have spaces : ∀ number, Scanned (List.replicate number ' ') rest [] := by
    intro number
    induction number with
    | zero => exact nil rest
    | succ number ih => exact (space (by decide) _).append ih
  exact (space (by decide) _).append (spaces (2 * level))

/-- A text is read back as it is. -/
theorem string (text : String) (rest : List Char) :
    Scanned (Json.writeString text) rest [.string text] := by
  refine token (by decide) rfl ?_
  have enough := length_le_flatMap_escapedChar text.toList
  change scan '"' (text.toList.flatMap Json.escapedChar ++ ['"'] ++ rest) = _
  rw [append_assoc, singleton_append]
  refine (stringPart_flatMap (by simp only [length_append, length_cons]; omega) []
    rest).trans ?_
  simp

end Scanned

theorem scan_of_isDigit {first : Char} (isDigit : first.isDigit) (rest : List Char) :
    isSpace first = false ∧ scan first rest = numberPart false (first :: rest) := by
  have digit : ∀ other : Char, other.isDigit = false → first ≠ other := by
    rintro _ notDigit rfl
    rw [isDigit] at notDigit
    cases notDigit
  refine ⟨?_, ?_⟩
  · simp [isSpace, digit ' ' rfl, digit '\n' rfl, digit '\t' rfl, digit '\r' rfl]
  · simp [scan, isDigit, digit '\x7b' rfl, digit '\x7d' rfl, digit '[' rfl, digit ']' rfl,
      digit ',' rfl, digit ':' rfl, digit '"' rfl, digit 'n' rfl, digit 't' rfl, digit 'f' rfl,
      digit '-' rfl]

theorem Scanned.integer {value : Int} (low : -(2 ^ 63) ≤ value) (high : value < 2 ^ 64)
    (stops : Stops rest) :
    Scanned (Json.writeNumber (.integer value)) rest [.number (.integer value)] := by
  cases value with
  | ofNat number =>
    have written : Json.writeNumber (.integer (Int.ofNat number)) = Nat.toDigits 10 number := by
      change (Nat.repr number).toList = _
      simp
    have fits : number ≤ maxWord := by
      have small : (number : Int) < 2 ^ 64 := high
      unfold maxWord
      omega
    obtain ⟨first, more, digits⟩ := exists_cons_of_ne_nil
      (Nat.toDigits_ne_nil : Nat.toDigits 10 number ≠ [])
    have isDigit : first.isDigit := isDigit_of_mem_toDigits (by rw [digits]; simp)
    obtain ⟨notSpace, isNumber⟩ := scan_of_isDigit isDigit (more ++ rest)
    rw [written, digits]
    refine Scanned.token notSpace rfl (isNumber.trans ?_)
    rw [← cons_append, ← digits]
    exact numberPart_toDigits false fits stops
  | negSucc number =>
    have written : Json.writeNumber (.integer (Int.negSucc number)) =
        '-' :: Nat.toDigits 10 (number + 1) := by
      change ("-" ++ Nat.repr (number + 1)).toList = _
      simp
    have isWhole : wholeNumber true (number + 1) = .integer (Int.negSucc number) := by
      unfold wholeNumber
      rw [if_neg (by simp), if_neg (by omega)]
      rfl
    rw [written, ← isWhole]
    exact Scanned.token (by decide) rfl
      (numberPart_toDigits true (by unfold maxWord; omega) stops)

end JsonToken

namespace Table

variable {α : Type}

instance (table : Table α) : Decidable table.Sorted :=
  inferInstanceAs (Decidable (List.Pairwise _ table))

theorem insert_of_above {table : Table α} {value : α} (above : ∀ entry ∈ table, entry.1 < key) :
    table.insert key value = table ++ [(key, value)] := by
  induction table with
  | nil => rfl
  | cons entry rest ih =>
    have below : entry.1 < key := above entry mem_cons_self
    have notBefore : ¬ key < entry.1 := fun before =>
      String.lt_irrefl _ (String.lt_trans below before)
    have different : key ≠ entry.1 := fun same => String.lt_irrefl key (same ▸ below)
    rw [insert, if_neg notBefore, if_neg different,
      ih fun other member => above other (mem_cons_of_mem _ member)]
    rfl

theorem Sorted.ofList_eq {entries : Table α} (sorted : entries.Sorted) :
    ofList entries = entries := by
  suffices general : ∀ start : Table α, Sorted (start ++ entries) →
      entries.foldl (fun table entry => Table.insert entry.1 entry.2 table) start =
        start ++ entries from
    general [] sorted
  clear sorted
  induction entries with
  | nil => simp
  | cons entry rest ih =>
    intro start sorted
    have above : ∀ other ∈ start, other.1 < entry.1 := fun other member =>
      (pairwise_append.1 sorted).2.2 other member entry mem_cons_self
    rw [foldl_cons, insert_of_above above,
      ih (start ++ [(entry.1, entry.2)]) (by simpa using sorted)]
    simp

end Table

namespace Json

open JsonToken

variable {first : JsonToken} {more : List JsonToken} {value : Json}

/-! ## Values -/

mutual

/-- Is the value nested at most so deep, with whole numbers that fit a word and with tables for
objects? -/
def isExact : Nat → Json → Bool
  | _, .null => true
  | _, .bool _ => true
  | _, .number (.integer value) => decide (-(2 ^ 63) ≤ value ∧ value < 2 ^ 64)
  | _, .number (.double _) => false
  | _, .string _ => true
  | 0, .array _ => false
  | 0, .object _ => false
  | depth + 1, .array items => exactItems depth items
  | depth + 1, .object fields => decide (Table.Sorted fields) && exactFields depth fields

def exactItems (depth : Nat) : List Json → Bool
  | [] => true
  | item :: rest => isExact depth item && exactItems depth rest

def exactFields (depth : Nat) : List (String × Json) → Bool
  | [] => true
  | (_, value) :: rest => isExact depth value && exactFields depth rest

end

mutual

/-- The tokens of a value. -/
def tokens : Json → List JsonToken
  | .null => [.null]
  | .bool value => [.bool value]
  | .number value => [.number value]
  | .string value => [.string value]
  | .array items => .openBracket :: itemTokens items ++ [.closeBracket]
  | .object fields => .openBrace :: fieldTokens fields ++ [.closeBrace]

def itemTokens : List Json → List JsonToken
  | [] => []
  | [item] => tokens item
  | item :: rest => tokens item ++ .comma :: itemTokens rest

/-- The tokens of fields with commas between them. -/
def fieldTokens : List (String × Json) → List JsonToken
  | [] => []
  | [(key, value)] => .string key :: .colon :: tokens value
  | (key, value) :: rest => .string key :: .colon :: tokens value ++ .comma :: fieldTokens rest

end

/-! ## Cutting a text into the tokens of a value -/

/-- The character is a token of its own. -/
structure Marks (mark : Char) (token : JsonToken) : Prop where
  notSpace : JsonToken.isSpace mark = false
  wellFormed : token.isMalformed = false
  scanned : ∀ rest, scan mark rest = (token, rest)

theorem Marks.scanned_singleton {mark : Char} {token : JsonToken} (marks : Marks mark token)
    (rest : List Char) : Scanned [mark] rest [token] :=
  Scanned.token marks.notSpace marks.wellFormed (marks.scanned rest)

theorem marks_openBracket : Marks '[' .openBracket := ⟨by decide, rfl, fun _ => rfl⟩

theorem marks_closeBracket : Marks ']' .closeBracket := ⟨by decide, rfl, fun _ => rfl⟩

theorem marks_openBrace : Marks '\x7b' .openBrace := ⟨by decide, rfl, fun _ => rfl⟩

theorem marks_closeBrace : Marks '\x7d' .closeBrace := ⟨by decide, rfl, fun _ => rfl⟩

theorem marks_comma : Marks ',' .comma := ⟨by decide, rfl, fun _ => rfl⟩

theorem marks_colon : Marks ':' .colon := ⟨by decide, rfl, fun _ => rfl⟩

theorem Marks.scanned_enclosed {left right : Char} {opening closing : JsonToken}
    (opens : Marks left opening) (closes : Marks right closing) {level : Nat}
    {body rest : List Char} {within : List JsonToken}
    (scanned : Scanned body (lineBreak level ++ [right] ++ rest) within) :
    Scanned (left :: body ++ lineBreak level ++ [right]) rest (opening :: within ++ [closing]) := by
  have closed := (Scanned.lineBreak level _).append (closes.scanned_singleton rest)
  have whole := (opens.scanned_singleton _).append (scanned.append closed)
  simpa using whole

theorem scanned_key (key : String) (rest : List Char) :
    Scanned (writeString key ++ [':', ' ']) rest [.string key, .colon] :=
  (Scanned.string key _).append
    ((marks_colon.scanned_singleton _).append (Scanned.space (by decide) rest))

theorem stops_comma (rest : List Char) : Stops (',' :: rest) := by
  intro char isHead
  cases isHead
  decide

theorem stops_lineBreak (level : Nat) (rest : List Char) : Stops (lineBreak level ++ rest) := by
  intro char isHead
  cases isHead
  decide

theorem stops_closing (level : Nat) (mark : Char) (rest : List Char) :
    Stops (lineBreak level ++ [mark] ++ rest) := by
  rw [append_assoc]
  exact stops_lineBreak level _

-- The text behind a value matters only where the value is a number.
mutual

theorem scanned_prettyChars (level : Nat) {rest : List Char} (stops : Stops rest) :
    (value : Json) → value.isExact depth →
      Scanned (prettyChars level value) rest value.tokens
  | .null, _ => Scanned.token (by decide) rfl rfl
  | .bool true, _ => Scanned.token (by decide) rfl rfl
  | .bool false, _ => Scanned.token (by decide) rfl rfl
  | .number (.integer value), exact => by
      obtain ⟨low, high⟩ := of_decide_eq_true exact
      exact Scanned.integer low high stops
  | .string text, _ => Scanned.string text rest
  | .array [], _ =>
    (marks_openBracket.scanned_singleton _).append (marks_closeBracket.scanned_singleton rest)
  | .array (item :: items), exact => by
      cases depth with
      | zero => cases exact
      | succ depth =>
        exact marks_openBracket.scanned_enclosed marks_closeBracket
          (scanned_prettyItems (level + 1) (stops_closing level _ rest) (item :: items) exact)
  | .object [], _ =>
    (marks_openBrace.scanned_singleton _).append (marks_closeBrace.scanned_singleton rest)
  | .object (field :: fields), exact => by
      cases depth with
      | zero => cases exact
      | succ depth =>
        rw [isExact, Bool.and_eq_true] at exact
        exact marks_openBrace.scanned_enclosed marks_closeBrace
          (scanned_prettyFields (level + 1) (stops_closing level _ rest) (field :: fields)
            exact.2)

theorem scanned_prettyItems (level : Nat) {rest : List Char} (stops : Stops rest) :
    (items : List Json) → exactItems depth items →
      Scanned (prettyItems level items) rest (itemTokens items)
  | [], _ => Scanned.nil rest
  | [item], exact => by
      rw [exactItems, Bool.and_eq_true] at exact
      exact (Scanned.lineBreak level _).append (scanned_prettyChars level stops item exact.1)
  | item :: next :: items, exact => by
      rw [exactItems, Bool.and_eq_true] at exact
      have later := (marks_comma.scanned_singleton _).append
        (scanned_prettyItems level stops (next :: items) exact.2)
      have first := scanned_prettyChars level
        (stops_comma (prettyItems level (next :: items) ++ rest)) item exact.1
      exact ((Scanned.lineBreak level _).append first).append later

theorem scanned_prettyFields (level : Nat) {rest : List Char} (stops : Stops rest) :
    (fields : List (String × Json)) → exactFields depth fields →
      Scanned (prettyFields level fields) rest (fieldTokens fields)
  | [], _ => Scanned.nil rest
  | [(key, value)], exact => by
      rw [exactFields, Bool.and_eq_true] at exact
      have held := (scanned_key key _).append (scanned_prettyChars level stops value exact.1)
      simpa [prettyFields, fieldTokens] using (Scanned.lineBreak level _).append held
  | (key, value) :: next :: fields, exact => by
      rw [exactFields, Bool.and_eq_true] at exact
      have later := (marks_comma.scanned_singleton _).append
        (scanned_prettyFields level stops (next :: fields) exact.2)
      have held := (scanned_key key _).append (scanned_prettyChars level
        (stops_comma (prettyFields level (next :: fields) ++ rest)) value exact.1)
      simpa [prettyFields, fieldTokens] using
        ((Scanned.lineBreak level _).append held).append later

end

theorem ofText_pretty (exact : value.isExact depth) :
    JsonToken.ofText value.pretty = value.tokens := by
  have stops : Stops [] := fun char isHead => by cases isHead
  obtain ⟨steps, few, scans⟩ := scanned_prettyChars 0 stops value exact
  have enough : (prettyChars 0 value).length + 1 =
      (prettyChars 0 value).length - steps + 1 + steps := by omega
  have scanned := scans ((prettyChars 0 value).length - steps + 1)
  rw [← enough, append_nil, scanAll, append_nil] at scanned
  rw [JsonToken.ofText, pretty, String.toList_ofList, scanned]

/-! ## Reading the tokens of a value -/

theorem tokens_eq_cons (value : Json) : ∃ first more, value.tokens = first :: more ∧
    first ≠ .closeBracket ∧ first ≠ .closeBrace := by
  cases value <;> exact ⟨_, _, rfl, nofun, nofun⟩

theorem itemTokens_eq_cons (item : Json) (items : List Json) :
    ∃ first more, itemTokens (item :: items) = first :: more ∧ first ≠ .closeBracket := by
  obtain ⟨first, more, isTokens, notBracket, -⟩ := item.tokens_eq_cons
  cases items with
  | nil => exact ⟨first, more, isTokens, notBracket⟩
  | cons next items =>
    refine ⟨first, more ++ .comma :: itemTokens (next :: items), ?_, notBracket⟩
    rw [itemTokens, isTokens, cons_append]
    nofun

theorem fieldTokens_eq_cons (key : String) (value : Json) (fields : List (String × Json)) :
    ∃ more, fieldTokens ((key, value) :: fields) = .string key :: more := by
  cases fields <;> exact ⟨_, rfl⟩

theorem readItems_first (notBracket : first ≠ .closeBracket) :
    readItems (fuel + 1) limit true (first :: more) =
      readItem fuel limit (first :: more) := by
  unfold readItems
  cases first <;> first | rfl | exact absurd rfl notBracket

theorem readItems_next (notBracket : first ≠ .closeBracket) :
    readItems (fuel + 1) limit false (.comma :: first :: more) =
      readItem fuel limit (first :: more) := by
  unfold readItems
  cases first <;> first | rfl | exact absurd rfl notBracket

theorem readFields_first :
    readFields (fuel + 1) limit true (.string key :: more) =
      readField fuel limit (.string key :: more) := by
  unfold readFields
  rfl

theorem readFields_next :
    readFields (fuel + 1) limit false (.comma :: .string key :: more) =
      readField fuel limit (.string key :: more) := by
  unfold readFields
  rfl

-- Every token takes at most three steps: the list around an item, the item, and its value.
mutual

/-- Values are read back from their tokens. -/
theorem readValue_tokens (deep : depth < limit) (rest : List JsonToken) :
    (value : Json) → value.isExact depth → 3 * value.tokens.length < fuel →
      JsonDraft.readValue fuel limit (value.tokens ++ rest) = (JsonDraft.ofJson value, rest)
  | value, exact, enough => by
      obtain ⟨fuel, rfl⟩ : ∃ less, fuel = less + 1 := ⟨fuel - 1, by omega⟩
      unfold JsonDraft.readValue
      match value, exact with
      | .null, _ => rfl
      | .bool _, _ => rfl
      | .number _, _ => rfl
      | .string _, _ => rfl
      | .array items, exact =>
        have long : (array items).tokens.length = (itemTokens items).length + 2 := by
          simp [tokens]
        cases depth with
        | zero => cases exact
        | succ depth =>
          have read : JsonDraft.readItems fuel (limit - 1) true
              (itemTokens items ++ .closeBracket :: rest) =
                (JsonDraft.ofItems items, none, rest) :=
            readItems_itemTokens (by omega) rest items exact (by omega)
          have whole : (array items).tokens ++ rest =
              .openBracket :: (itemTokens items ++ .closeBracket :: rest) := by simp [tokens]
          rw [whole]
          dsimp only
          rw [if_neg (by omega), read]
          rfl
      | .object fields, exact =>
        have long : (object fields).tokens.length = (fieldTokens fields).length + 2 := by
          simp [tokens]
        cases depth with
        | zero => cases exact
        | succ depth =>
          rw [isExact, Bool.and_eq_true] at exact
          have read : JsonDraft.readFields fuel (limit - 1) true
              (fieldTokens fields ++ .closeBrace :: rest) =
                (JsonDraft.ofFields fields, none, rest) :=
            readFields_fieldTokens (by omega) rest fields exact.2 (by omega)
          have whole : (object fields).tokens ++ rest =
              .openBrace :: (fieldTokens fields ++ .closeBrace :: rest) := by simp [tokens]
          rw [whole]
          dsimp only
          rw [if_neg (by omega), read]
          rfl

theorem readItems_itemTokens (deep : depth < limit)
    (rest : List JsonToken) : (items : List Json) → exactItems depth items →
      3 * ((itemTokens items).length + 1) ≤ fuel →
      readItems fuel limit true (itemTokens items ++ .closeBracket :: rest) =
        (ofItems items, none, rest)
  | [], _, enough => by
      obtain ⟨fuel, rfl⟩ : ∃ less, fuel = less + 1 := ⟨fuel - 1, by omega⟩
      unfold readItems
      rfl
  | item :: items, exact, enough => by
      obtain ⟨fuel, rfl⟩ : ∃ less, fuel = less + 1 := ⟨fuel - 1, by omega⟩
      obtain ⟨first, more, isTokens, notBracket⟩ := itemTokens_eq_cons item items
      have read : readItem fuel limit
          (itemTokens (item :: items) ++ .closeBracket :: rest) =
            (ofItems (item :: items), none, rest) :=
        readItem_itemTokens deep rest item items exact (by omega)
      rw [isTokens, cons_append] at read ⊢
      rw [readItems_first notBracket, read]

theorem readItem_itemTokens (deep : depth < limit)
    (rest : List JsonToken) : (item : Json) → (items : List Json) →
      exactItems depth (item :: items) →
      3 * (itemTokens (item :: items)).length + 1 < fuel →
      readItem fuel limit (itemTokens (item :: items) ++ .closeBracket :: rest) =
        (ofItems (item :: items), none, rest)
  | item, [], exact, enough => by
      obtain ⟨fuel, rfl⟩ : ∃ less, fuel = less + 2 := ⟨fuel - 2, by omega⟩
      rw [exactItems, Bool.and_eq_true] at exact
      rw [itemTokens] at enough
      unfold readItem
      rw [itemTokens, readValue_tokens deep (.closeBracket :: rest) item exact.1 (by omega)]
      unfold readItems
      rfl
  | item, next :: items, exact, enough => by
      obtain ⟨fuel, rfl⟩ : ∃ less, fuel = less + 2 := ⟨fuel - 2, by omega⟩
      rw [exactItems, Bool.and_eq_true] at exact
      have whole : itemTokens (item :: next :: items) =
          item.tokens ++ .comma :: itemTokens (next :: items) := rfl
      have long := congrArg List.length whole
      rw [length_append, length_cons] at long
      have later : readItem fuel limit
          (itemTokens (next :: items) ++ .closeBracket :: rest) =
            (ofItems (next :: items), none, rest) :=
        readItem_itemTokens deep rest next items exact.2 (by omega)
      obtain ⟨first, more, isTokens, notBracket⟩ := itemTokens_eq_cons next items
      unfold readItem
      rw [whole, append_assoc, readValue_tokens deep _ item exact.1 (by omega)]
      rw [isTokens, cons_append] at later ⊢
      dsimp only [cons_append]
      rw [readItems_next notBracket, later]
      rfl

theorem readFields_fieldTokens (deep : depth < limit)
    (rest : List JsonToken) : (fields : List (String × Json)) → exactFields depth fields →
      3 * ((fieldTokens fields).length + 1) ≤ fuel →
      JsonDraft.readFields fuel limit true (fieldTokens fields ++ .closeBrace :: rest) =
        (JsonDraft.ofFields fields, none, rest)
  | [], _, enough => by
      obtain ⟨fuel, rfl⟩ : ∃ less, fuel = less + 1 := ⟨fuel - 1, by omega⟩
      unfold JsonDraft.readFields
      rfl
  | (key, value) :: fields, exact, enough => by
      obtain ⟨fuel, rfl⟩ : ∃ less, fuel = less + 1 := ⟨fuel - 1, by omega⟩
      obtain ⟨more, isTokens⟩ := fieldTokens_eq_cons key value fields
      have read : JsonDraft.readField fuel limit
          (fieldTokens ((key, value) :: fields) ++ .closeBrace :: rest) =
            (JsonDraft.ofFields ((key, value) :: fields), none, rest) :=
        readField_fieldTokens deep rest key value fields exact (by omega)
      rw [isTokens, cons_append] at read ⊢
      rw [readFields_first, read]

/-- A field is read back from its tokens. -/
theorem readField_fieldTokens (deep : depth < limit)
    (rest : List JsonToken) : (key : String) → (value : Json) → (fields : List (String × Json)) →
      exactFields depth ((key, value) :: fields) →
      3 * (fieldTokens ((key, value) :: fields)).length + 1 < fuel →
      JsonDraft.readField fuel limit
          (fieldTokens ((key, value) :: fields) ++ .closeBrace :: rest) =
        (JsonDraft.ofFields ((key, value) :: fields), none, rest)
  | key, value, [], exact, enough => by
      obtain ⟨fuel, rfl⟩ : ∃ less, fuel = less + 2 := ⟨fuel - 2, by omega⟩
      rw [exactFields, Bool.and_eq_true] at exact
      have whole : fieldTokens [(key, value)] = .string key :: .colon :: value.tokens := rfl
      have long := congrArg List.length whole
      rw [length_cons, length_cons] at long
      unfold JsonDraft.readField
      rw [whole]
      dsimp only [cons_append]
      rw [readValue_tokens deep (.closeBrace :: rest) value exact.1 (by omega)]
      unfold JsonDraft.readFields
      rfl
  | key, value, (nextKey, next) :: fields, exact, enough => by
      obtain ⟨fuel, rfl⟩ : ∃ less, fuel = less + 2 := ⟨fuel - 2, by omega⟩
      rw [exactFields, Bool.and_eq_true] at exact
      have whole : fieldTokens ((key, value) :: (nextKey, next) :: fields) =
          .string key :: .colon :: (value.tokens ++
            .comma :: fieldTokens ((nextKey, next) :: fields)) := rfl
      have long := congrArg List.length whole
      rw [length_cons, length_cons, length_append, length_cons] at long
      have later : JsonDraft.readField fuel limit
          (fieldTokens ((nextKey, next) :: fields) ++ .closeBrace :: rest) =
            (JsonDraft.ofFields ((nextKey, next) :: fields), none, rest) :=
        readField_fieldTokens deep rest nextKey next fields exact.2 (by omega)
      obtain ⟨more, isTokens⟩ := fieldTokens_eq_cons nextKey next fields
      unfold JsonDraft.readField
      rw [whole]
      dsimp only [cons_append]
      rw [append_assoc, readValue_tokens deep _ value exact.1 (by omega)]
      rw [isTokens, cons_append] at later ⊢
      dsimp only [cons_append]
      rw [readFields_next, later]
      rfl

end

mutual

theorem toJson_ofJson : (depth : Nat) → (value : Json) → value.isExact depth →
    (JsonDraft.ofJson value).toJson = .ok value
  | _, .null, _ => rfl
  | _, .bool _, _ => rfl
  | _, .number _, _ => rfl
  | _, .string _, _ => rfl
  | 0, .array _, exact => nomatch exact
  | depth + 1, .array items, exact => by
      rw [JsonDraft.ofJson, JsonDraft.toJson, itemsToJson_ofItems depth items exact]
      rfl
  | 0, .object _, exact => nomatch exact
  | depth + 1, .object fields, exact => by
      rw [isExact, Bool.and_eq_true, decide_eq_true_eq] at exact
      rw [JsonDraft.ofJson, JsonDraft.toJson, fieldsToJson_ofFields depth fields exact.2]
      change Except.ok (object (Table.ofList fields)) = .ok (object fields)
      rw [exact.1.ofList_eq]

theorem itemsToJson_ofItems : (depth : Nat) → (items : List Json) →
    exactItems depth items → JsonDraft.itemsToJson (JsonDraft.ofItems items) = .ok items
  | _, [], _ => rfl
  | depth, item :: items, exact => by
      rw [exactItems, Bool.and_eq_true] at exact
      rw [JsonDraft.ofItems, JsonDraft.itemsToJson, toJson_ofJson depth item exact.1,
        itemsToJson_ofItems depth items exact.2]
      rfl

theorem fieldsToJson_ofFields : (depth : Nat) → (fields : List (String × Json)) →
    exactFields depth fields →
      JsonDraft.fieldsToJson (JsonDraft.ofFields fields) = .ok fields
  | _, [], _ => rfl
  | depth, (key, value) :: fields, exact => by
      rw [exactFields, Bool.and_eq_true] at exact
      rw [JsonDraft.ofFields, JsonDraft.fieldsToJson, toJson_ofJson depth value exact.1,
        fieldsToJson_ofFields depth fields exact.2]
      rfl

end

theorem draft_pretty {depth : Nat} (shallow : depth < JsonDraft.depthLimit)
    (exact : value.isExact depth) :
    JsonDraft.ofText value.pretty = (JsonDraft.ofJson value, []) := by
  have all := readValue_tokens shallow [] value exact
    (show 3 * value.tokens.length < 3 * value.tokens.length + 3 by omega)
  rw [append_nil] at all
  rw [JsonDraft.ofText, ofText_pretty exact]
  exact all

/-- A value that is written out is read back. -/
theorem parse_pretty {depth : Nat} (shallow : depth < JsonDraft.depthLimit)
    (exact : value.isExact depth) : Json.parse value.pretty = .ok value := by
  rw [Json.parse, JsonDraft.readText, draft_pretty shallow exact]
  dsimp only
  rw [toJson_ofJson depth value exact]
  rfl

end Json

end OpsContent
