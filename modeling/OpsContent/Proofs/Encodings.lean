import Mathlib.Data.List.Basic
import Mathlib.Data.List.Induction
import OpsContent.Text.Bytes

/-!
# Encodings of text

The UTF-8 form of a text is put together from those of its characters, and only a line feed is
written with the byte of a line feed.  So a byte string is valid exactly if its lines are, and a
byte string of the first 128 characters reads alike in both encodings.
-/

namespace OpsContent.Bytes

open List

variable {bytes : Bytes} {char : Char} {chars : List Char} {encode : Char → Bytes}
variable {first rest : Bytes}

theorem ofText_eq_flatMap (text : String) :
    ofText text = text.toList.flatMap String.utf8EncodeChar := by
  have encoded : text.toByteArray = text.toList.utf8Encode := String.utf8Encode_toList.symm
  rw [ofText, String.toUTF8_eq_toByteArray, encoded, List.utf8Encode, toList_data_toByteArray]

@[simp] theorem ofText_append (first rest : String) :
    ofText (first ++ rest) = ofText first ++ ofText rest := by
  simp [ofText_eq_flatMap]

theorem ofText_ofList (chars : List Char) :
    ofText (String.ofList chars) = chars.flatMap String.utf8EncodeChar := by
  simp [ofText_eq_flatMap]

theorem toText?_eq_some_iff {text : String} : toText? bytes = some text ↔ bytes = ofText text := by
  constructor
  · intro read
    unfold toText? String.fromUTF8? at read
    split at read
    · cases read
      rfl
    · cases read
  · rintro rfl
    exact toText?_ofText text

/-- The bytes are the UTF-8 of a text. -/
def IsText (bytes : Bytes) : Prop :=
  ∃ text, bytes = ofText text

theorem isText_iff_isSome : IsText bytes ↔ bytes.toText?.isSome := by
  simp [IsText, Option.isSome_iff_exists, toText?_eq_some_iff]

theorem toText?_eq_none_iff : bytes.toText? = none ↔ ¬ IsText bytes := by
  simp [isText_iff_isSome]

instance (bytes : Bytes) : Decidable (IsText bytes) :=
  decidable_of_iff _ isText_iff_isSome.symm

/-! ## Single characters -/

theorem utf8EncodeChar_of_lt (low : char.toNat < 128) :
    String.utf8EncodeChar char = [UInt8.ofNat char.toNat] := by
  have bound : char.val.toNat ≤ 0x7f := by
    have same : char.val.toNat = char.toNat := rfl
    omega
  simp only [String.utf8EncodeChar, if_pos bound]
  rfl

theorem marked_of_mem_utf8EncodeChar {byte : UInt8} (high : 128 ≤ char.toNat)
    (member : byte ∈ String.utf8EncodeChar char) : 128 ≤ byte.toNat := by
  have bound : ¬ char.val.toNat ≤ 0x7f := by
    have same : char.val.toNat = char.toNat := rfl
    omega
  simp only [String.utf8EncodeChar, if_neg bound] at member
  split at member
  · simp only [mem_cons, not_mem_nil, or_false] at member
    rcases member with rfl | rfl <;> simp only [UInt8.toNat_ofNat'] <;> omega
  · split at member
    · simp only [mem_cons, not_mem_nil, or_false] at member
      rcases member with rfl | rfl | rfl <;> simp only [UInt8.toNat_ofNat'] <;> omega
    · simp only [mem_cons, not_mem_nil, or_false] at member
      rcases member with rfl | rfl | rfl | rfl <;> simp only [UInt8.toNat_ofNat'] <;> omega

/-- The character is written as its number if it is one of the first 128, and with higher bytes
otherwise. -/
structure KeepsAscii (encode : Char → Bytes) (char : Char) : Prop where
  low : char.toNat < 128 → encode char = [UInt8.ofNat char.toNat]
  notEmpty : encode char ≠ []
  high : 128 ≤ char.toNat → ∀ byte ∈ encode char, 128 ≤ byte.toNat

theorem keepsAscii_utf8 (char : Char) : KeepsAscii String.utf8EncodeChar char where
  low := utf8EncodeChar_of_lt
  notEmpty := String.utf8EncodeChar_ne_nil
  high := fun high _ => marked_of_mem_utf8EncodeChar high

theorem KeepsAscii.eq_of_mem (keeps : KeepsAscii encode char) {mark : Char}
    (isAscii : mark.toNat < 128) (member : UInt8.ofNat mark.toNat ∈ encode char) : char = mark := by
  have number : (UInt8.ofNat mark.toNat).toNat = mark.toNat := by
    rw [UInt8.toNat_ofNat', Nat.mod_eq_of_lt (by omega)]
  by_cases low : char.toNat < 128
  · rw [keeps.low low, mem_singleton] at member
    have same := congrArg UInt8.toNat member
    rw [number, UInt8.toNat_ofNat', Nat.mod_eq_of_lt (by omega)] at same
    exact Char.toNat_inj.1 same.symm
  · have high := keeps.high (by omega) _ member
    omega

/-- The last byte of a text is that of one of the first 128 characters only if the last character
is. -/
theorem getLast?_flatMap_eq_iff (keeps : ∀ char ∈ chars, KeepsAscii encode char) {mark : Char}
    (isAscii : mark.toNat < 128) : (chars.flatMap encode).getLast? = some (UInt8.ofNat mark.toNat) ↔
      chars.getLast? = some mark := by
  cases chars using List.reverseRecOn with
  | nil => simp
  | append_singleton before last =>
    have here := keeps last (by simp)
    rw [flatMap_append, flatMap_singleton,
      getLast?_append_of_ne_nil _ here.notEmpty, getLast?_concat, Option.some.injEq]
    constructor
    · intro ends
      exact here.eq_of_mem isAscii (mem_of_getLast? ends)
    · rintro rfl
      rw [here.low isAscii]
      rfl

theorem flatMap_eq_nil_iff (keeps : ∀ char ∈ chars, KeepsAscii encode char) :
    chars.flatMap encode = [] ↔ chars = [] := by
  cases chars with
  | nil => simp
  | cons char rest => simp [(keeps char (by simp)).notEmpty]

/-! ## Validity line by line -/

theorem isText_ofText (text : String) : IsText (ofText text) :=
  ⟨text, rfl⟩

@[simp] theorem isText_nil : IsText [] :=
  ⟨"", rfl⟩

theorem IsText.append (valid : IsText first) (validRest : IsText rest) :
    IsText (first ++ rest) := by
  obtain ⟨text, rfl⟩ := valid
  obtain ⟨textRest, rfl⟩ := validRest
  exact ⟨text ++ textRest, by simp⟩

theorem split_of_flatMap_eq (whole : chars.flatMap String.utf8EncodeChar = first ++ 0x0A :: rest) :
    ∃ before after : List Char, first = before.flatMap String.utf8EncodeChar ∧
      rest = after.flatMap String.utf8EncodeChar := by
  induction chars generalizing first with
  | nil => simp at whole
  | cons char more ih =>
    rw [flatMap_cons, append_eq_append_iff] at whole
    rcases whole with ⟨later, rfl, remaining⟩ | ⟨later, encoded, remaining⟩
    · obtain ⟨before, after, rfl, rfl⟩ := ih remaining
      exact ⟨char :: before, after, by simp, rfl⟩
    · cases later with
      | nil =>
        obtain ⟨before, after, -, rfl⟩ := @ih [] remaining.symm
        refine ⟨[char], after, ?_, rfl⟩
        simpa using encoded.symm
      | cons byte later =>
        obtain ⟨rfl, rfl⟩ := cons_eq_cons.1 remaining
        have isBreak : char = '\n' :=
          (keepsAscii_utf8 char).eq_of_mem (by decide : '\n'.toNat < 128) (by simp [encoded])
        subst isBreak
        have single : String.utf8EncodeChar '\n' = [0x0A] := by decide
        rw [single] at encoded
        cases first with
        | nil =>
          obtain rfl : later = [] := by simpa using encoded.symm
          exact ⟨[], more, rfl, rfl⟩
        | cons byte first => simp at encoded

theorem isText_append_lineFeed :
    IsText (first ++ 0x0A :: rest) ↔ IsText first ∧ IsText rest := by
  constructor
  · intro valid
    obtain ⟨text, whole⟩ := valid
    rw [ofText_eq_flatMap] at whole
    obtain ⟨before, after, rfl, rfl⟩ := split_of_flatMap_eq whole.symm
    rw [← ofText_ofList, ← ofText_ofList]
    exact ⟨isText_ofText _, isText_ofText _⟩
  · rintro ⟨valid, validRest⟩
    have lineFeed : IsText [0x0A] := isText_ofText "\n"
    exact valid.append (lineFeed.append validRest)

/-! ## Closed lines -/

theorem endsLine_iff : bytes.endsLine ↔ bytes = [] ∨ ∃ before, bytes = before ++ [0x0A] := by
  unfold endsLine
  cases bytes using List.reverseRecOn with
  | nil => simp
  | append_singleton before last => simp

theorem endsLine_closeLine (bytes : Bytes) : bytes.closeLine.endsLine := by
  unfold closeLine
  split
  next ends => exact ends
  · simp [endsLine]

@[simp] theorem closeLine_nil : closeLine [] = [] := rfl

theorem isText_closeLine : IsText bytes.closeLine ↔ IsText bytes := by
  unfold closeLine
  split
  · exact Iff.rfl
  · rw [isText_append_lineFeed]
    simp

theorem isText_append_of_endsLine (ends : first.endsLine) :
    IsText (first ++ rest) ↔ IsText first ∧ IsText rest := by
  rcases endsLine_iff.1 ends with rfl | ⟨before, rfl⟩
  · simp
  · rw [append_assoc, singleton_append, isText_append_lineFeed, isText_append_lineFeed]
    simp

theorem isText_flatMap_closeLine {parts : List Bytes} :
    IsText (parts.flatMap closeLine) ↔ ∀ part ∈ parts, IsText part := by
  induction parts with
  | nil => simp
  | cons part rest ih =>
    rw [flatMap_cons, isText_append_of_endsLine (endsLine_closeLine part),
      isText_closeLine, ih, forall_mem_cons]

/-! ## The first 128 characters -/

def IsAscii (bytes : Bytes) : Prop :=
  ∀ byte ∈ bytes, byte.toNat < 128

theorem toNat_ofNat_of_lt {number : Nat} (low : number < 256) :
    (Char.ofNat number).toNat = number := by
  have valid : number.isValidChar := Or.inl (by omega)
  rw [Char.ofNat, dif_pos valid]
  rfl

theorem lt_of_mem_latinChars (ascii : IsAscii bytes) (member : char ∈ bytes.latinChars) :
    char.toNat < 128 := by
  obtain ⟨byte, inBytes, rfl⟩ := mem_map.1 member
  have low := ascii byte inBytes
  rw [toNat_ofNat_of_lt (by omega)]
  exact low

theorem ofText_ofList_of_lt (low : ∀ char ∈ chars, char.toNat < 128) :
    ofText (String.ofList chars) = ofLatinChars chars := by
  rw [ofText_ofList, ofLatinChars]
  induction chars with
  | nil => rfl
  | cons char rest ih =>
    have here := low char (by simp)
    have below : char.toNat < 256 := by omega
    rw [flatMap_cons, map_cons, utf8EncodeChar_of_lt here, if_pos below,
      singleton_append, ih (forall_mem_cons.1 low).2]

theorem toText?_of_isAscii (ascii : IsAscii bytes) :
    bytes.toText? = some (String.ofList bytes.latinChars) := by
  rw [toText?_eq_some_iff, ofText_ofList_of_lt fun char => lt_of_mem_latinChars ascii,
    ofLatinChars_latinChars]

def latinByte (char : Char) : Bytes :=
  ofLatinChars [char]

theorem ofLatinChars_eq_flatMap (chars : List Char) :
    ofLatinChars chars = chars.flatMap latinByte := by
  rw [ofLatinChars, map_eq_flatMap]
  rfl

theorem keepsAscii_latin (isLatin : char.toNat < 256) : KeepsAscii latinByte char where
  low _ := by simp [latinByte, ofLatinChars, isLatin]
  notEmpty := by simp [latinByte, ofLatinChars]
  high high byte member := by
    simp only [latinByte, ofLatinChars, map_cons, map_nil, if_pos isLatin,
      mem_singleton] at member
    rw [member, UInt8.toNat_ofNat', Nat.mod_eq_of_lt isLatin]
    exact high

theorem toNat_lt_of_mem_latinChars (member : char ∈ bytes.latinChars) :
    char.toNat < 256 := by
  obtain ⟨byte, -, rfl⟩ := mem_map.1 member
  rw [toNat_ofNat_of_lt byte.toNat_lt]
  exact byte.toNat_lt

theorem latinChars_ofLatinChars (isLatin : ∀ char ∈ chars, char.toNat < 256) :
    latinChars (ofLatinChars chars) = chars := by
  rw [latinChars, ofLatinChars, map_map]
  refine (map_congr_left fun char member => ?_).trans (map_id _)
  have low := isLatin char member
  simp only [Function.comp_apply, if_pos low, UInt8.toNat_ofNat', Nat.mod_eq_of_lt low,
    Char.ofNat_toNat, id]

end OpsContent.Bytes
