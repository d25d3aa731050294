import OpsContent.Proofs.Encodings
import OpsContent.Zip.Archive

/-!
# Archives read back

What is written as an archive is read back entry by entry, names and contents, as long as the
sizes and positions fit the fields that hold them.
-/

namespace OpsContent

open List Bytes

variable {chars : List Char}

namespace Bytes

variable {number : Nat}

/-! ## Text for display -/

theorem toNat_ofNat_byte (low : number < 256) : (UInt8.ofNat number).toNat = number := by
  rw [UInt8.toNat_ofNat', Nat.mod_eq_of_lt low]

theorem leadBounds_ofNat {number : Nat} (low : number < 256) :
    leadBounds (UInt8.ofNat number) =
      if 0xC2 ≤ number ∧ number ≤ 0xDF then some (1, 0x80, 0xBF)
      else if number = 0xE0 then some (2, 0xA0, 0xBF)
      else if number = 0xED then some (2, 0x80, 0x9F)
      else if 0xE1 ≤ number ∧ number ≤ 0xEF then some (2, 0x80, 0xBF)
      else if number = 0xF0 then some (3, 0x90, 0xBF)
      else if number = 0xF4 then some (3, 0x80, 0x8F)
      else if 0xF1 ≤ number ∧ number ≤ 0xF3 then some (3, 0x80, 0xBF)
      else none := by
  simp only [leadBounds, UInt8.le_iff_toNat_le, beq_iff_eq, ← UInt8.toNat_inj,
    toNat_ofNat_byte low, Bool.and_eq_true, decide_eq_true_eq, UInt8.reduceToNat]

theorem tailBytes_ofNat {low high : UInt8} {first : Nat} {more : List Nat} (rest : Bytes)
    (atLeast : low.toNat ≤ first) (atMost : first ≤ high.toNat)
    (tails : ∀ next ∈ more, 0x80 ≤ next ∧ next ≤ 0xBF) :
    tailBytes (more.length + 1) low high ((first :: more).map UInt8.ofNat ++ rest) =
      (first :: more).map UInt8.ofNat := by
  have small : first < 256 := Nat.lt_of_le_of_lt atMost high.toNat_lt
  have here : (low ≤ UInt8.ofNat first && UInt8.ofNat first ≤ high) := by
    simp [UInt8.le_iff_toNat_le, toNat_ofNat_byte small, atLeast, atMost]
  rw [map_cons, cons_append, tailBytes, if_pos here]
  cases more with
  | nil => rfl
  | cons next more =>
    have bounds := tails next (by simp)
    rw [length_cons, tailBytes_ofNat rest (by simp; omega) (by simp; omega) fun other later =>
      tails other (mem_cons_of_mem _ later)]

theorem unmarked_iff (low : number < 256) : UInt8.ofNat number < 0x80 ↔ number < 128 := by
  rw [UInt8.lt_iff_toNat_lt, toNat_ofNat_byte low]
  rfl

/-- The first lead byte of a length, its last and that before the surrogates narrow the byte
behind them. -/
theorem lossyChars_sequence (fuel lead first : Nat) (more : List Nat) (rest : Bytes)
    (size : more.length = if lead ≤ 0xDF then 0 else if lead ≤ 0xEF then 1 else 2)
    (leads : 0xC2 ≤ lead ∧ lead ≤ 0xF4) (tails : ∀ next ∈ first :: more, 0x80 ≤ next ∧ next ≤ 0xBF)
    (narrowed : (lead = 0xE0 → 0xA0 ≤ first) ∧ (lead = 0xED → first ≤ 0x9F) ∧
      (lead = 0xF0 → 0x90 ≤ first) ∧ (lead = 0xF4 → first ≤ 0x8F))
    (code : codePoint (UInt8.ofNat lead) ((first :: more).map UInt8.ofNat) = number) :
    lossyChars (fuel + 1) (UInt8.ofNat lead :: ((first :: more).map UInt8.ofNat ++ rest)) =
      Char.ofNat number :: lossyChars fuel rest := by
  have here := tails first (by simp)
  have marked : ¬ UInt8.ofNat lead < 0x80 := by
    rw [unmarked_iff (by omega)]
    omega
  obtain ⟨low, high, bounds, atLeast, atMost⟩ : ∃ low high, leadBounds (UInt8.ofNat lead) =
      some (more.length + 1, low, high) ∧ low.toNat ≤ first ∧ first ≤ high.toNat := by
    rw [leadBounds_ofNat (by omega), size]
    split_ifs <;> first | omega | exact ⟨_, _, rfl, by simp; omega, by simp; omega⟩
  have follows := tailBytes_ofNat rest atLeast atMost fun next later =>
    tails next (mem_cons_of_mem _ later)
  rw [lossyChars, if_neg marked, bounds]
  simp only [follows, code]
  simp

theorem lossyChars_utf8EncodeChar (fuel : Nat) (char : Char) (rest : Bytes) :
    lossyChars (fuel + 1) (String.utf8EncodeChar char ++ rest) = char :: lossyChars fuel rest := by
  have whole : Char.ofNat char.toNat = char := Char.ofNat_toNat char
  have same : char.val.toNat = char.toNat := rfl
  have valid : char.toNat < 0xD800 ∨ 0xDFFF < char.toNat ∧ char.toNat < 0x110000 := char.valid
  generalize char.toNat = number at *
  unfold String.utf8EncodeChar
  simp only [same]
  rw [← whole]
  split
  · rw [singleton_append, lossyChars, if_pos ((unmarked_iff (by omega)).2 (by omega)),
      toNat_ofNat_byte (by omega)]
  split
  · apply lossyChars_sequence fuel (number / 64 % 32 + 192) (number % 64 + 128) [] <;>
      simp [codePoint] <;> omega
  split
  · apply lossyChars_sequence fuel (number / 4096 % 16 + 224) (number / 64 % 64 + 128)
      [number % 64 + 128] <;> simp [codePoint] <;> omega
  · apply lossyChars_sequence fuel (number / 262144 % 8 + 240) (number / 4096 % 64 + 128)
      [number / 64 % 64 + 128, number % 64 + 128] <;>
      simp [codePoint] <;> omega

theorem lossyChars_flatMap {fuel : Nat} (enough : chars.length ≤ fuel) :
    lossyChars fuel (chars.flatMap String.utf8EncodeChar) = chars := by
  induction chars generalizing fuel with
  | nil => cases fuel <;> rfl
  | cons char rest ih =>
    cases fuel with
    | zero => simp at enough
    | succ fuel =>
      rw [flatMap_cons, lossyChars_utf8EncodeChar, ih (by simpa using enough)]

@[simp] theorem toTextLossy_ofText (text : String) : toTextLossy (ofText text) = text := by
  have enough : text.toList.length ≤ (text.toList.flatMap String.utf8EncodeChar).length := by
    induction text.toList with
    | nil => simp
    | cons char rest ih =>
      have some := char.utf8Size_pos
      simp only [flatMap_cons, length_append, length_cons,
        String.length_utf8EncodeChar]
      omega
  rw [toTextLossy, ofText_eq_flatMap, lossyChars_flatMap enough, String.ofList_toList]

end Bytes

namespace Zip

variable {entries : List (String × Bytes)} {position : Nat}

/-! ## Deflated data -/

namespace Inflate

theorem readNat_bit (count : Nat) (bit : Bool) (bits : List Bool) :
    readNat (count + 1) (bit :: bits) =
      (readNat count bits).map fun (high, rest) => ((if bit then 1 else 0) + 2 * high, rest) := by
  rw [readNat]
  cases readNat count bits <;> rfl

/-- Eight bits are a byte, and what is read behind them is the higher part of a number. -/
theorem readNat_byteBits (count : Nat) (byte : UInt8) (bits : List Bool) :
    readNat (count + 8) (byteBits byte ++ bits) =
      (readNat count bits).map fun (high, rest) => (byte.toNat + 256 * high, rest) := by
  have digits : ∀ value, value < 256 →
      ((List.range 8).map fun index => (if value.testBit index then 1 else 0) * 2 ^ index).sum =
        value := by
    decide +kernel
  have value := digits byte.toNat byte.toNat_lt
  have eight : List.range 8 = [0, 1, 2, 3, 4, 5, 6, 7] := rfl
  simp only [eight, map_cons, map_nil, sum_cons, sum_nil] at value
  simp only [byteBits, eight, map_cons, map_nil, cons_append, nil_append, readNat_bit]
  cases readNat count bits with
  | error stop => rfl
  | ok result =>
    simp only [Except.map]
    congr 2
    omega

theorem bitsOf_cons (byte : UInt8) (bytes : Bytes) :
    bitsOf (byte :: bytes) = byteBits byte ++ bitsOf bytes :=
  flatMap_cons

theorem bitsOf_append (front rest : Bytes) : bitsOf (front ++ rest) = bitsOf front ++ bitsOf rest :=
  flatMap_append

theorem length_bitsOf (bytes : Bytes) : (bitsOf bytes).length = 8 * bytes.length := by
  simp [bitsOf, byteBits, length_flatMap, Nat.mul_comm]

theorem readNat_bitsOf (bytes : Bytes) (bits : List Bool) :
    readNat (8 * bytes.length) (bitsOf bytes ++ bits) = .ok (number bytes, bits) := by
  induction bytes with
  | nil => rfl
  | cons byte rest ih =>
    rw [bitsOf_cons, append_assoc, length_cons, Nat.mul_succ, readNat_byteBits, ih]
    rfl

theorem readBytes_bitsOf (data : Bytes) (output : Array UInt8) (bits : List Bool) :
    readBytes data.length output (bitsOf data ++ bits) = (output ++ data.toArray, .ok bits) := by
  induction data generalizing output with
  | nil => simp [readBytes, bitsOf]
  | cons byte rest ih =>
    have here : readNat 8 (byteBits byte ++ (bitsOf rest ++ bits)) =
        .ok (byte.toNat, bitsOf rest ++ bits) :=
      readNat_byteBits 0 byte (bitsOf rest ++ bits)
    rw [bitsOf_cons, append_assoc, length_cons, readBytes, here]
    dsimp only
    rw [ih]
    simp

theorem readBlocks_storedBlock (fuel : Nat) (last : Bool) {data : Bytes} (output : Array UInt8)
    (rest : Bytes) (room : data.length ≤ blockSize) :
    readBlocks (fuel + 1) output (bitsOf (storedBlock last data ++ rest)) =
      if last then (output ++ data.toArray, none)
      else readBlocks fuel (output ++ data.toArray) (bitsOf rest) := by
  have mark : byteBits (if last then 1 else 0) = last :: replicate 7 false := by
    cases last <;> decide
  have length := number_littleEndian 2 data.length (show _ < 65536 by unfold blockSize at room; omega)
  have inverse := number_littleEndian 2 (0xFFFF - data.length) (show _ < 65536 by omega)
  have readLength := readNat_bitsOf (littleEndian 2 data.length)
    (bitsOf (littleEndian 2 (0xFFFF - data.length) ++ data ++ rest))
  have readInverse := readNat_bitsOf (littleEndian 2 (0xFFFF - data.length))
    (bitsOf (data ++ rest))
  rw [length_littleEndian, length] at readLength
  rw [length_littleEndian, inverse] at readInverse
  have block : readStored output (replicate 5 false ++
      bitsOf (littleEndian 2 data.length ++ littleEndian 2 (0xFFFF - data.length) ++ data ++ rest)) =
      (output ++ data.toArray, .ok (bitsOf rest)) := by
    have aligned : ∀ bytes : Bytes, (replicate 5 false ++ bitsOf bytes).drop
        ((replicate 5 false ++ bitsOf bytes).length % 8) = bitsOf bytes := by
      intro bytes
      have padding : (replicate 5 false ++ bitsOf bytes).length % 8 = 5 := by
        rw [length_append, length_bitsOf, length_replicate]
        omega
      rw [padding]
      rfl
    unfold readStored
    simp only [aligned]
    rw [append_assoc, append_assoc, bitsOf_append, ← append_assoc, readLength]
    dsimp only
    rw [append_assoc, bitsOf_append, readInverse]
    dsimp only
    rw [if_pos (by unfold blockSize at room; omega), bitsOf_append, readBytes_bitsOf]
  have first (bits : List Bool) : readNat 1 (last :: bits) = .ok (if last then 1 else 0, bits) := by
    cases last <;> rfl
  have second (bits : List Bool) : readNat 2 (replicate 7 false ++ bits) =
      .ok (0, replicate 5 false ++ bits) := rfl
  rw [readBlocks, storedBlock, cons_append, bitsOf_cons, mark, cons_append, first]
  dsimp only
  rw [second]
  dsimp only
  rw [readBlock, if_pos rfl, block]
  cases last <;> rfl

theorem readBlocks_storedBlocks {full fuel : Nat} (enough : full < fuel) {data : Bytes}
    (output : Array UInt8) (room : data.length ≤ blockSize * (full + 1)) :
    readBlocks fuel output (bitsOf (storedBlocks full data)) = (output ++ data.toArray, none) := by
  induction full generalizing fuel data output with
  | zero =>
    obtain ⟨fuel, rfl⟩ := Nat.exists_eq_add_of_lt enough
    have block := readBlocks_storedBlock (0 + fuel) true output [] (by simpa using room)
    rwa [append_nil, if_pos rfl] at block
  | succ full ih =>
    obtain ⟨fuel, rfl⟩ := Nat.exists_eq_add_of_lt (Nat.zero_lt_of_lt enough)
    have later : (data.drop blockSize).length ≤ blockSize * (full + 1) := by
      rw [length_drop]
      rw [Nat.mul_succ] at room
      omega
    rw [storedBlocks, readBlocks_storedBlock _ false output _ (length_take_le _ _),
      if_neg (by decide), ih (by omega) _ later]
    simp

end Inflate

theorem length_le_storedBlocks (full : Nat) (data : Bytes) :
    full < (storedBlocks full data).length ∧ data.length ≤ (storedBlocks full data).length := by
  induction full generalizing data with
  | zero =>
    simp only [storedBlocks, storedBlock, length_append, length_cons]
    omega
  | succ full ih =>
    obtain ⟨count, size⟩ := ih (data.drop blockSize)
    simp only [storedBlocks, storedBlock, length_append, length_cons, length_take,
      length_littleEndian, length_drop] at *
    omega

theorem inflate_deflate (data : Bytes) : inflate (deflate data) = (data, none) := by
  have count := (length_le_storedBlocks (data.length / blockSize) data).1
  have room : data.length ≤ blockSize * (data.length / blockSize + 1) := by
    rw [Nat.mul_succ]
    unfold blockSize
    omega
  have enough : data.length / blockSize < (Inflate.bitsOf (deflate data)).length + 1 := by
    rw [Inflate.length_bitsOf, deflate]
    omega
  have blocks := Inflate.readBlocks_storedBlocks enough #[] room
  rw [← deflate] at blocks
  rw [inflate, blocks]
  simp

/-! ## Fields -/

/-- Fields by width and value, one behind the other. -/
def fieldBytes (fields : List (Nat × Nat)) : Bytes :=
  fields.flatMap fun field => littleEndian field.1 field.2

/-- Every value fits its width. -/
def HaveRoom (fields : List (Nat × Nat)) : Prop :=
  ∀ field ∈ fields, field.2 < Nat.pow 256 field.1

theorem takeBytes_append (front rest : Bytes) :
    takeBytes front.length (front ++ rest) = .ok (front, rest) := by
  simp [takeBytes]

theorem takeNumber_append {width value : Nat} (room : value < Nat.pow 256 width) (rest : Bytes) :
    takeNumber width (littleEndian width value ++ rest) = .ok (value, rest) := by
  have taken := takeBytes_append (littleEndian width value) rest
  rw [length_littleEndian] at taken
  simp [takeNumber, taken, number_littleEndian width value room, bind, Except.bind, pure,
    Except.pure]

theorem takeNumbers_fieldBytes {fields : List (Nat × Nat)} (room : HaveRoom fields)
    (rest : Bytes) :
    takeNumbers (fields.map Prod.fst) (fieldBytes fields ++ rest) =
      .ok (fields.map Prod.snd, rest) := by
  induction fields with
  | nil => rfl
  | cons field more ih =>
    have first := takeNumber_append (room field (by simp)) (fieldBytes more ++ rest)
    have later := ih (forall_mem_cons.1 room).2
    have whole : fieldBytes (field :: more) ++ rest =
        littleEndian field.1 field.2 ++ (fieldBytes more ++ rest) := by
      simp [fieldBytes]
    simp [takeNumbers, whole, first, later, bind, Except.bind, pure, Except.pure]

/-! ## One entry -/

/-- The sizes of an entry have room in their fields. -/
structure EntryFits (entry : String × Bytes) : Prop where
  name : (Bytes.ofText entry.1).length < 65536
  size : (deflate entry.2).length < 4294967296

/-- What the directory says of an entry. -/
def headerAt (position : Nat) (entry : String × Bytes) : Header where
  name := entry.1
  encrypted := false
  method := 8
  checksum := (checksum entry.2).toNat
  size := (deflate entry.2).length
  position := position

/-- The fields that an entry has both before its data and in the directory. -/
def sharedNumbers (entry : String × Bytes) : List (Nat × Nat) :=
  [(2, 20), (2, if isAscii entry.1 then 0 else 2048), (2, 8), (2, 0), (2, 33),
    (4, (checksum entry.2).toNat), (4, (deflate entry.2).length), (4, entry.2.length),
    (2, (Bytes.ofText entry.1).length), (2, 0)]

theorem sharedFields_eq (entry : String × Bytes) :
    sharedFields entry 0 = fieldBytes (sharedNumbers entry) := by
  simp [sharedFields, fieldBytes, sharedNumbers]

theorem haveRoom_sharedNumbers {entry : String × Bytes} (fits : EntryFits entry) :
    HaveRoom (sharedNumbers entry) := by
  have name := fits.name
  have size := fits.size
  have shorter : entry.2.length ≤ (deflate entry.2).length := (length_le_storedBlocks _ entry.2).2
  have sum : (checksum entry.2).toNat < 4294967296 := (checksum entry.2).toNat_lt
  intro field member
  simp only [sharedNumbers, mem_cons, not_mem_nil, or_false] at member
  rcases member with rfl | rfl | rfl | rfl | rfl | rfl | rfl | rfl | rfl | rfl <;>
    dsimp only <;> (try split) <;> simp <;> omega

theorem map_plain_flatMap (low : ∀ char ∈ chars, char.toNat < 128) :
    ((chars.flatMap String.utf8EncodeChar).map fun byte =>
      if byte < 0x80 then Char.ofNat byte.toNat else (upperNames[byte.toNat - 0x80]?).getD '?') =
      chars := by
  induction chars with
  | nil => rfl
  | cons char rest ih =>
    have here := low char (by simp)
    have number : (UInt8.ofNat char.toNat).toNat = char.toNat :=
      toNat_ofNat_byte (by omega)
    rw [flatMap_cons, utf8EncodeChar_of_lt here, map_append,
      ih (forall_mem_cons.1 low).2, map_singleton,
      if_pos ((unmarked_iff (by omega)).2 here), number, Char.ofNat_toNat,
      singleton_append]

theorem plainName_ofText {name : String} (ascii : isAscii name) :
    plainName (ofText name) = name := by
  have low : ∀ char ∈ name.toList, char.toNat < 128 := by simpa [isAscii] using ascii
  rw [plainName, ofText_eq_flatMap, map_plain_flatMap low, String.ofList_toList]

theorem readName_ofText (name : String) :
    (if (if isAscii name then 0 else 2048) / 2048 % 2 = 1 then (ofText name).toTextLossy
      else plainName (ofText name)) = name := by
  cases ascii : isAscii name with
  | true => simpa using plainName_ofText ascii
  | false => simp

def directoryNumbers (position : Nat) (entry : String × Bytes) : List (Nat × Nat) :=
  (2, 788) :: sharedNumbers entry ++ [(2, 0), (2, 0), (2, 0), (4, 0x81A40000), (4, position)]

theorem directoryRecord_eq (entry : String × Bytes) (near : position < 4294967296) :
    directoryRecord position entry =
      littleEndian 4 directoryMark ++
        (fieldBytes (directoryNumbers position entry) ++ ofText entry.1) := by
  have inReach : position ≤ largestSize := Nat.le_of_lt_succ near
  have plain : longPosition position = [] := if_pos inReach
  rw [directoryRecord, plain, Nat.min_eq_left inReach]
  simp [sharedFields_eq, fieldBytes, directoryNumbers]

theorem haveRoom_directoryNumbers {entry : String × Bytes} (fits : EntryFits entry)
    (near : position < 4294967296) : HaveRoom (directoryNumbers position entry) := by
  intro field member
  rcases mem_append.1 member with early | late
  · rcases mem_cons.1 early with rfl | shared
    · decide
    · exact haveRoom_sharedNumbers fits field shared
  · simp only [mem_cons, not_mem_nil, or_false] at late
    rcases late with rfl | rfl | rfl | rfl | rfl <;> simp
    omega

/-- A record of the directory is read back. -/
theorem readHeader_directoryRecord {entry : String × Bytes} (fits : EntryFits entry)
    (near : position < 4294967296) (rest : Bytes) :
    readHeader 0 (directoryRecord position entry ++ rest) =
      .ok (headerAt position entry, rest) := by
  have mark := takeNumber_append (show directoryMark < Nat.pow 256 4 by decide)
    (fieldBytes (directoryNumbers position entry) ++ (ofText entry.1 ++ rest))
  have fields : takeNumbers [2, 2, 2, 2, 2, 2, 4, 4, 4, 2, 2, 2, 2, 2, 4, 4]
      (fieldBytes (directoryNumbers position entry) ++ (ofText entry.1 ++ rest)) =
      .ok ([788, 20, if isAscii entry.1 then 0 else 2048, 8, 0, 33, (checksum entry.2).toNat,
        (deflate entry.2).length, entry.2.length, (ofText entry.1).length, 0, 0, 0, 0, 0x81A40000,
        position], ofText entry.1 ++ rest) :=
    takeNumbers_fieldBytes (haveRoom_directoryNumbers fits near) _
  have name := takeBytes_append (ofText entry.1) rest
  have nothing : takeBytes 0 rest = .ok ([], rest) := takeBytes_append [] rest
  have unencrypted : decide ((if isAscii entry.1 then 0 else 2048) % 2 = 1) = false := by
    split <;> rfl
  rw [directoryRecord_eq entry near, append_assoc, append_assoc, readHeader, mark]
  simp only [bind, Except.bind, pure, Except.pure, ne_eq, not_true_eq_false, if_false, fields, name,
    nothing, readName_ofText, unencrypted]
  rfl

/-- The directory of entries that start at a position. -/
def headersFrom (position : Nat) : List (String × Bytes) → List Header
  | [] => []
  | entry :: rest =>
    headerAt position entry :: headersFrom (position + (localRecord entry).length) rest

theorem readHeaders_directory {entries : List (String × Bytes)}
    (fits : ∀ entry ∈ entries, EntryFits entry) {position : Nat}
    (near : position + (entries.flatMap localRecord).length < 4294967296) (rest : Bytes) :
    readHeaders 0 entries.length (directory position entries ++ rest) =
      .ok (headersFrom position entries) := by
  induction entries generalizing position with
  | nil => rfl
  | cons entry more ih =>
    rw [flatMap_cons, length_append] at near
    have first := readHeader_directoryRecord (fits entry (by simp))
      (show position < 4294967296 by omega)
      (directory (position + (localRecord entry).length) more ++ rest)
    have later := @ih (forall_mem_cons.1 fits).2
      (position + (localRecord entry).length) (by omega)
    rw [directory, append_assoc, length_cons, readHeaders, first]
    simp only [bind, Except.bind, later, pure, Except.pure, headersFrom]

theorem takeNumber_localRecord (entry : String × Bytes) (after : Bytes) :
    takeNumber 4 (localRecord entry ++ after) = .ok (localMark,
      fieldBytes (sharedNumbers entry) ++ (ofText entry.1 ++ (deflate entry.2 ++ after))) := by
  rw [← takeNumber_append (show localMark < Nat.pow 256 4 by decide)]
  simp [localRecord, sharedFields_eq]

/-- An entry is read back. -/
theorem readEntry_localRecord {entry : String × Bytes} (fits : EntryFits entry)
    (before after : Bytes) :
    readEntry (before ++ (localRecord entry ++ after)) (headerAt before.length entry) =
      .ok entry := by
  have early : fieldBytes (sharedNumbers entry) =
      fieldBytes ((sharedNumbers entry).take 8) ++
        fieldBytes [(2, (ofText entry.1).length), (2, 0)] := by
    simp [fieldBytes, sharedNumbers]
  have skipped : (fieldBytes (sharedNumbers entry) ++
      (ofText entry.1 ++ (deflate entry.2 ++ after))).drop 22 =
      fieldBytes [(2, (ofText entry.1).length), (2, 0)] ++
        (ofText entry.1 ++ (deflate entry.2 ++ after)) := by
    have length : (fieldBytes ((sharedNumbers entry).take 8)).length = 22 := by
      simp [fieldBytes, sharedNumbers]
    rw [early, append_assoc, drop_append_of_le_length (by omega), drop_eq_nil_of_le
      (by omega), nil_append]
  have lengths : takeNumbers [2, 2] (fieldBytes [(2, (ofText entry.1).length), (2, 0)] ++
      (ofText entry.1 ++ (deflate entry.2 ++ after))) =
      .ok ([(ofText entry.1).length, 0], ofText entry.1 ++ (deflate entry.2 ++ after)) := by
    apply @takeNumbers_fieldBytes [(2, (ofText entry.1).length), (2, 0)]
    intro field member
    apply haveRoom_sharedNumbers fits field
    simp only [mem_cons, not_mem_nil, or_false] at member
    rcases member with rfl | rfl <;> simp [sharedNumbers]
  have stored : storedData (before ++ (localRecord entry ++ after))
      (headerAt before.length entry) = .ok (deflate entry.2) := by
    simp only [storedData, headerAt, Bool.false_eq_true, if_false, drop_left,
      takeNumber_localRecord, bind, Except.bind, pure, Except.pure, ne_eq, not_true_eq_false,
      skipped, lengths]
    simp
  have delivered : content (headerAt before.length entry) (deflate entry.2) = (entry.2, none) := by
    simp [content, headerAt, inflate_deflate]
  simp only [readEntry, stored, bind, Except.bind, delivered, pure, Except.pure]
  rfl

theorem mapM_readEntry (fits : ∀ entry ∈ entries, EntryFits entry) (before after : Bytes) :
    (headersFrom before.length entries).mapM
        (readEntry (before ++ (entries.flatMap localRecord ++ after))) = .ok entries := by
  induction entries generalizing before with
  | nil => rfl
  | cons entry more ih =>
    have first := readEntry_localRecord (fits entry (by simp)) before
      (more.flatMap localRecord ++ after)
    have later := ih (forall_mem_cons.1 fits).2
      (before ++ localRecord entry)
    rw [length_append, append_assoc] at later
    rw [flatMap_cons, append_assoc, headersFrom, mapM_cons, first]
    simp only [bind, Except.bind, later, pure, Except.pure]

/-! ## Whole archives -/

/-- The sizes and positions of an archive have room in their fields. -/
structure Fits (entries : List (String × Bytes)) : Prop where
  count : entries.length < 65536
  names : ∀ entry ∈ entries, (Bytes.ofText entry.1).length < 65536
  size : (write entries).length < 4294967296

theorem length_write (entries : List (String × Bytes)) :
    (entries.flatMap localRecord).length + (directory 0 entries).length + endSize ≤
      (write entries).length := by
  simp only [write, endRecord, endSize, length_append, length_littleEndian]
  omega

theorem length_le_localRecord (entry : String × Bytes) :
    (deflate entry.2).length ≤ (localRecord entry).length := by
  simp only [localRecord, length_append]
  omega

/-- An archive whose sizes have room in the plain records has no others. -/
theorem Fits.write_eq (fits : Fits entries) :
    write entries = entries.flatMap localRecord ++ directory 0 entries ++
      endRecord entries.length (directory 0 entries).length
        (entries.flatMap localRecord).length := by
  have size := fits.size
  have bound := length_write entries
  have plain : longEndRecord entries.length (directory 0 entries).length
      (entries.flatMap localRecord).length = [] :=
    if_pos ⟨Nat.le_of_lt_succ fits.count, by unfold largestSize; omega, by unfold largestSize; omega⟩
  rw [write, plain, append_nil]

/-- Every entry of an archive that fits has room. -/
theorem Fits.entry (fits : Fits entries) {entry : String × Bytes} (member : entry ∈ entries) :
    EntryFits entry := by
  refine ⟨fits.names entry member, ?_⟩
  have size := fits.size
  have bound := length_write entries
  have here := length_le_localRecord entry
  have inside : (localRecord entry).length ≤ (entries.flatMap localRecord).length :=
    (sublist_flatten_of_mem (mem_map_of_mem member)).length_le
  omega

@[simp] theorem length_endRecord (count size offset : Nat) :
    (endRecord count size offset).length = endSize := by
  simp [endRecord, endSize]

theorem takeNumbers_endRecord {count size offset : Nat} (few : count < 65536)
    (small : size < 4294967296) (near : offset < 4294967296) :
    takeNumbers [4, 2, 2, 2, 2, 4, 4, 2] (endRecord count size offset) =
      .ok ([endMark, 0, 0, count, count, size, offset, 0], []) := by
  have numbers : HaveRoom [(4, endMark), (2, 0), (2, 0), (2, count), (2, count), (4, size),
      (4, offset), (2, 0)] := by
    intro field member
    simp only [mem_cons, not_mem_nil, or_false] at member
    rcases member with rfl | rfl | rfl | rfl | rfl | rfl | rfl | rfl <;> simp [endMark] <;> omega
  have fields := takeNumbers_fieldBytes numbers []
  have record : fieldBytes [(4, endMark), (2, 0), (2, 0), (2, count), (2, count), (4, size),
      (4, offset), (2, 0)] ++ [] = endRecord count size offset := by
    have isCount : min count largestCount = count := Nat.min_eq_left (Nat.le_of_lt_succ few)
    have isSize : min size largestSize = size := Nat.min_eq_left (Nat.le_of_lt_succ small)
    have isOffset : min offset largestSize = offset := Nat.min_eq_left (Nat.le_of_lt_succ near)
    rw [endRecord, isCount, isSize, isOffset]
    simp [fieldBytes]
  rw [record] at fields
  exact fields

theorem findEnd_endRecord (front : Bytes) (count size offset fuel : Nat) :
    findEnd (front ++ endRecord count size offset) (fuel + 1) front.length =
      some front.length := by
  have mark : (endRecord count size offset).take 4 = littleEndian 4 endMark := by
    rw [endRecord]
    simp
  rw [findEnd, drop_left, mark, number_littleEndian 4 endMark (by decide), if_pos rfl]

theorem headers_write (fits : Fits entries) :
    headers (write entries) = .ok (headersFrom 0 entries) := by
  have size := Nat.lt_of_le_of_lt (length_write entries) fits.size
  have listed := @readHeaders_directory entries (fun entry => fits.entry) 0 (by omega)
    (endRecord entries.length (directory 0 entries).length (entries.flatMap localRecord).length)
  have whole := fits.write_eq
  generalize directory 0 entries = listing at size whole listed
  generalize entries.flatMap localRecord = data at size whole listed
  have found := findEnd_endRecord (data ++ listing) entries.length listing.length data.length
    (min (data ++ listing).length longestComment)
  have fields := @takeNumbers_endRecord entries.length listing.length data.length fits.count
    (by omega) (by omega)
  have long : ¬ (write entries).length < endSize := by
    rw [whole, length_append, length_endRecord]
    omega
  have last : (write entries).length - endSize = (data ++ listing).length := by
    rw [whole, length_append, length_endRecord, Nat.add_sub_cancel]
  have ending : (write entries).drop (data ++ listing).length =
      endRecord entries.length listing.length data.length := by
    rw [whole, drop_left]
  have start : (write entries).drop data.length =
      listing ++ endRecord entries.length listing.length data.length := by
    rw [whole, append_assoc, drop_left]
  have inPlace : ¬ (data ++ listing).length < listing.length + data.length := by
    rw [length_append]
    omega
  have unshifted : (data ++ listing).length - listing.length - data.length = 0 := by
    rw [length_append]
    omega
  rw [← whole] at found
  simp only [headers, if_neg long, bind, Except.bind, pure, Except.pure, last, found, ending, fields,
    takeBytes, Nat.zero_le, if_true, ne_eq, not_true_eq_false, if_false, if_neg inPlace, unshifted,
    Nat.add_zero, start, listed]

theorem read_write (fits : Fits entries) : read (write entries) = .ok entries := by
  have found := headers_write fits
  have contents := mapM_readEntry (fun entry => fits.entry) []
    (directory 0 entries ++ endRecord entries.length (directory 0 entries).length
      (entries.flatMap localRecord).length)
  rw [nil_append, ← append_assoc, ← fits.write_eq] at contents
  simp only [read, found, bind, Except.bind]
  exact contents

/-! ## Archives read from the front -/

/-- Read entries one after another, as long as there is a record of one. -/
def readRecords : Nat → Bytes → Except ZipError (List (String × Bytes))
  | 0, _ => .ok []
  | fuel + 1, bytes => do
    let (mark, bytes) ← takeNumber 4 bytes
    if mark ≠ localMark then
      return []
    let (fields, bytes) ← takeNumbers [2, 2, 2, 2, 2, 4, 4, 4, 2, 2] bytes
    match fields with
    | [_, flags, method, _, _, checksum, size, _, nameLength, extraLength] =>
      let (name, bytes) ← takeBytes nameLength bytes
      let (_, bytes) ← takeBytes extraLength bytes
      let (data, bytes) ← takeBytes size bytes
      let name := if flags / 2048 % 2 = 1 then name.toTextLossy else plainName name
      match content { name, encrypted := false, method, checksum, size, position := 0 } data with
      | (output, none) => return (name, output) :: (← readRecords fuel bytes)
      | (_, some error) => throw (.io error)
    | _ => throw .badLocalHeader

/-- What an archive holds, told without its directory.  So it does not matter how many entries there
are and where they stand. -/
def unpack (bytes : Bytes) : Except ZipError (List (String × Bytes)) :=
  readRecords bytes.length bytes

end Zip

end OpsContent
