/-!
# Bytes and their readings as text

File contents and message bodies are lists of bytes. They are read as UTF-8 where text is
required, as UTF-8 with replacement characters where text is only shown, and as ISO-8859-1
where a property file is not valid UTF-8.
-/

namespace OpsContent

abbrev Bytes := List UInt8

namespace Bytes

/-- The UTF-8 bytes of a text. -/
def ofText (text : String) : Bytes :=
  text.toUTF8.data.toList

/-- The text of UTF-8 bytes. -/
def toText? (bytes : Bytes) : Option String :=
  String.fromUTF8? ⟨bytes.toArray⟩

@[simp] theorem toText?_ofText (text : String) : toText? (ofText text) = some text := by
  simp [toText?, ofText, String.fromUTF8?, String.fromUTF8, String.toUTF8, text.isValidUTF8]

def isTail (byte : UInt8) : Bool :=
  0x80 ≤ byte && byte ≤ 0xBF

/-- Bounds of the second byte of a sequence and the number of bytes that follow the first. The
bounds rule out overlong forms, surrogates and code points above the last one. -/
def leadBounds (byte : UInt8) : Option (Nat × UInt8 × UInt8) :=
  if 0xC2 ≤ byte && byte ≤ 0xDF then some (1, 0x80, 0xBF)
  else if byte == 0xE0 then some (2, 0xA0, 0xBF)
  else if byte == 0xED then some (2, 0x80, 0x9F)
  else if 0xE1 ≤ byte && byte ≤ 0xEF then some (2, 0x80, 0xBF)
  else if byte == 0xF0 then some (3, 0x90, 0xBF)
  else if byte == 0xF4 then some (3, 0x80, 0x8F)
  else if 0xF1 ≤ byte && byte ≤ 0xF3 then some (3, 0x80, 0xBF)
  else none

/-- Continuation bytes that can follow a lead byte, at most as many as it asks for. -/
def tailBytes : Nat → UInt8 → UInt8 → Bytes → Bytes
  | 0, _, _, _ => []
  | _ + 1, _, _, [] => []
  | count + 1, low, high, byte :: rest =>
    if low ≤ byte && byte ≤ high then byte :: tailBytes count 0x80 0xBF rest else []

def codePoint (lead : UInt8) (tail : Bytes) : Nat :=
  let high := match tail.length with
    | 1 => lead.toNat - 0xC0
    | 2 => lead.toNat - 0xE0
    | _ => lead.toNat - 0xF0
  tail.foldl (fun code byte => code * 64 + (byte.toNat - 0x80)) high

/-- Characters of a byte string, each longest beginning of an invalid sequence shown as the
replacement character. -/
def lossyChars : Nat → Bytes → List Char
  | 0, _ => []
  | _ + 1, [] => []
  | fuel + 1, byte :: rest =>
    if byte < 0x80 then Char.ofNat byte.toNat :: lossyChars fuel rest
    else match leadBounds byte with
      | none => '�' :: lossyChars fuel rest
      | some (count, low, high) =>
        let tail := tailBytes count low high rest
        let char := if tail.length = count then Char.ofNat (codePoint byte tail) else '�'
        char :: lossyChars fuel (rest.drop tail.length)

/-- The text of bytes, with a mark for what is no text. -/
def toTextLossy (bytes : Bytes) : String :=
  String.ofList (lossyChars bytes.length bytes)

/-- One character for each byte. -/
def latinChars (bytes : Bytes) : List Char :=
  bytes.map fun byte => Char.ofNat byte.toNat

def ofLatinChars (chars : List Char) : Bytes :=
  chars.map fun char => if char.toNat < 256 then UInt8.ofNat char.toNat else 0x3F

/-- Every byte string survives the reading as ISO-8859-1. -/
theorem ofLatinChars_latinChars (bytes : Bytes) : ofLatinChars (latinChars bytes) = bytes := by
  induction bytes with
  | nil => rfl
  | cons byte rest ih =>
    have bound : byte.toNat < 256 := byte.toNat_lt
    have valid : byte.toNat.isValidChar := Or.inl (by omega)
    have number : (Char.ofNat byte.toNat).toNat = byte.toNat := by
      rw [Char.ofNat, dif_pos valid]
      rfl
    simp only [latinChars, ofLatinChars, List.map_cons, number, if_pos bound] at ih ⊢
    rw [ih, UInt8.ofNat_toNat]

/-- Is the last line closed? -/
def endsLine (bytes : Bytes) : Bool :=
  match bytes.getLast? with
  | none => true
  | some last => last == 0x0A

/-- The bytes with the last line closed. -/
def closeLine (bytes : Bytes) : Bytes :=
  if bytes.endsLine then bytes else bytes ++ [0x0A]

end Bytes

end OpsContent
