import OpsContent.Disk.Error
import OpsContent.Zip.Checksum
import OpsContent.Zip.Deflate
import OpsContent.Zip.Inflate

/-!
# Zip archives

An archive is read from its end: the end record says where the directory is, the directory
lists the entries, and each entry has a header of its own before its data. Bytes before the
first entry shift every position.

The writer deflates every entry. An entry has room for contents below 4 GiB. More entries, or a
longer archive, than the fields of the plain records have room for are told in ZIP64 records, which
stand beside them.
-/

namespace OpsContent

/-- Why an archive cannot be read. -/
inductive ZipError where
  | noHeader
  | noEndRecord
  | badDirectoryPosition
  | severalDisks
  | badDirectoryHeader
  | badLocalHeader
  | encrypted
  | unsupportedMethod
  | badPath
  | fileNotFound
  | io (error : IoError)
  deriving DecidableEq

def ZipError.message : ZipError → String
  | .noHeader => "invalid Zip archive: Invalid zip header"
  | .noEndRecord => "invalid Zip archive: Could not find central directory end"
  | .badDirectoryPosition => "invalid Zip archive: Invalid central directory size or offset"
  | .severalDisks => "unsupported Zip archive: Support for multi-disk files is not implemented"
  | .badDirectoryHeader => "invalid Zip archive: Invalid Central Directory header"
  | .badLocalHeader => "invalid Zip archive: Invalid local file header"
  | .encrypted => "unsupported Zip archive: Password required to decrypt file"
  | .unsupportedMethod => "unsupported Zip archive: Compression method not supported"
  | .badPath => "invalid Zip archive: Invalid file path"
  | .fileNotFound => "specified file not found in archive"
  | .io error => error.message

namespace Zip

def takeBytes (count : Nat) (bytes : Bytes) : Except ZipError (Bytes × Bytes) :=
  if count ≤ bytes.length then .ok (bytes.take count, bytes.drop count)
  else .error (.io .endOfStream)

/-- Read a number of so many bytes. -/
def takeNumber (width : Nat) (bytes : Bytes) : Except ZipError (Nat × Bytes) := do
  let (front, rest) ← takeBytes width bytes
  pure (number front, rest)

/-- Take several numbers off the front, by their widths. -/
def takeNumbers : List Nat → Bytes → Except ZipError (List Nat × Bytes)
  | [], bytes => .ok ([], bytes)
  | width :: widths, bytes => do
      let (first, rest) ← takeNumber width bytes
      let (more, rest) ← takeNumbers widths rest
      pure (first :: more, rest)

def localMark : Nat := 0x04034b50

def directoryMark : Nat := 0x02014b50

def endMark : Nat := 0x06054b50

def longEndMark : Nat := 0x06064b50

def locatorMark : Nat := 0x07064b50

def endSize : Nat := 22

def longestComment : Nat := 65535

/-- The last position in reach at which an end record starts, searched backwards. -/
def findEnd (bytes : Bytes) : Nat → Nat → Option Nat
  | 0, _ => none
  | fuel + 1, position =>
    if number ((bytes.drop position).take 4) = endMark then some position
    else if position = 0 then none
    else findEnd bytes fuel (position - 1)

def upperNames : List Char :=
  ("ÇüéâäàåçêëèïîìÄÅÉæÆôöòûùÿÖÜ¢£¥₧ƒáíóúñÑªº¿⌐¬½¼¡«»░▒▓│┤╡╢╖╕╣║╗╝╜╛┐" ++
    "└┴┬├─┼╞╟╚╔╩╦╠═╬╧╨╤╥╙╘╒╓╫╪┘┌█▄▌▐▀αßΓπΣσµτΦΘΩδ∞φε∩≡±≥≤⌠⌡÷≈°∙·√ⁿ²■\u00a0").toList

/-- A name in the old character set of archives. -/
def plainName (bytes : Bytes) : String :=
  String.ofList (bytes.map fun byte =>
    if byte < 0x80 then Char.ofNat byte.toNat else (upperNames[byte.toNat - 0x80]?).getD '?')

/-- An entry of the directory of an archive. Its permission bits are left out, as those of files
are. -/
structure Header where
  name : String
  encrypted : Bool
  method : Nat
  checksum : Nat
  size : Nat
  position : Nat

/-- Read an entry of the directory. -/
def readHeader (shift : Nat) (bytes : Bytes) : Except ZipError (Header × Bytes) := do
  let (mark, bytes) ← takeNumber 4 bytes
  if mark ≠ directoryMark then throw .badDirectoryHeader
  let (fields, bytes) ← takeNumbers [2, 2, 2, 2, 2, 2, 4, 4, 4, 2, 2, 2, 2, 2, 4, 4] bytes
  match fields with
  | [_, _, flags, method, _, _, checksum, size, _, nameLength, extraLength, commentLength, _, _, _,
      position] =>
      let (name, bytes) ← takeBytes nameLength bytes
      let (_, bytes) ← takeBytes extraLength bytes
      let (_, bytes) ← takeBytes commentLength bytes
      pure ({
        name := if flags / 2048 % 2 = 1 then name.toTextLossy else plainName name
        encrypted := flags % 2 = 1
        method, checksum, size
        position := position + shift }, bytes)
  | _ => throw .badDirectoryHeader

/-- Read a number of entries of the directory. -/
def readHeaders (shift : Nat) : Nat → Bytes → Except ZipError (List Header)
  | 0, _ => .ok []
  | count + 1, bytes => do
      let (header, rest) ← readHeader shift bytes
      let headers ← readHeaders shift count rest
      pure (header :: headers)

/-- The directory of an archive. -/
def headers (bytes : Bytes) : Except ZipError (List Header) := do
  if bytes.length < endSize then throw .noHeader
  let last := bytes.length - endSize
  let position ← match findEnd bytes (min last longestComment + 1) last with
    | some position => pure position
    | none => throw .noEndRecord
  let (fields, rest) ← takeNumbers [4, 2, 2, 2, 2, 4, 4, 2] (bytes.drop position)
  match fields with
  | [_, disk, directoryDisk, count, _, size, offset, commentLength] =>
    let _ ← takeBytes commentLength rest
    if disk ≠ directoryDisk then throw .severalDisks
    if position < size + offset then throw .badDirectoryPosition
    let shift := position - size - offset
    readHeaders shift count (bytes.drop (offset + shift))
  | _ => throw .noEndRecord

/-- The data of an entry as it is stored. -/
def storedData (bytes : Bytes) (header : Header) : Except ZipError Bytes := do
  if header.encrypted then throw .encrypted
  let (mark, rest) ← takeNumber 4 (bytes.drop header.position)
  if mark ≠ localMark then throw .badLocalHeader
  let (lengths, rest) ← takeNumbers [2, 2] (rest.drop 22)
  if header.method ≠ 0 ∧ header.method ≠ 8 then throw .unsupportedMethod
  pure ((rest.drop (lengths.foldl (· + ·) 0)).take header.size)

def portion : Nat := 8192

/-- The content of an entry as far as it can be delivered, with the failure that ends it. -/
def content (header : Header) (data : Bytes) : Bytes × Option IoError :=
  let (output, stop) := if header.method = 8 then inflate data else (data, none)
  if stop = some .corrupt then
    (output.take (output.length / portion * portion), some .corruptStream)
  else if (checksum output).toNat = header.checksum then (output, none)
  else (output, some .badChecksum)

/-- The content of one entry. -/
def readEntry (bytes : Bytes) (header : Header) : Except ZipError (String × Bytes) := do
  let data ← storedData bytes header
  match content header data with
  | (output, none) => pure (header.name, output)
  | (_, some error) => throw (.io error)

/-- All entries with their content. -/
def read (bytes : Bytes) : Except ZipError (List (String × Bytes)) := do
  let all ← headers bytes
  all.mapM (readEntry bytes)

def isAscii (name : String) : Bool :=
  name.toList.all fun char => char.toNat < 128

def largestCount : Nat := 0xFFFF

def largestSize : Nat := 0xFFFFFFFF

/-- Has an entry room for its content, as it is and deflated?  A larger one fails while it is
written. -/
def hasRoom (entry : String × Bytes) : Bool :=
  entry.2.length ≤ largestSize && (deflate entry.2).length ≤ largestSize

/-- The fields that an entry has both before its data and in the directory, with the length of the
extra data that follows. -/
def sharedFields (entry : String × Bytes) (extra : Nat) : Bytes :=
  littleEndian 2 20 ++ littleEndian 2 (if isAscii entry.1 then 0 else 2048) ++
    littleEndian 2 8 ++ littleEndian 2 0 ++ littleEndian 2 33 ++
    littleEndian 4 (checksum entry.2).toNat ++ littleEndian 4 (deflate entry.2).length ++
    littleEndian 4 entry.2.length ++
    littleEndian 2 (Bytes.ofText entry.1).length ++ littleEndian 2 extra

/-- An entry before its data, and the data. -/
def localRecord (entry : String × Bytes) : Bytes :=
  littleEndian 4 localMark ++ sharedFields entry 0 ++ Bytes.ofText entry.1 ++
    deflate entry.2

/-- The position of an entry once more, if the field for it is too small. -/
def longPosition (position : Nat) : Bytes :=
  if position ≤ largestSize then []
  else littleEndian 2 1 ++ littleEndian 2 8 ++ littleEndian 8 position

/-- An entry of the directory, given the position of its data. -/
def directoryRecord (position : Nat) (entry : String × Bytes) : Bytes :=
  littleEndian 4 directoryMark ++ littleEndian 2 788 ++
    sharedFields entry (longPosition position).length ++
    littleEndian 2 0 ++ littleEndian 2 0 ++ littleEndian 2 0 ++ littleEndian 4 0x81A40000 ++
    littleEndian 4 (min position largestSize) ++ Bytes.ofText entry.1 ++ longPosition position

/-- The directory for entries that start at a position. -/
def directory (position : Nat) : List (String × Bytes) → Bytes
  | [] => []
  | entry :: rest =>
    directoryRecord position entry ++ directory (position + (localRecord entry).length) rest

/-- The ZIP64 end record and the record that tells its place, if the fields of the plain end record
are too small. -/
def longEndRecord (count size offset : Nat) : Bytes :=
  if count ≤ largestCount ∧ size ≤ largestSize ∧ offset ≤ largestSize then []
  else
    littleEndian 4 longEndMark ++ littleEndian 8 44 ++ littleEndian 2 46 ++ littleEndian 2 46 ++
      littleEndian 4 0 ++ littleEndian 4 0 ++ littleEndian 8 count ++ littleEndian 8 count ++
      littleEndian 8 size ++ littleEndian 8 offset ++
    littleEndian 4 locatorMark ++ littleEndian 4 0 ++ littleEndian 8 (offset + size) ++
      littleEndian 4 1

/-- The end of an archive, given the number of its entries and the size and place of the
directory. -/
def endRecord (count size offset : Nat) : Bytes :=
  littleEndian 4 endMark ++ littleEndian 2 0 ++ littleEndian 2 0 ++
    littleEndian 2 (min count largestCount) ++ littleEndian 2 (min count largestCount) ++
    littleEndian 4 (min size largestSize) ++ littleEndian 4 (min offset largestSize) ++
    littleEndian 2 0

/-- An archive of entries that have room in it. -/
def write (entries : List (String × Bytes)) : Bytes :=
  let records := entries.flatMap localRecord
  let listing := directory 0 entries
  records ++ listing ++ longEndRecord entries.length listing.length records.length ++
    endRecord entries.length listing.length records.length

end Zip

end OpsContent
