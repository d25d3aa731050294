import OpsContent.Text.Bytes

/-!
# Decompression of deflated entries

A deflated entry is a sequence of blocks: stored bytes, or symbols of a prefix code that stand
for a byte, for the end of the block, or for a copy of earlier output. Codes are canonical, so
the lengths of the code words determine them.
-/

namespace OpsContent.Zip

/-- Why a compressed text ends early. -/
inductive InflateStop where
  | corrupt
  | truncated
  deriving DecidableEq

namespace Inflate

def byteBits (byte : UInt8) : List Bool :=
  (List.range 8).map fun index => byte.toNat.testBit index

/-- Bits in the order they are read. -/
def bitsOf (bytes : Bytes) : List Bool :=
  bytes.flatMap byteBits

/-- Read a number of bits, the lowest first. -/
def readNat : Nat → List Bool → Except InflateStop (Nat × List Bool)
  | 0, bits => .ok (0, bits)
  | _ + 1, [] => .error .truncated
  | count + 1, bit :: bits => do
      let (high, rest) ← readNat count bits
      pure ((if bit then 1 else 0) + 2 * high, rest)

/-- A canonical prefix code: how many words there are of each length from one on, and the
symbols in the order of their words. -/
structure Code where
  counts : List Nat
  symbols : Array Nat

def longestWord : Nat := 15

/-- The code of a list of word lengths; a symbol of length zero has no word. -/
def codeOf (lengths : List Nat) : Code :=
  let sizes := (List.range longestWord).map (· + 1)
  let numbered := (List.range lengths.length).zip lengths
  { counts := sizes.map fun size => (lengths.filter (· == size)).length
    symbols := (sizes.flatMap fun size =>
      (numbered.filter (·.2 == size)).map (·.1)).toArray }

def unused : Nat → List Nat → Option Nat
  | left, [] => some left
  | left, count :: rest => if 2 * left < count then none else unused (2 * left - count) rest

/-- Is every word of bits used, or is there but one? -/
def Code.isValid (code : Code) : Bool :=
  match unused 1 code.counts with
  | none => false
  | some left => left == 0 || code.symbols.size ≤ 1

/-- Read a symbol: the word so far, the first word of its length and the number of shorter
words. -/
def readWord (symbols : Array Nat) : List Nat → Nat → Nat → Nat → List Bool →
    Except InflateStop (Nat × List Bool)
  | [], _, _, _, _ => .error .corrupt
  | _ :: _, _, _, _, [] => .error .truncated
  | count :: counts, word, first, index, bit :: bits =>
    let word := word + (if bit then 1 else 0)
    if word < first + count then
      match symbols[index + (word - first)]? with
      | some symbol => .ok (symbol, bits)
      | none => .error .corrupt
    else readWord symbols counts (2 * word) (2 * (first + count)) (index + count) bits

/-- Read a symbol. -/
def Code.read (code : Code) (bits : List Bool) : Except InflateStop (Nat × List Bool) :=
  readWord code.symbols code.counts 0 0 0 bits

/-- Base and number of extra bits of the length symbols, from 257 on. -/
def lengthTable : Array (Nat × Nat) :=
  #[(3, 0), (4, 0), (5, 0), (6, 0), (7, 0), (8, 0), (9, 0), (10, 0), (11, 1), (13, 1), (15, 1),
    (17, 1), (19, 2), (23, 2), (27, 2), (31, 2), (35, 3), (43, 3), (51, 3), (59, 3), (67, 4),
    (83, 4), (99, 4), (115, 4), (131, 5), (163, 5), (195, 5), (227, 5), (258, 0)]

/-- Base and number of extra bits of the distance symbols. -/
def distanceTable : Array (Nat × Nat) :=
  #[(1, 0), (2, 0), (3, 0), (4, 0), (5, 1), (7, 1), (9, 2), (13, 2), (17, 3), (25, 3), (33, 4),
    (49, 4), (65, 5), (97, 5), (129, 6), (193, 6), (257, 7), (385, 7), (513, 8), (769, 8),
    (1025, 9), (1537, 9), (2049, 10), (3073, 10), (4097, 11), (6145, 11), (8193, 12),
    (12289, 12), (16385, 13), (24577, 13)]

/-- Repeat bytes that came before. -/
def copyBack (distance : Nat) : Nat → Array UInt8 → Array UInt8
  | 0, output => output
  | count + 1, output =>
    copyBack distance count (output.push ((output[output.size - distance]?).getD 0))

abbrev Progress := Array UInt8 × Except InflateStop (List Bool)

/-- A number from a table with its extra bits. -/
def readExtra (table : Array (Nat × Nat)) (index : Nat) (bits : List Bool) :
    Except InflateStop (Nat × List Bool) := do
  match table[index]? with
  | none => throw .corrupt
  | some (base, extra) =>
    let (more, rest) ← readNat extra bits
    pure (base + more, rest)

/-- Length and distance of a copy, after its length symbol. -/
def readCopy (distances : Code) (symbol : Nat) (bits : List Bool) :
    Except InflateStop ((Nat × Nat) × List Bool) := do
  let (length, bits) ← readExtra lengthTable (symbol - 257) bits
  let (distanceSymbol, bits) ← distances.read bits
  let (distance, bits) ← readExtra distanceTable distanceSymbol bits
  pure ((length, distance), bits)

/-- The symbols of a block up to its end. -/
def readSymbols (literals distances : Code) : Nat → Array UInt8 → List Bool → Progress
  | 0, output, _ => (output, .error .truncated)
  | fuel + 1, output, bits =>
    match literals.read bits with
    | .error stop => (output, .error stop)
    | .ok (symbol, bits) =>
      if symbol < 256 then
        readSymbols literals distances fuel (output.push (UInt8.ofNat symbol)) bits
      else if symbol = 256 then (output, .ok bits)
      else match readCopy distances symbol bits with
        | .error stop => (output, .error stop)
        | .ok ((length, distance), bits) =>
          if output.size < distance then (output, .error .corrupt)
          else readSymbols literals distances fuel (copyBack distance length output) bits

def readBytes : Nat → Array UInt8 → List Bool → Progress
  | 0, output, bits => (output, .ok bits)
  | count + 1, output, bits =>
    match readNat 8 bits with
    | .error stop => (output, .error stop)
    | .ok (byte, bits) => readBytes count (output.push (UInt8.ofNat byte)) bits

/-- A stored block: it starts at a byte and gives its length twice, once inverted. -/
def readStored (output : Array UInt8) (bits : List Bool) : Progress :=
  let aligned := bits.drop (bits.length % 8)
  match readNat 16 aligned with
  | .error stop => (output, .error stop)
  | .ok (length, bits) =>
    match readNat 16 bits with
    | .error stop => (output, .error stop)
    | .ok (inverse, bits) =>
      if length + inverse = 0xFFFF then readBytes length output bits
      else (output, .error .corrupt)

/-- Word lengths of a code, themselves encoded: a length, or a number of repetitions. -/
def readLengths (code : Code) (wanted : Nat) : Nat → List Nat → List Bool →
    Except InflateStop (List Nat × List Bool)
  | 0, _, _ => .error .truncated
  | fuel + 1, reversed, bits =>
    if reversed.length = wanted then .ok (reversed.reverse, bits)
    else if wanted < reversed.length then .error .corrupt
    else do
      let (symbol, bits) ← code.read bits
      if symbol < 16 then readLengths code wanted fuel (symbol :: reversed) bits
      else if symbol = 16 then
        match reversed with
        | [] => throw .corrupt
        | last :: _ =>
          let (count, bits) ← readNat 2 bits
          readLengths code wanted fuel (List.replicate (3 + count) last ++ reversed) bits
      else if symbol = 17 then
        let (count, bits) ← readNat 3 bits
        readLengths code wanted fuel (List.replicate (3 + count) 0 ++ reversed) bits
      else
        let (count, bits) ← readNat 7 bits
        readLengths code wanted fuel (List.replicate (11 + count) 0 ++ reversed) bits

def lengthOrder : List Nat :=
  [16, 17, 18, 0, 8, 7, 9, 6, 10, 5, 11, 4, 12, 3, 13, 2, 14, 1, 15]

/-- Read a list of numbers of three bits. -/
def readTriples : Nat → List Bool → Except InflateStop (List Nat × List Bool)
  | 0, bits => .ok ([], bits)
  | count + 1, bits => do
      let (first, bits) ← readNat 3 bits
      let (rest, bits) ← readTriples count bits
      pure (first :: rest, bits)

/-- The two codes of a block that brings its own. -/
def readCodes (bits : List Bool) : Except InflateStop ((Code × Code) × List Bool) := do
  let (literalCount, bits) ← readNat 5 bits
  let (distanceCount, bits) ← readNat 5 bits
  let (lengthCount, bits) ← readNat 4 bits
  let (triples, bits) ← readTriples (lengthCount + 4) bits
  let given := lengthOrder.zip triples
  let lengths := (List.range 19).map fun symbol =>
    ((given.find? (·.1 == symbol)).map (·.2)).getD 0
  let code := codeOf lengths
  if !code.isValid then throw .corrupt
  let total := literalCount + 257 + (distanceCount + 1)
  let (all, bits) ← readLengths code total (total + 1) [] bits
  let literals := codeOf (all.take (literalCount + 257))
  let distances := codeOf (all.drop (literalCount + 257))
  if !literals.isValid || !distances.isValid then throw .corrupt
  pure ((literals, distances), bits)

def fixedLiterals : Code :=
  codeOf (List.replicate 144 8 ++ List.replicate 112 9 ++ List.replicate 24 7 ++
    List.replicate 8 8)

def fixedDistances : Code :=
  codeOf (List.replicate 30 5)

def readBlock (type : Nat) (output : Array UInt8) (bits : List Bool) : Progress :=
  if type = 0 then readStored output bits
  else if type = 1 then readSymbols fixedLiterals fixedDistances (bits.length + 1) output bits
  else if type = 2 then
    match readCodes bits with
    | .error stop => (output, .error stop)
    | .ok ((literals, distances), bits) =>
      readSymbols literals distances (bits.length + 1) output bits
  else (output, .error .corrupt)

/-- Read blocks up to the last. -/
def readBlocks : Nat → Array UInt8 → List Bool → Array UInt8 × Option InflateStop
  | 0, output, _ => (output, some .truncated)
  | fuel + 1, output, bits =>
    match readNat 1 bits with
    | .error stop => (output, some stop)
    | .ok (last, bits) =>
      match readNat 2 bits with
      | .error stop => (output, some stop)
      | .ok (type, bits) =>
        match readBlock type output bits with
        | (output, .error stop) => (output, some stop)
        | (output, .ok bits) =>
          if last = 1 then (output, none) else readBlocks fuel output bits

end Inflate

/-- Unpack compressed bytes. -/
def inflate (bytes : Bytes) : Bytes × Option InflateStop :=
  let bits := Inflate.bitsOf bytes
  let (output, stop) := Inflate.readBlocks (bits.length + 1) #[] bits
  (output.toList, stop)

end OpsContent.Zip
