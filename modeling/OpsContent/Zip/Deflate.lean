import OpsContent.Text.Bytes

/-!
# Deflated data

Numbers are written with their lowest byte first. A deflated entry is written as a sequence of
stored blocks, which give their length twice, once inverted, and then hold the bytes as they are.
How well an entry is compressed is not told by anything that reads it.
-/

namespace OpsContent.Zip

/-- A number in the given number of bytes. -/
def littleEndian : Nat → Nat → Bytes
  | 0, _ => []
  | width + 1, value => UInt8.ofNat (value % 256) :: littleEndian width (value / 256)

/-- The number that bytes stand for. -/
def number : Bytes → Nat
  | [] => 0
  | byte :: rest => byte.toNat + 256 * number rest

/-- The largest number of bytes in a stored block. -/
def blockSize : Nat := 0xFFFF

/-- A stored block, which may be marked as the last one. -/
def storedBlock (last : Bool) (data : Bytes) : Bytes :=
  (if last then 1 else 0) :: (littleEndian 2 data.length ++
    littleEndian 2 (0xFFFF - data.length) ++ data)

/-- A number of full blocks and a last one with the rest. -/
def storedBlocks : Nat → Bytes → Bytes
  | 0, data => storedBlock true data
  | full + 1, data =>
    storedBlock false (data.take blockSize) ++ storedBlocks full (data.drop blockSize)

/-- Pack data in stored blocks. -/
def deflate (data : Bytes) : Bytes :=
  storedBlocks (data.length / blockSize) data

/-- A number survives being written in enough bytes. -/
theorem number_littleEndian (width value : Nat) (fits : value < Nat.pow 256 width) :
    number (littleEndian width value) = value := by
  induction width generalizing value with
  | zero => exact (Nat.lt_one_iff.mp fits).symm
  | succ width ih =>
    have quotient : value / 256 < Nat.pow 256 width :=
      Nat.div_lt_of_lt_mul (Nat.mul_comm 256 _ ▸ fits)
    simp only [littleEndian, number, ih _ quotient]
    have remainder : (UInt8.ofNat (value % 256)).toNat = value % 256 := by
      simp [UInt8.toNat_ofNat']
    omega

@[simp] theorem length_littleEndian (width value : Nat) :
    (littleEndian width value).length = width := by
  induction width generalizing value with
  | zero => rfl
  | succ width ih => simp [littleEndian, ih]

end OpsContent.Zip
