import OpsContent.Text.Bytes

/-!
# Checksum of archive entries

The cyclic redundancy check with the reflected polynomial `0xEDB88320`, one bit at a time.
-/

namespace OpsContent.Zip

def checksumBit (register : UInt32) : UInt32 :=
  if register &&& 1 == 1 then (register >>> 1) ^^^ 0xEDB88320 else register >>> 1

def checksumBits : Nat → UInt32 → UInt32
  | 0, register => register
  | count + 1, register => checksumBits count (checksumBit register)

def checksumByte (register : UInt32) (byte : UInt8) : UInt32 :=
  checksumBits 8 (register ^^^ byte.toUInt32)

/-- The CRC-32 of bytes. -/
def checksum (bytes : Bytes) : UInt32 :=
  bytes.foldl checksumByte 0xFFFFFFFF ^^^ 0xFFFFFFFF

end OpsContent.Zip
