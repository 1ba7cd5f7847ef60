/-!
# Checksums

The cyclic redundancy check CRC-32 with the polynomial `0xEDB88320`, lowest bit first, as it is
used in archives and network frames.

Library crc32fast, whose `hash` tracelog-store uses in its module `segment`.
-/

namespace TraceJournal.Bytes

/-- The polynomial of the check, lowest bit first. -/
def polynomial : UInt32 := 0xEDB88320

/-- Divides by one more bit. -/
def divideBit (remainder : UInt32) : UInt32 :=
  if remainder &&& 1 = 1 then (remainder >>> 1) ^^^ polynomial else remainder >>> 1

/-- Divides by one more byte. -/
def divideByte (remainder : UInt32) (byte : UInt8) : UInt32 :=
  Nat.repeat divideBit 8 (remainder ^^^ byte.toUInt32)

/-- The checksum of a sequence of bytes. Source: crc32fast `hash`. -/
def checksum (bytes : List UInt8) : UInt32 :=
  bytes.foldl divideByte 0xFFFFFFFF ^^^ 0xFFFFFFFF

/-- The check value of the standard: the checksum of the digits from 1 to 9. -/
example : checksum [0x31, 0x32, 0x33, 0x34, 0x35, 0x36, 0x37, 0x38, 0x39] = 0xCBF43926 := by
  decide +kernel

end TraceJournal.Bytes
