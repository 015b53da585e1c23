/-!
# CRC-32C

The 32-bit cyclic redundancy check with the Castagnoli polynomial, bits taken lowest first.
-/

namespace CellAbi.Crc32c

/-- The polynomial `0x1EDC6F41` with its bits reversed. -/
def polynomial : UInt32 := 0x82F63B78

/-- Shifts one bit out of the register. -/
def step (register : UInt32) : UInt32 :=
  if register &&& 1 = 1 then (register >>> 1) ^^^ polynomial else register >>> 1

def addByte (register : UInt32) (b : UInt8) : UInt32 :=
  Nat.repeat step 8 (register ^^^ b.toUInt32)

def checksum (bytes : List UInt8) : UInt32 :=
  bytes.foldl addByte 0xFFFFFFFF ^^^ 0xFFFFFFFF

/-- The checksum as four bytes, lowest first. -/
def trailer (bytes : List UInt8) : List UInt8 :=
  let sum := checksum bytes
  [sum.toUInt8, (sum >>> 8).toUInt8, (sum >>> 16).toUInt8, (sum >>> 24).toUInt8]

@[simp] theorem length_trailer (bytes : List UInt8) : (trailer bytes).length = 4 := rfl

end CellAbi.Crc32c
