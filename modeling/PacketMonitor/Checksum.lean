namespace PacketMonitor

/-- Shifts one bit out of a CRC-32 register and reduces by the reflected
    polynomial. -/
def crc32Shift (register : UInt32) : UInt32 :=
  if register &&& 1 = 1 then (register >>> 1) ^^^ 0xEDB88320 else register >>> 1

/-- Takes one byte into a CRC-32 register. -/
def crc32Step (register : UInt32) (b : UInt8) : UInt32 :=
  Nat.repeat crc32Shift 8 (register ^^^ b.toUInt32)

/-- The CRC-32 checksum of IEEE 802.3. -/
def crc32 (bytes : List UInt8) : UInt32 :=
  bytes.foldl crc32Step 0xFFFFFFFF ^^^ 0xFFFFFFFF

end PacketMonitor
