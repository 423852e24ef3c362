import DrawingDiary.Png.Checksum

/-!
# Compressed data that is not shortened

`store` wraps bytes as compressed data whose blocks hold them as they are.
-/

namespace DrawingDiary.Png

/-- The blocks of stored data, each of at most 65535 bytes. -/
def storedBlocks (bytes : ByteArray) : Nat → Nat → ByteArray → ByteArray
  | 0, _, out => out
  | blocks + 1, start, out =>
    let size := min 65535 (bytes.size - start)
    let last := if start + size = bytes.size then 1 else 0
    let header : ByteArray := ⟨#[last, size.toUInt8, (size / 256).toUInt8,
      (65535 - size).toUInt8, ((65535 - size) / 256).toUInt8]⟩
    let out := out ++ header ++ bytes.extract start (start + size)
    if last = 1 then out else storedBlocks bytes blocks (start + size) out

/-- Bytes as compressed data with its header and checksum, nothing shortened. -/
def store (bytes : ByteArray) : ByteArray :=
  storedBlocks bytes (bytes.size / 65535 + 1) 0 ⟨#[0x78, 0x01]⟩ ++ wordBytes (adler32 bytes)

end DrawingDiary.Png
