/-!
# Checksums of a PNG file

`crc32` guards every chunk of the file and `adler32` the compressed data inside.
Big-endian words are written and read here too.
-/

namespace DrawingDiary.Png

/-- One byte's entry of the table: eight steps of division by the polynomial. -/
def crcEntry (n : UInt32) : UInt32 :=
  (List.range 8).foldl (fun (c : UInt32) _ =>
    if c &&& 1 = 1 then (c >>> 1) ^^^ 0xedb88320 else c >>> 1) n

def crcTable : Array UInt32 := Array.ofFn fun i : Fin 256 => crcEntry i.val.toUInt32

def crc32 (bytes : ByteArray) : UInt32 :=
  (bytes.foldl (fun c b => crcTable.getD ((c ^^^ b.toUInt32) &&& 0xff).toNat 0 ^^^ (c >>> 8))
    0xffffffff) ^^^ 0xffffffff

/-- The two running sums of some bytes, modulo the largest prime below 65536. -/
def adler32 (bytes : ByteArray) : UInt32 :=
  let sums := bytes.foldl (fun (s : UInt32 × UInt32) b =>
    let low := (s.1 + b.toUInt32) % 65521
    (low, (s.2 + low) % 65521)) (1, 0)
  (sums.2 <<< 16) ||| sums.1

/-- The four bytes of a word, the highest first. -/
def wordBytes (n : UInt32) : ByteArray :=
  ⟨#[(n >>> 24).toUInt8, (n >>> 16).toUInt8, (n >>> 8).toUInt8, n.toUInt8]⟩

/-- The byte at an offset, zero outside. -/
def byteAt (bytes : ByteArray) (i : Nat) : Nat := (bytes[i]?.getD 0).toNat

/-- The word at an offset, the highest byte first. -/
def wordAt (bytes : ByteArray) (i : Nat) : Nat :=
  ((byteAt bytes i * 256 + byteAt bytes (i + 1)) * 256 + byteAt bytes (i + 2)) * 256 +
    byteAt bytes (i + 3)

end DrawingDiary.Png
