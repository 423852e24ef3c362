import DrawingDiary.Png.Encode

/-!
# Chunks of a PNG file

A file is a sequence of chunks, of which the first is the header. `readPreface`
reads the chunks in front of the image data and keeps what decides how the data
is to be read: the header, the palette and the transparency. Chunks that a
reader may skip are skipped when their check fails or their content makes no
sense; faults in the others end the reading. `dataPieces` reads the run of chunks that
holds the data. Nothing behind this run is looked at.
-/

namespace DrawingDiary.Png

/-- A chunk of a file: its type, a letter for each byte, and its data. -/
structure Chunk where
  type : String
  data : ByteArray
  /-- whether the check over type and data holds -/
  intact : Bool

namespace Chunk

/-- The type of the chunk at an offset, if its first eight bytes are there. -/
def typeAt? (file : ByteArray) (start : Nat) : Option String :=
  if file.size < start + 8 then none
  else some (String.ofList ((List.range 4).map fun i => Char.ofNat (byteAt file (start + 4 + i))))

/-- The chunk at an offset and the offset behind it. -/
def at? (file : ByteArray) (start : Nat) : Option (Chunk × Nat) := do
  let type ← typeAt? file start
  let size := wordAt file start
  if file.size < start + 12 + size then none
  else
    let body := file.extract (start + 4) (start + 8 + size)
    let intact := (crc32 body).toNat == wordAt file (start + 8 + size)
    some (⟨type, body.extract 4 body.size, intact⟩, start + 12 + size)

/-- Whether a reader may skip the chunk: the first letter of its type is small. -/
def isOptional (c : Chunk) : Bool := ((c.type.toList.headD 'A').toNat / 32) % 2 = 1

end Chunk

/-- What the header says. -/
structure Header where
  width : Nat
  height : Nat
  depth : Nat
  /-- samples of one pixel as transmitted -/
  channels : Nat
  /-- whether a sample is the number of a palette entry -/
  palette : Bool
  interlaced : Bool

/-- The header in the data of its chunk, if the depth suits the layout. -/
def Header.ofData? (data : ByteArray) : Option Header := do
  if data.size ≠ 13 then none
  let depth := byteAt data 8
  let (channels, palette, depths) ← match byteAt data 9 with
    | 0 => some (1, false, [1, 2, 4, 8, 16])
    | 2 => some (3, false, [8, 16])
    | 3 => some (1, true, [1, 2, 4, 8])
    | 4 => some (2, false, [8, 16])
    | 6 => some (4, false, [8, 16])
    | _ => none
  let interlace := byteAt data 12
  if ¬ depths.contains depth then none
  if byteAt data 10 ≠ 0 ∨ byteAt data 11 ≠ 0 ∨ 1 < interlace then none
  let width := wordAt data 0
  let height := wordAt data 4
  if width = 0 ∨ height = 0 then none
  some ⟨width, height, depth, channels, palette, interlace = 1⟩

/-- What the chunks in front of the image data say. -/
structure Preface where
  header : Header
  palette : Option ByteArray := none
  /-- the alphas of the palette's entries, or the samples of the colour that is not seen -/
  transparency : Option (List Nat) := none
  /-- the number of the last chunk of an animation -/
  sequence : Option Nat := none
  /-- whether the code points of the colours have been read -/
  colourCoded : Bool := false

namespace Preface

def maxEntries : Nat := 256

/-- The palette is read once, and holds one to 256 entries of three bytes. -/
def takePalette (p : Preface) (data : ByteArray) : Option Preface :=
  let size := data.size
  if p.palette.isSome ∨ size = 0 ∨ 3 * maxEntries < size ∨ size % 3 ≠ 0 then none
  else some { p with palette := some data }

/-- The transparency in the data of its chunk, if it suits the layout. Samples of
less than sixteen bits are in the second byte of each pair. -/
def transparencyOf? (p : Preface) (data : ByteArray) : Option (List Nat) :=
  let channels := p.header.channels
  if maxEntries < data.size then none
  else if p.header.palette then
    if p.palette.isNone ∨ data.size = 0 then none else some (data.toList.map (·.toNat))
  else if channels = 2 ∨ channels = 4 ∨ data.size < 2 * channels then none
  else if p.header.depth = 16 then
    some ((List.range ((data.size + 1) / 2)).map fun i =>
      256 * byteAt data (2 * i) + byteAt data (2 * i + 1))
  else some ((List.range channels).map fun i => byteAt data (2 * i + 1))

/-- A frame of an animation that starts before the image data must be the whole
picture, and the numbers of an animation's chunks go up by one. -/
def takeFrame (p : Preface) (data : ByteArray) : Option Preface :=
  let number := match p.sequence with
    | none => 0
    | some last => last + 1
  if data.size = 26 ∧ wordAt data 0 = number ∧ wordAt data 4 = p.header.width ∧
      wordAt data 8 = p.header.height ∧ wordAt data 12 = 0 ∧ wordAt data 16 = 0 ∧
      byteAt data 24 ≤ 2 ∧ byteAt data 25 ≤ 1 then
    some { p with sequence := some number }
  else none

/-- The code points of the colours count once and in front of the palette. They
must be those of plain colours, and the flag behind them is zero or one. -/
def takeCodePoints (p : Preface) (data : ByteArray) : Option Preface :=
  if p.palette.isSome ∨ p.colourCoded ∨ data.size ≠ 4 then some p
  else if byteAt data 2 ≠ 0 ∨ 1 < byteAt data 3 then none
  else some { p with colourCoded := true }

/-- The preface with one more chunk read, if reading can go on. -/
def take (p : Preface) (c : Chunk) : Option Preface :=
  if c.intact then
    match c.type with
    | "IHDR" | "IEND" => none
    | "PLTE" => p.takePalette c.data
    | "tRNS" => some { p with transparency := p.transparency <|> p.transparencyOf? c.data }
    | "fcTL" => p.takeFrame c.data
    | "cICP" => p.takeCodePoints c.data
    | _ => if c.isOptional then some p else none
  else if c.isOptional then some p
  else none

end Preface

/-- The chunks up to the first image data and where this starts; the number bounds
how many. -/
def readChunks (file : ByteArray) : Nat → Nat → Preface → Option (Preface × Nat)
  | 0, _, _ => none
  | fuel + 1, start, p => do
    let type ← Chunk.typeAt? file start
    if type = "IDAT" ∨ type = "fdAT" then some (p, start)
    else
      let (chunk, behind) ← Chunk.at? file start
      readChunks file fuel behind (← p.take chunk)

/-- What stands in front of the image data, the header first, and where this starts. -/
def readPreface (file : ByteArray) : Option (Preface × Nat) := do
  if (file.extract 0 signature.size).data ≠ signature.data then none
  else
    let (first, behind) ← Chunk.at? file signature.size
    if first.type = "IHDR" ∧ first.intact then
      readChunks file file.size behind { header := ← Header.ofData? first.data }
    else none

/-- The pieces of image data in a run of chunks of one type. Another chunk must
follow. In an animation each piece stands behind a number, one more than the last. -/
def dataPieces (file : ByteArray) (type : String) :
    Nat → Nat → Option Nat → Option (List ByteArray)
  | 0, _, _ => none
  | fuel + 1, start, sequence => do
    if (← Chunk.typeAt? file start) ≠ type then some []
    else
      let (chunk, behind) ← Chunk.at? file start
      if type = "IDAT" then
        if chunk.intact then
          some (chunk.data :: (← dataPieces file type fuel behind sequence))
        else none
      else
        let number := (← sequence) + 1
        if chunk.data.size < 4 ∨ wordAt chunk.data 0 ≠ number then none
        else
          some (chunk.data.extract 4 chunk.data.size ::
            (← dataPieces file type fuel behind (some number)))

end DrawingDiary.Png
