import DrawingDiary.Png.Chunk
import DrawingDiary.Png.Inflate

/-!
# Reading a picture from a PNG file

The pieces of image data are put together and inflated until all rows are there,
the filter of each row is undone, and the samples are brought to whole bytes:
narrow samples are widened, palette entries are looked up, and a transparent
colour becomes an alpha sample.
-/

namespace DrawingDiary.Png

/-- The neighbour that the sum of left and upper minus upper left comes nearest to. -/
def nearestNeighbour (left up upLeft : Nat) : Nat :=
  let distance (n : Nat) : Nat := ((left : Int) + up - upLeft - n).natAbs
  if distance left ≤ distance up ∧ distance left ≤ distance upLeft then left
  else if distance up ≤ distance upLeft then up
  else upLeft

/-- A row with its filter undone, given the row above. -/
def unfilterRow (filter unit : Nat) (above row : ByteArray) : Option ByteArray :=
  if 4 < filter then none
  else some <| (List.range row.size).foldl (fun out i =>
    let left := if i < unit then 0 else byteAt out (i - unit)
    let up := byteAt above i
    let upLeft := if i < unit then 0 else byteAt above (i - unit)
    let added := match filter with
      | 0 => 0
      | 1 => left
      | 2 => up
      | 3 => (left + up) / 2
      | _ => nearestNeighbour left up upLeft
    out.push (byteAt row i + added).toUInt8) ByteArray.empty

/-- Rows of the given size from an offset of the inflated data, and the offset
behind them. -/
def unfilterRows (data : ByteArray) (rowBytes unit : Nat) :
    Nat → Nat → ByteArray → Option (List ByteArray × Nat)
  | 0, start, _ => some ([], start)
  | rows + 1, start, above => do
    if data.size < start + 1 + rowBytes then none
    let row ← unfilterRow (byteAt data start) unit above
      (data.extract (start + 1) (start + 1 + rowBytes))
    let (rest, behind) ← unfilterRows data rowBytes unit rows (start + 1 + rowBytes) row
    some (row :: rest, behind)

/-- A part of the picture that is transmitted as a whole: where its first pixel
lies and how far apart its pixels are. -/
structure Pass where
  left : Nat
  top : Nat
  across : Nat
  down : Nat

def Header.passes (h : Header) : List Pass :=
  if h.interlaced then
    [⟨0, 0, 8, 8⟩, ⟨4, 0, 8, 8⟩, ⟨0, 4, 4, 8⟩, ⟨2, 0, 4, 4⟩, ⟨0, 2, 2, 4⟩, ⟨1, 0, 2, 2⟩,
      ⟨0, 1, 1, 2⟩]
  else [⟨0, 0, 1, 1⟩]

/-- How many columns and rows of a picture a pass holds. -/
def Pass.extent (pass : Pass) (h : Header) : Nat × Nat :=
  ((h.width - pass.left + pass.across - 1) / pass.across,
    (h.height - pass.top + pass.down - 1) / pass.down)

/-- The bytes of a transmitted row without its filter. -/
def Header.rowBytes (h : Header) (columns : Nat) : Nat := (columns * h.channels * h.depth + 7) / 8

/-- The bytes of all rows of a pass; without pixels it has none. -/
def Pass.dataSize (pass : Pass) (h : Header) : Nat :=
  let (columns, rows) := pass.extent h
  if columns = 0 then 0 else rows * (1 + h.rowBytes columns)

def Header.dataSize (h : Header) : Nat := (h.passes.map (·.dataSize h)).foldr (· + ·) 0

/-- The sample of a number in a row, as transmitted. -/
def sampleIn (depth : Nat) (row : ByteArray) (i : Nat) : Nat :=
  match depth with
  | 16 => 256 * byteAt row (2 * i) + byteAt row (2 * i + 1)
  | 8 => byteAt row i
  | _ => (byteAt row (i * depth / 8) >>> (8 - depth - i * depth % 8)) % Nat.pow 2 depth

/-- All transmitted samples by row, column and channel. -/
def readPasses (h : Header) (data : ByteArray) :
    List Pass → Nat → Array Nat → Option (Array Nat)
  | [], _, samples => some samples
  | pass :: passes, start, samples => do
    let (columns, rows) := pass.extent h
    if columns = 0 ∨ rows = 0 then readPasses h data passes start samples
    else
      let rowBytes := h.rowBytes columns
      let unit := max 1 (h.channels * h.depth / 8)
      let (lines, behind) ← unfilterRows data rowBytes unit rows start
        (ByteArray.mk (Array.replicate rowBytes 0))
      let samples := lines.zipIdx.foldl (fun samples line =>
        (List.range (columns * h.channels)).foldl (fun samples i =>
          let x := pass.left + (i / h.channels) * pass.across
          let y := pass.top + line.2 * pass.down
          samples.setIfInBounds ((y * h.width + x) * h.channels + i % h.channels)
            (sampleIn h.depth line.1 i)) samples) samples
      readPasses h data passes behind samples

/-- A sample in whole bytes, the highest first. -/
def pushSample (depth : Nat) (out : ByteArray) (value : Nat) : ByteArray :=
  match depth with
  | 16 => (out.push (value / 256).toUInt8).push value.toUInt8
  | 8 => out.push value.toUInt8
  | _ => out.push (value * (255 / (Nat.pow 2 depth - 1))).toUInt8

/-- The colour of a palette entry; black where the palette has none. -/
def paletteColour (colours : ByteArray) (entry : Nat) : List UInt8 :=
  (List.range 3).map fun i => (byteAt colours (3 * entry + i)).toUInt8

/-- The picture of transmitted samples: palette entries looked up, the
transparent colour turned into alpha. More alphas than the palette has entries
count as none. -/
def expand (p : Preface) (samples : Array Nat) : Option Picture := do
  let h := p.header
  let pixels := h.width * h.height
  if h.palette then
    let colours ← p.palette
    let color : ColorType := if p.transparency.isSome then .rgba8 else .rgb8
    let alphas := p.transparency.map fun alphas =>
      if colours.size / 3 < alphas.length then #[] else alphas.toArray
    let bytes := (List.range pixels).foldl (fun out i =>
      let entry := samples.getD i 0
      let out := (paletteColour colours entry).foldl ByteArray.push out
      match alphas with
      | none => out
      | some alphas => out.push (alphas.getD entry 255).toUInt8) ByteArray.empty
    Picture.ofSamples? h.width h.height color bytes
  else
    let wide := if h.depth = 16 then 2 else 1
    let color ← ColorType.ofLayout? (h.channels + if p.transparency.isSome then 1 else 0) wide
    let bytes := (List.range pixels).foldl (fun out i =>
      let values := (List.range h.channels).map fun c => samples.getD (i * h.channels + c) 0
      let out := values.foldl (pushSample h.depth) out
      match p.transparency with
      | none => out
      | some key =>
        pushSample (8 * wide) out (if values == key then 0 else Nat.pow 256 wide - 1))
      ByteArray.empty
    Picture.ofSamples? h.width h.height color bytes

/-- The most bytes of samples that a picture may have: half a gibibyte. -/
def maxSampleBytes : Nat := 512 * 1024 * 1024

/-- The bytes of samples of the picture that the preface announces. -/
def Preface.sampleBytes (p : Preface) : Nat :=
  let channels := (if p.header.palette then 3 else p.header.channels) +
    if p.transparency.isSome then 1 else 0
  p.header.width * p.header.height * channels * (if p.header.depth = 16 then 2 else 1)

/-- The rows of image data given in pieces, the last piece first. A piece with a
fault does no harm if the pieces before it hold all rows. -/
def inflatePieces (size : Nat) : List ByteArray → Option ByteArray
  | [] => none
  | last :: earlier =>
    let packed := (last :: earlier).foldr (fun piece all => all ++ piece) ByteArray.empty
    match inflate packed size with
    | some data => if data.size = size then some data else none
    | none => inflatePieces size earlier

/-- The picture in a file, if the content is one. -/
def decode (file : ByteArray) : Option Picture := do
  let (preface, start) ← readPreface file
  let header := preface.header
  let pieces ← dataPieces file (← Chunk.typeAt? file start) file.size start preface.sequence
  if maxSampleBytes < preface.sampleBytes then none
  else
    let data ← inflatePieces header.dataSize pieces.reverse
    let samples ← readPasses header data header.passes 0
      (Array.replicate (header.width * header.height * header.channels) 0)
    expand preface samples

end DrawingDiary.Png
