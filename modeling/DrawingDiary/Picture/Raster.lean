import DrawingDiary.Picture.Basic

/-!
# Rasters

A raster is a grid of pixels with red, green, blue and alpha, kept in one buffer
row by row. `place` copies a smaller raster into it: the pixel of column `x` and
row `y` goes to the offset `y * width + x` of the buffer, and what would lie
outside is cut off. Every write keeps the size of the buffer.
-/

namespace DrawingDiary

/-- A colour with its opacity. -/
structure Pixel where
  red : UInt8
  green : UInt8
  blue : UInt8
  alpha : UInt8
deriving DecidableEq, Repr, Inhabited

namespace Pixel

def transparent : Pixel := ⟨0, 0, 0, 0⟩

def solidBlack : Pixel := ⟨0, 0, 0, 255⟩

end Pixel

/-- A grid of pixels, row by row. -/
structure Raster where
  width : Nat
  height : Nat
  pixels : Array Pixel
  size_pixels : pixels.size = width * height

namespace Raster

/-- The raster whose pixels are given by column and row. -/
def ofFn (width height : Nat) (f : Nat → Nat → Pixel) : Raster where
  width := width
  height := height
  pixels := Array.ofFn fun i : Fin (width * height) => f (i.val % width) (i.val / width)
  size_pixels := Array.size_ofFn

def filled (width height : Nat) (pixel : Pixel) : Raster where
  width := width
  height := height
  pixels := Array.replicate (width * height) pixel
  size_pixels := Array.size_replicate

/-- The pixel at a column and row, transparent outside the raster. -/
def pixelAt (r : Raster) (x y : Nat) : Pixel :=
  if x < r.width ∧ y < r.height then r.pixels.getD (y * r.width + x) .transparent
  else .transparent

/-- Writes the first `columns` pixels of a row of a raster into a buffer. -/
def copyRow (r : Raster) (y offset : Nat) : Nat → Array Pixel → Array Pixel
  | 0, buffer => buffer
  | columns + 1, buffer =>
    (copyRow r y offset columns buffer).setIfInBounds (offset + columns) (r.pixelAt columns y)

/-- Writes the first `rows` rows of a raster into a buffer whose rows have the
given width. -/
def copyRows (r : Raster) (width left columns : Nat) : Nat → Array Pixel → Array Pixel
  | 0, buffer => buffer
  | rows + 1, buffer =>
    copyRow r rows (rows * width + left) columns (copyRows r width left columns rows buffer)

theorem size_copyRow (r : Raster) (y offset columns : Nat) (buffer : Array Pixel) :
    (copyRow r y offset columns buffer).size = buffer.size := by
  induction columns with
  | zero => rfl
  | succ columns ih => simp [copyRow, ih]

theorem size_copyRows (r : Raster) (width left columns rows : Nat) (buffer : Array Pixel) :
    (copyRows r width left columns rows buffer).size = buffer.size := by
  induction rows with
  | zero => rfl
  | succ rows ih => simp [copyRows, size_copyRow, ih]

/-- The raster with another one copied into it, its left upper corner at the
given column of the first row; what does not fit is cut off. -/
def place (canvas tile : Raster) (left : Nat) : Raster where
  width := canvas.width
  height := canvas.height
  pixels := copyRows tile canvas.width left (min tile.width (canvas.width - left))
    (min tile.height canvas.height) canvas.pixels
  size_pixels := by rw [size_copyRows, canvas.size_pixels]

/-- The raster of `count` columns starting at column `left`. -/
def columns (r : Raster) (left count : Nat) : Raster :=
  ofFn count r.height fun x y => r.pixelAt (left + x) y

/-- Whether no pixel shows anything. -/
def isTransparent (r : Raster) : Bool := r.pixels.all (· == .transparent)

end Raster

/-- The picture as a raster: luma counts for red, green and blue, and a missing
alpha is full. -/
def Picture.toRaster (p : Picture) : Raster :=
  Raster.ofFn p.width p.height fun x y =>
    let first := (y * p.width + x) * p.color.channels
    match p.color.channels with
    | 1 => let l := p.sample first; ⟨l, l, l, 255⟩
    | 2 => let l := p.sample first; ⟨l, l, l, p.sample (first + 1)⟩
    | 3 => ⟨p.sample first, p.sample (first + 1), p.sample (first + 2), 255⟩
    | _ => ⟨p.sample first, p.sample (first + 1), p.sample (first + 2), p.sample (first + 3)⟩

/-- One of the four samples of a pixel: red, green, blue, alpha. -/
def Pixel.sample (p : Pixel) : Nat → UInt8
  | 0 => p.red
  | 1 => p.green
  | 2 => p.blue
  | _ => p.alpha

/-- The raster as a picture of eight-bit samples with alpha. -/
def Raster.toPicture (r : Raster) : Picture where
  width := r.width
  height := r.height
  color := .rgba8
  samples := ⟨Array.ofFn fun i : Fin (r.width * r.height * 4) =>
    (r.pixels.getD (i.val / 4) .transparent).sample (i.val % 4)⟩
  size_samples := Array.size_ofFn

end DrawingDiary
