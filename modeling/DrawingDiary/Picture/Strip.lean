import DrawingDiary.Naming.Hour
import DrawingDiary.Picture.Tile
import DrawingDiary.Png.Decode

/-!
# The strip of a day

Twenty-four tiles side by side, one for each hour, on one canvas. An hour
without a drawing shows a fully transparent segment. Hours from twenty-four on
have no segment, and writing to them does nothing.
-/

namespace DrawingDiary

/-- The largest side of a tile that a configuration may ask for. -/
def maxTileSide : UInt32 := 4096

/-- The canvas of a day and the size of its tiles. -/
structure Strip where
  canvas : Raster
  tileWidth : UInt32
  tileHeight : UInt32

namespace Strip

def blank (tileWidth tileHeight : UInt32) : Strip where
  canvas := Raster.filled (tileWidth * hoursPerDay.toUInt32).toNat tileHeight.toNat .transparent
  tileWidth := tileWidth
  tileHeight := tileHeight

/-- The strip with a tile copied into the segment of an hour. -/
def placeTile (s : Strip) (hour : UInt32) (tile : Raster) : Strip :=
  if hour.toNat < hoursPerDay then
    { s with canvas := s.canvas.place tile (Geometry.segmentLeft hour s.tileWidth).toNat }
  else s

/-- The strip with the segment of an hour made transparent. -/
def clearHour (s : Strip) (hour : UInt32) : Strip :=
  s.placeTile hour (Raster.filled s.tileWidth.toNat s.tileHeight.toNat .transparent)

def segment (s : Strip) (hour : Hour) : Raster :=
  s.canvas.columns (hour.val * s.tileWidth.toNat) s.tileWidth.toNat

/-- The strip as a file; there is none for a strip without pixels. -/
def encode (s : Strip) : Option ByteArray := Png.encode s.canvas.toPicture

end Strip

def hourWord (hour : Hour) : UInt32 := hour.val.toUInt32

end DrawingDiary
