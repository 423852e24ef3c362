/-!
# Fitting a drawing into a tile

Sizes are pairs of a width and a height, in pixels. A drawing covers a tile at
the larger of the two ratios of their sides; the area of the drawing that the
tile shows is the tile's size divided by that scale.
-/

namespace DrawingDiary.Geometry

/-- A width and a height. -/
abbrev Size := UInt32 × UInt32

/-- The larger of two numbers; something that is no number is passed over. -/
def larger (a b : Float) : Float :=
  if a.isNaN then b else if b.isNaN then a else if a < b then b else a

/-- The smallest scale at which the source covers the tile. -/
def coverScale (source tile : Size) : Float :=
  larger (tile.1.toFloat / source.1.toFloat) (tile.2.toFloat / source.2.toFloat)

/-- The tile's size divided by the scale, cut to whole pixels and at least one
pixel wide and high. -/
def intermediateSize (tile : Size) (scale : Float) : Size :=
  (max (tile.1.toFloat / scale).toUInt32 1, max (tile.2.toFloat / scale).toUInt32 1)

/-- Where the source starts on a canvas when both have the same centre. A source
larger than the canvas starts at a negative place; halves are cut toward zero. -/
def centeredOffset (canvas source : Size) : Int × Int :=
  (((canvas.1.toNat : Int) - source.1.toNat).tdiv 2,
    ((canvas.2.toNat : Int) - source.2.toNat).tdiv 2)

/-- The column where the segment of an hour starts. -/
def segmentLeft (hour tileWidth : UInt32) : UInt32 := hour * tileWidth

end DrawingDiary.Geometry
