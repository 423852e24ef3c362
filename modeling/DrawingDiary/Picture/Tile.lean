import DrawingDiary.Picture.Geometry
import DrawingDiary.Picture.Resampling

/-!
# The tile of a drawing

A drawing is laid at its own size, centred, on a black canvas of the tile's
aspect ratio; what overflows is cropped. The canvas is then resampled to the
size of the tile.
-/

namespace DrawingDiary

/-- One sample of a colour laid over black, as the single-precision blending
formula gives it; `opacity` and `combined` are the alpha of the colour and of the
result. -/
def blendSample (opacity combined : Float32) (sample : UInt8) : UInt8 :=
  let colour := sample.toFloat32 / 255
  (255 * ((colour * opacity + 0 * (1 - opacity)) / combined)).toUInt8

/-- A pixel laid over a black one without transparency. -/
def Pixel.overBlack (p : Pixel) : Pixel :=
  if p.alpha = 0 then .solidBlack
  else if p.alpha = 255 then p
  else
    let opacity := p.alpha.toFloat32 / 255
    let combined := (1 + opacity) - 1 * opacity
    ⟨blendSample opacity combined p.red, blendSample opacity combined p.green,
      blendSample opacity combined p.blue, (255 * combined).toUInt8⟩

/-- A black canvas with a raster laid over it at the given offset. -/
def Raster.onBlack (source : Raster) (width height : Nat) (offset : Int × Int) : Raster :=
  Raster.ofFn width height fun x y =>
    let sx : Int := x - offset.1
    let sy : Int := y - offset.2
    if 0 ≤ sx ∧ sx < source.width ∧ 0 ≤ sy ∧ sy < source.height then
      (source.pixelAt sx.toNat sy.toNat).overBlack
    else .solidBlack

/-- The tile of a drawing, of exactly the given size. -/
def composeTile (drawing : Picture) (tileWidth tileHeight : UInt32) : Raster :=
  let source : Geometry.Size := (max drawing.width.toUInt32 1, max drawing.height.toUInt32 1)
  let tile := (tileWidth, tileHeight)
  let area := Geometry.intermediateSize tile (Geometry.coverScale source tile)
  let canvas := drawing.toRaster.onBlack area.1.toNat area.2.toNat
    (Geometry.centeredOffset area source)
  Resampling.resize canvas tileWidth.toNat tileHeight.toNat

/-- A tile always has exactly the size that was asked for. -/
theorem composeTile_size (drawing : Picture) (tileWidth tileHeight : UInt32) :
    (composeTile drawing tileWidth tileHeight).width = tileWidth.toNat ∧
      (composeTile drawing tileWidth tileHeight).height = tileHeight.toNat :=
  Resampling.resize_size _ _ _

end DrawingDiary
