/-!
# Decoded pictures

A picture is a grid of samples in one of eight colour layouts: luma or red,
green and blue, with or without alpha, at eight or sixteen bits per sample. The
sample bytes run row by row; a sixteen-bit sample is written with its high byte
first.
-/

namespace DrawingDiary

/-- The layout of one pixel. -/
inductive ColorType where
  | l8
  | la8
  | rgb8
  | rgba8
  | l16
  | la16
  | rgb16
  | rgba16
deriving DecidableEq, Repr

namespace ColorType

def channels : ColorType → Nat
  | .l8 | .l16 => 1
  | .la8 | .la16 => 2
  | .rgb8 | .rgb16 => 3
  | .rgba8 | .rgba16 => 4

def sampleBytes : ColorType → Nat
  | .l8 | .la8 | .rgb8 | .rgba8 => 1
  | .l16 | .la16 | .rgb16 | .rgba16 => 2

def pixelBytes (color : ColorType) : Nat := color.channels * color.sampleBytes

/-- The layout with the given number of samples and bytes per sample. -/
def ofLayout? : Nat → Nat → Option ColorType
  | 1, 1 => some .l8
  | 2, 1 => some .la8
  | 3, 1 => some .rgb8
  | 4, 1 => some .rgba8
  | 1, 2 => some .l16
  | 2, 2 => some .la16
  | 3, 2 => some .rgb16
  | 4, 2 => some .rgba16
  | _, _ => none

end ColorType

/-- A decoded picture. -/
structure Picture where
  width : Nat
  height : Nat
  color : ColorType
  /-- the samples, row by row -/
  samples : ByteArray
  size_samples : samples.size = width * height * color.pixelBytes

namespace Picture

/-- A picture from its samples, if there are as many as its size asks for. -/
def ofSamples? (width height : Nat) (color : ColorType) (samples : ByteArray) :
    Option Picture :=
  if h : samples.size = width * height * color.pixelBytes then
    some ⟨width, height, color, samples, h⟩
  else none

/-- The sample of a number, brought to eight bits: of sixteen bits the nearest
multiple of 257 is taken. -/
def sample (p : Picture) (i : Nat) : UInt8 :=
  match p.color.sampleBytes with
  | 1 => p.samples[i]?.getD 0
  | _ =>
    let high := (p.samples[2 * i]?.getD 0).toNat
    let low := (p.samples[2 * i + 1]?.getD 0).toNat
    ((256 * high + low + 128) / 257).toUInt8

end Picture

end DrawingDiary
