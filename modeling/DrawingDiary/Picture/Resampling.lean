import DrawingDiary.Picture.Raster

/-!
# Resampling with a cubic kernel

An output sample is a weighted sum of the input samples around its centre. The
weights come from the Catmull-Rom kernel, stretched when the picture shrinks,
and are divided by their sum. Rows are resampled first and columns second; only
the last result is brought back to whole samples. All arithmetic is in single
precision and in the order written here.
-/

namespace DrawingDiary.Resampling

/-- The Catmull-Rom kernel. -/
def kernel (x : Float32) : Float32 :=
  let a := x.abs
  let cube := a * (a * a)
  let square := a * a
  if a < 1 then ((9 * cube + (-15) * square) + 6) / 6
  else if a < 2 then (((-3) * cube + 15 * square + (-24) * a) + 12) / 6
  else 0

/-- A number cut to the natural numbers from `low` to `high`. -/
def clampToNat (low high : Nat) (x : Float32) : Nat :=
  max low (min high x.toUInt64.toNat)

/-- The input samples that count for an output sample: the first one, and the
weights of it and those after it. -/
structure Window where
  first : Nat
  weights : List Float32

/-- The window of output sample `o` when `n` samples become `m`. -/
def window (n m o : Nat) : Window :=
  let ratio := Float32.ofNat n / Float32.ofNat m
  let stretch := if ratio < 1 then 1 else ratio
  let reach := 2 * stretch
  let x := (Float32.ofNat o + 0.5) * ratio
  let first := clampToNat 0 (n - 1) (x - reach).floor
  let last := clampToNat (first + 1) n (x + reach).ceil
  let centre := x - 0.5
  let raw := (List.range (last - first)).map fun i =>
    kernel ((Float32.ofNat (first + i) - centre) / stretch)
  let total := raw.foldl (· + ·) 0
  ⟨first, raw.map (· / total)⟩

/-- A pixel between two passes. -/
structure Shade where
  red : Float32
  green : Float32
  blue : Float32
  alpha : Float32
deriving Inhabited

/-- The weighted sum of the inputs in a window. -/
def weigh (w : Window) (input : Nat → Shade) : Shade :=
  let step (acc : Shade × Nat) (weight : Float32) : Shade × Nat :=
    let p := input acc.2
    (⟨acc.1.red + p.red * weight, acc.1.green + p.green * weight,
      acc.1.blue + p.blue * weight, acc.1.alpha + p.alpha * weight⟩, acc.2 + 1)
  (w.weights.foldl step (⟨0, 0, 0, 0⟩, w.first)).1

def Shade.ofPixel (p : Pixel) : Shade :=
  ⟨p.red.toFloat32, p.green.toFloat32, p.blue.toFloat32, p.alpha.toFloat32⟩

/-- The nearest whole sample; a half goes away from zero. -/
def wholeSample (x : Float32) : UInt8 :=
  (if x < 0 then (0 : Float32) else if 255 < x then 255 else x).round.toUInt8

def Shade.toPixel (s : Shade) : Pixel :=
  ⟨wholeSample s.red, wholeSample s.green, wholeSample s.blue, wholeSample s.alpha⟩

/-- The raster resampled to another size. One that has the size already is left
alone. -/
def resize (r : Raster) (width height : Nat) : Raster :=
  if r.width = width ∧ r.height = height then r
  else
    let rowWindows := Array.ofFn fun o : Fin height => window r.height height o.val
    let columnWindows := Array.ofFn fun o : Fin width => window r.width width o.val
    let tall := Array.ofFn fun i : Fin (r.width * height) =>
      weigh (rowWindows.getD (i.val / r.width) ⟨0, []⟩) fun y =>
        Shade.ofPixel (r.pixelAt (i.val % r.width) y)
    Raster.ofFn width height fun x y =>
      (weigh (columnWindows.getD x ⟨0, []⟩) fun c =>
        tall.getD (y * r.width + c) default).toPixel

/-- A resampled raster has the size that was asked for. -/
theorem resize_size (r : Raster) (width height : Nat) :
    (resize r width height).width = width ∧ (resize r width height).height = height := by
  by_cases h : r.width = width ∧ r.height = height
  · rw [resize, if_pos h]
    exact h
  · rw [resize, if_neg h]
    exact ⟨rfl, rfl⟩

end DrawingDiary.Resampling
