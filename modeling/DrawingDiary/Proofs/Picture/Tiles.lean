import DrawingDiary.Proofs.Picture.Strip
import Mathlib.Data.List.Induction

/-!
# A strip as an array of tiles

The segments of a strip share one buffer, and yet a strip is no more than an array with a
tile for each hour. What one write does to the segments it does to such an array
(`segment_write`), so any writes to a new strip leave in each segment what they leave in
the array (`segment_writes`): the tile of the last write to this hour. `refines_tiles` puts
this together with the size of the canvas, with the hours that no clock has, and with the
order of writes to different hours.
-/

namespace DrawingDiary

open DrawingDiary.Geometry (segmentLeft)

/-- Something that is written to a strip at an hour, which need not be on a clock: the tile of
a drawing, or nothing in its place. -/
inductive TileWrite where
  | place (hour : UInt32) (drawing : Picture)
  | clear (hour : UInt32)

namespace TileWrite

def hour : TileWrite → UInt32
  | .place hour _ => hour
  | .clear hour => hour

/-- The tile that a write leaves at its hour. -/
def tile (width height : UInt32) : TileWrite → Raster
  | .place _ drawing => composeTile drawing width height
  | .clear _ => Strip.blankTile width height

def onTiles (width height : UInt32) (tiles : Hour → Raster) (write : TileWrite) :
    Hour → Raster := fun hour =>
  if write.hour.toNat = hour.val then write.tile width height else tiles hour

/-- The drawing that the last write to an hour placed there, unless that write cleared it. -/
def shown? (writes : List TileWrite) (hour : Hour) : Option Picture :=
  match (writes.filter fun write => write.hour.toNat = hour.val).getLast? with
  | some (.place _ drawing) => some drawing
  | _ => none

theorem tile_size (width height : UInt32) (write : TileWrite) :
    (write.tile width height).width = width.toNat ∧
      (write.tile width height).height = height.toNat := by
  cases write with
  | place hour drawing => exact composeTile_size drawing width height
  | clear hour => exact ⟨rfl, rfl⟩

theorem foldl_onTiles (width height : UInt32) (tiles : Hour → Raster) (writes : List TileWrite)
    (hour : Hour) :
    writes.foldl (onTiles width height) tiles hour =
      match (writes.filter fun write => write.hour.toNat = hour.val).getLast? with
      | some write => write.tile width height
      | none => tiles hour := by
  induction writes using List.reverseRecOn with
  | nil => rfl
  | append_singleton writes last ih =>
      rw [List.foldl_append, List.filter_append, List.getLast?_append]
      by_cases h : last.hour.toNat = hour.val
      · simp [onTiles, h]
      · simp [onTiles, h, ih]

end TileWrite

theorem hourWord_of_lt {hour : UInt32} (h : hour.toNat < hoursPerDay) :
    hourWord ⟨hour.toNat, h⟩ = hour :=
  UInt32.toNat_inj.mp (toNat_hourWord _)

namespace Strip

def write (s : Strip) : TileWrite → Strip
  | .place hour drawing => s.placeTile hour (composeTile drawing s.tileWidth s.tileHeight)
  | .clear hour => s.clearHour hour

theorem write_eq_placeTile (s : Strip) (write : TileWrite) :
    s.write write = s.placeTile write.hour (write.tile s.tileWidth s.tileHeight) := by
  cases write <;> rfl

theorem write_of_not_lt (s : Strip) {write : TileWrite} (h : ¬ write.hour.toNat < hoursPerDay) :
    s.write write = s := by
  rw [write_eq_placeTile, placeTile, if_neg h]

section Allowed

variable {s : Strip} {width height : UInt32}

theorem Sized.write (sized : s.Sized width height) (write : TileWrite) :
    (s.write write).Sized width height := by
  rw [write_eq_placeTile]
  exact sized.placeTile _ _

/-- A write does to the segments of a strip what it does to an array of tiles. -/
theorem segment_write (sides : AllowedSides width height) (sized : s.Sized width height)
    (write : TileWrite) (hour : Hour) :
    (s.write write).segment hour = write.onTiles width height s.segment hour := by
  unfold TileWrite.onTiles
  by_cases h : write.hour.toNat < hoursPerDay
  · obtain ⟨hwidth, hheight⟩ := write.tile_size width height
    rw [write_eq_placeTile, sized.tileWidth, sized.tileHeight, ← hourWord_of_lt h,
      toNat_hourWord]
    by_cases hsame : (⟨write.hour.toNat, h⟩ : Hour) = hour
    · rw [hsame, if_pos rfl]
      exact segment_placeTile_self sides sized hour hwidth hheight
    · rw [if_neg (Fin.val_ne_of_ne hsame)]
      exact segment_placeTile_of_ne sides sized hsame hwidth
  · rw [s.write_of_not_lt h, if_neg]
    intro hsame
    exact h (hsame ▸ hour.isLt)

/-- What some writes leave in a strip: a canvas of the same size, and in the segments what
they leave in an array of tiles. -/
theorem segment_writes (sides : AllowedSides width height) (sized : s.Sized width height)
    (writes : List TileWrite) :
    (writes.foldl write s).Sized width height ∧
      (writes.foldl write s).segment = writes.foldl (TileWrite.onTiles width height) s.segment := by
  induction writes generalizing s with
  | nil => exact ⟨sized, rfl⟩
  | cons first rest ih =>
      have step : (s.write first).segment = first.onTiles width height s.segment :=
        funext (segment_write sides sized first)
      rw [List.foldl_cons, List.foldl_cons, ← step]
      exact ih (sized.write first)

theorem write_comm (sides : AllowedSides width height) (sized : s.Sized width height)
    {first second : TileWrite} (h : first.hour ≠ second.hour) :
    (s.write first).write second = (s.write second).write first := by
  have hne : first.hour.toNat ≠ second.hour.toNat := fun heq => h (UInt32.toNat_inj.mp heq)
  refine ext_segment ((sized.write first).write second) ((sized.write second).write first) ?_
  intro hour
  rw [segment_write sides (sized.write first), segment_write sides (sized.write second),
    TileWrite.onTiles, TileWrite.onTiles, segment_write sides sized, segment_write sides sized,
    TileWrite.onTiles, TileWrite.onTiles]
  by_cases hfirst : first.hour.toNat = hour.val
  · rw [if_neg (fun hsecond => hne (hfirst.trans hsecond.symm)), if_pos hfirst, if_pos hfirst]
  · rw [if_neg hfirst, if_neg hfirst]

theorem toNat_segmentLeft_of_lt (sides : AllowedSides width height) {hour : UInt32}
    (h : hour.toNat < hoursPerDay) :
    (segmentLeft hour width).toNat = hour.toNat * width.toNat := by
  have hleft := toNat_segmentLeft sides ⟨hour.toNat, h⟩
  rwa [hourWord_of_lt h] at hleft

/-- A strip with allowed sides is an array of twenty-four tiles. Whatever was placed and
cleared at whatever hours, the canvas has the size of all tiles, and each segment shows what
is left in such an array: the tile of the drawing placed last and not cleared since, or
nothing. A write at an hour from twenty-four on changes nothing, and writes to different
hours can be made in either order. Neither the width of the canvas nor the left edge of a
segment overflows. -/
theorem refines_tiles (sides : AllowedSides width height) (writes : List TileWrite) :
    let strip := writes.foldl write (blank width height)
    (strip.canvas.width = hoursPerDay * width.toNat ∧ strip.canvas.height = height.toNat) ∧
    (∀ drawing, (composeTile drawing width height).width = width.toNat ∧
      (composeTile drawing width height).height = height.toNat) ∧
    (∀ hour, strip.segment hour = writes.foldl (TileWrite.onTiles width height)
        (fun _ => blankTile width height) hour ∧
      strip.segment hour = match TileWrite.shown? writes hour with
        | some drawing => composeTile drawing width height
        | none => blankTile width height) ∧
    (∀ next : TileWrite, hoursPerDay ≤ next.hour.toNat → strip.write next = strip) ∧
    (∀ first second : TileWrite, first.hour ≠ second.hour →
      (strip.write first).write second = (strip.write second).write first) ∧
    (width * hoursPerDay.toUInt32).toNat = width.toNat * hoursPerDay ∧
    ∀ hour : UInt32, hour.toNat < hoursPerDay →
      (segmentLeft hour width).toNat = hour.toNat * width.toNat := by
  intro strip
  have new := sized_blank sides
  obtain ⟨sized, hsegments⟩ := segment_writes sides new writes
  have hblank : (blank width height).segment = fun _ => blankTile width height :=
    funext (segment_blank sides)
  rw [hblank] at hsegments
  refine ⟨⟨sized.canvasWidth, sized.canvasHeight⟩,
    fun drawing => composeTile_size drawing width height, fun hour => ?_,
    fun next h => strip.write_of_not_lt (Nat.not_lt.mpr h),
    fun _ _ h => write_comm sides sized h, ?_, fun _ h => toNat_segmentLeft_of_lt sides h⟩
  · have hhour := congrFun hsegments hour
    refine ⟨hhour, hhour.trans ?_⟩
    rw [TileWrite.foldl_onTiles, TileWrite.shown?]
    cases (writes.filter fun write => write.hour.toNat = hour.val).getLast? with
    | none => rfl
    | some last => cases last <;> rfl
  · exact new.canvasWidth.trans (Nat.mul_comm _ _)

theorem refines_tiles_placedAndCleared :
    AllowedSides 2 3 ∧
      let strip := [TileWrite.place 5 ⟨1, 1, .l8, ⟨#[255]⟩, rfl⟩, .clear 24, .place 6
        ⟨1, 1, .l8, ⟨#[7]⟩, rfl⟩, .clear 6].foldl write (blank 2 3)
      strip.segment 5 = composeTile ⟨1, 1, .l8, ⟨#[255]⟩, rfl⟩ 2 3 ∧
        strip.segment 6 = blankTile 2 3 ∧ strip.canvas.width = 48 := by
  have sides : AllowedSides 2 3 := ⟨by decide, by decide, by decide, by decide⟩
  obtain ⟨⟨hwidth, -⟩, -, hsegment, -⟩ := refines_tiles sides [TileWrite.place 5
    ⟨1, 1, .l8, ⟨#[255]⟩, rfl⟩, .clear 24, .place 6 ⟨1, 1, .l8, ⟨#[7]⟩, rfl⟩, .clear 6]
  exact ⟨sides, (hsegment 5).2, (hsegment 6).2, hwidth⟩

end Allowed

end Strip

end DrawingDiary
