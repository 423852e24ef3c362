import DrawingDiary.Picture.Strip
import DrawingDiary.Proofs.Picture.Raster

/-!
# A strip as twenty-four tiles

With tile sides that a configuration may ask for, the segments of a strip lie side by
side on its canvas and no product of an hour and a width wraps. So a strip is the same
as its twenty-four segments (`Strip.ext_segment`): writing a tile of the right size
shows exactly this tile in the segment of its hour (`segment_placeTile_self`) and leaves
every other segment alone (`segment_placeTile_of_ne`).
-/

namespace DrawingDiary

/-- Tile sides from one pixel up to the largest one that may be asked for. -/
structure AllowedSides (width height : UInt32) : Prop where
  width_pos : 0 < width.toNat
  width_le : width.toNat ≤ maxTileSide.toNat
  height_pos : 0 < height.toNat
  height_le : height.toNat ≤ maxTileSide.toNat

@[simp] theorem toNat_hourWord (hour : Hour) : (hourWord hour).toNat = hour.val := by
  have h : hour.val < 24 := hour.isLt
  simp only [hourWord, Nat.toUInt32, UInt32.toNat_ofNat']
  omega

namespace Strip

/-- A strip with tiles of the given sides, and a canvas for exactly these tiles. -/
structure Sized (s : Strip) (width height : UInt32) : Prop where
  tileWidth : s.tileWidth = width
  tileHeight : s.tileHeight = height
  canvasWidth : s.canvas.width = hoursPerDay * width.toNat
  canvasHeight : s.canvas.height = height.toNat

abbrev blankTile (width height : UInt32) : Raster :=
  Raster.filled width.toNat height.toNat .transparent

section Allowed

variable {s t : Strip} {width height : UInt32}

theorem toNat_segmentLeft (sides : AllowedSides width height) (hour : Hour) :
    (Geometry.segmentLeft (hourWord hour) width).toNat = hour.val * width.toNat := by
  have hw : width.toNat ≤ 4096 := sides.width_le
  have hh : hour.val < 24 := hour.isLt
  have hprod : hour.val * width.toNat ≤ 23 * 4096 := Nat.mul_le_mul (by omega) hw
  rw [Geometry.segmentLeft, UInt32.toNat_mul, toNat_hourWord, Nat.mod_eq_of_lt (by omega)]

theorem Sized.segment_le (sized : s.Sized width height) (hour : Hour) :
    hour.val * width.toNat + width.toNat ≤ s.canvas.width := by
  have h := Nat.mul_le_mul_right width.toNat (Nat.succ_le_of_lt hour.isLt)
  rw [Nat.succ_mul] at h
  rw [sized.canvasWidth]
  exact h

theorem sized_blank (sides : AllowedSides width height) :
    (blank width height).Sized width height := by
  have hw : width.toNat ≤ 4096 := sides.width_le
  have hcanvas : (width * hoursPerDay.toUInt32).toNat = hoursPerDay * width.toNat := by
    have hday : (hoursPerDay.toUInt32).toNat = 24 := rfl
    rw [UInt32.toNat_mul, hday, Nat.mod_eq_of_lt (by omega), Nat.mul_comm]
  exact ⟨rfl, rfl, hcanvas, rfl⟩

theorem Sized.placeTile (sized : s.Sized width height) (hour : UInt32) (tile : Raster) :
    (s.placeTile hour tile).Sized width height := by
  unfold Strip.placeTile
  split
  · exact ⟨sized.tileWidth, sized.tileHeight, sized.canvasWidth, sized.canvasHeight⟩
  · exact sized

theorem Sized.clearHour (sized : s.Sized width height) (hour : UInt32) :
    (s.clearHour hour).Sized width height :=
  sized.placeTile hour _

theorem width_segment (sized : s.Sized width height) (hour : Hour) :
    (s.segment hour).width = width.toNat := by
  rw [← sized.tileWidth]
  rfl

theorem height_segment (sized : s.Sized width height) (hour : Hour) :
    (s.segment hour).height = height.toNat :=
  sized.canvasHeight

theorem pixelAt_segment (sized : s.Sized width height) (hour : Hour) {x y : Nat}
    (hx : x < width.toNat) (hy : y < height.toNat) :
    (s.segment hour).pixelAt x y = s.canvas.pixelAt (hour.val * width.toNat + x) y := by
  rw [segment, sized.tileWidth]
  exact Raster.pixelAt_columns s.canvas _ _ hx (by rwa [sized.canvasHeight])

theorem pixelAt_placeTile (sides : AllowedSides width height) (sized : s.Sized width height)
    (hour : Hour) (tile : Raster) {x y : Nat} (hx : x < s.canvas.width)
    (hy : y < s.canvas.height) :
    (s.placeTile (hourWord hour) tile).canvas.pixelAt x y =
      if hour.val * width.toNat ≤ x ∧ x < hour.val * width.toNat + tile.width ∧
          y < tile.height then
        tile.pixelAt (x - hour.val * width.toNat) y
      else s.canvas.pixelAt x y := by
  have hhour : (hourWord hour).toNat < hoursPerDay := by
    rw [toNat_hourWord]
    exact hour.isLt
  have hleft : (Geometry.segmentLeft (hourWord hour) s.tileWidth).toNat =
      hour.val * width.toNat := by
    rw [sized.tileWidth, toNat_segmentLeft sides]
  have hend := sized.segment_le hour
  simp only [placeTile, if_pos hhour]
  rw [Raster.pixelAt_place s.canvas tile (by omega) hx hy, hleft]

/-- A placed tile of the right size is what its segment shows. -/
theorem segment_placeTile_self (sides : AllowedSides width height)
    (sized : s.Sized width height) (hour : Hour) {tile : Raster}
    (hw : tile.width = width.toNat) (hh : tile.height = height.toNat) :
    (s.placeTile (hourWord hour) tile).segment hour = tile := by
  have placed := sized.placeTile (hourWord hour) tile
  apply Raster.ext_pixelAt ((width_segment placed hour).trans hw.symm)
    ((height_segment placed hour).trans hh.symm)
  intro x y hx hy
  rw [width_segment placed] at hx
  rw [height_segment placed] at hy
  have hend := sized.segment_le hour
  have hcanvas := sized.canvasHeight
  rw [pixelAt_segment placed hour hx hy,
    pixelAt_placeTile sides sized hour tile (by omega) (by omega), if_pos (by omega),
    Nat.add_sub_cancel_left]

/-- A tile of the right size leaves the segments of the other hours alone. -/
theorem segment_placeTile_of_ne (sides : AllowedSides width height)
    (sized : s.Sized width height) {hour other : Hour} (hne : hour ≠ other) {tile : Raster}
    (hw : tile.width = width.toNat) :
    (s.placeTile (hourWord hour) tile).segment other = s.segment other := by
  have placed := sized.placeTile (hourWord hour) tile
  apply Raster.ext_pixelAt ((width_segment placed other).trans (width_segment sized other).symm)
    ((height_segment placed other).trans (height_segment sized other).symm)
  intro x y hx hy
  rw [width_segment placed] at hx
  rw [height_segment placed] at hy
  have hend := sized.segment_le other
  have hcanvas := sized.canvasHeight
  have hval : hour.val ≠ other.val := fun h => hne (Fin.ext h)
  have hout : ¬ (hour.val * width.toNat ≤ other.val * width.toNat + x ∧
      other.val * width.toNat + x < hour.val * width.toNat + width.toNat) := by
    intro h
    have hfit : 0 + width.toNat ≤ width.toNat := Nat.le_of_eq (Nat.zero_add _)
    have hrow := Raster.offset_mem_row_iff other.val hour.val hx hfit
    exact hval (hrow.mp ⟨h.1, h.2⟩).1.symm
  rw [pixelAt_segment placed other hx hy, pixelAt_segment sized other hx hy,
    pixelAt_placeTile sides sized hour tile (by omega) (by omega), if_neg (by omega)]

theorem segment_clearHour_self (sides : AllowedSides width height)
    (sized : s.Sized width height) (hour : Hour) :
    (s.clearHour (hourWord hour)).segment hour = blankTile width height := by
  rw [clearHour, sized.tileWidth, sized.tileHeight]
  exact segment_placeTile_self sides sized hour rfl rfl

theorem segment_clearHour_of_ne (sides : AllowedSides width height)
    (sized : s.Sized width height) {hour other : Hour} (hne : hour ≠ other) :
    (s.clearHour (hourWord hour)).segment other = s.segment other := by
  rw [clearHour, sized.tileWidth, sized.tileHeight]
  exact segment_placeTile_of_ne sides sized hne rfl

theorem segment_blank (sides : AllowedSides width height) (hour : Hour) :
    (blank width height).segment hour = blankTile width height := by
  have sized := sized_blank sides
  apply Raster.ext_pixelAt (width_segment sized hour) (height_segment sized hour)
  intro x y hx hy
  rw [width_segment sized] at hx
  rw [height_segment sized] at hy
  rw [pixelAt_segment sized hour hx hy, blank, Raster.pixelAt_filled_transparent,
    Raster.pixelAt_filled_transparent]

/-- Two strips of one size that show the same for every hour are equal. -/
theorem ext_segment (hs : s.Sized width height) (ht : t.Sized width height)
    (h : ∀ hour, s.segment hour = t.segment hour) : s = t := by
  have hcanvas : s.canvas = t.canvas := by
    apply Raster.ext_pixelAt (hs.canvasWidth.trans ht.canvasWidth.symm)
      (hs.canvasHeight.trans ht.canvasHeight.symm)
    intro x y hx hy
    rw [hs.canvasWidth] at hx
    rw [hs.canvasHeight] at hy
    have hpos : 0 < width.toNat := Nat.pos_of_mul_pos_left (Nat.zero_lt_of_lt hx)
    let hour : Hour := ⟨x / width.toNat, Nat.div_lt_of_lt_mul (by rwa [Nat.mul_comm])⟩
    have hmod : x % width.toNat < width.toNat := Nat.mod_lt x hpos
    have hx_eq : hour.val * width.toNat + x % width.toNat = x := by
      rw [Nat.mul_comm]
      exact Nat.div_add_mod x width.toNat
    have hpix := congrArg (fun r => r.pixelAt (x % width.toNat) y) (h hour)
    rwa [pixelAt_segment hs hour hmod hy, pixelAt_segment ht hour hmod hy, hx_eq] at hpix
  obtain ⟨canvas, w, l⟩ := s
  obtain ⟨canvas', w', l'⟩ := t
  obtain rfl : canvas = canvas' := hcanvas
  obtain rfl : w = w' := hs.tileWidth.trans ht.tileWidth.symm
  obtain rfl : l = l' := hs.tileHeight.trans ht.tileHeight.symm
  rfl

theorem Sized.exists_encode (sides : AllowedSides width height)
    (sized : s.Sized width height) : ∃ bytes, s.encode = some bytes := by
  have hw : s.canvas.toPicture.width = hoursPerDay * width.toNat := sized.canvasWidth
  have hh : s.canvas.toPicture.height = height.toNat := sized.canvasHeight
  have hwidth : 0 < hoursPerDay * width.toNat := Nat.mul_pos (by decide) sides.width_pos
  have hheight := sides.height_pos
  have h : ¬ (s.canvas.toPicture.width = 0 ∨ s.canvas.toPicture.height = 0) := by omega
  rw [encode, Png.encode, if_neg h]
  exact ⟨_, rfl⟩

end Allowed

end Strip

end DrawingDiary
