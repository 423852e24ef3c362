import DrawingDiary.Picture.Raster

/-!
# What a copied raster shows

A raster is known by its pixels: two rasters of one size that show the same pixel at
every column and row are equal (`Raster.ext_pixelAt`). The main lemma,
`pixelAt_place`, says what a canvas shows after a tile was copied into its first rows:
inside the copied rectangle the tile, everywhere else what it showed before. The buffer
offset `y * width + x` occurs in the lemmas about `copyRow` and `copyRows` only.
-/

namespace DrawingDiary

namespace Raster

theorem getD_copyRow (r : Raster) (y offset columns : Nat) (buffer : Array Pixel) (j : Nat)
    (d : Pixel) :
    (copyRow r y offset columns buffer).getD j d =
      if offset ≤ j ∧ j < offset + columns ∧ j < buffer.size then r.pixelAt (j - offset) y
      else buffer.getD j d := by
  induction columns with
  | zero =>
      have h : ¬ (offset ≤ j ∧ j < offset + 0 ∧ j < buffer.size) := by omega
      rw [if_neg h, copyRow]
  | succ columns ih =>
      rw [copyRow, Array.getD_eq_getD_getElem?, Array.getElem?_setIfInBounds, size_copyRow]
      by_cases hj : offset + columns = j
      · subst hj
        by_cases hb : offset + columns < buffer.size
        · have h : offset ≤ offset + columns ∧ offset + columns < offset + (columns + 1) ∧
              offset + columns < buffer.size := by omega
          simp [hb]
        · simp [hb]
      · rw [if_neg hj, ← Array.getD_eq_getD_getElem?, ih]
        by_cases h : offset ≤ j ∧ j < offset + columns ∧ j < buffer.size
        · rw [if_pos h, if_pos (by omega)]
        · rw [if_neg h, if_neg (by omega)]

/-- An offset belongs to a row of the copied rectangle only if it is in that row of the
buffer. -/
theorem offset_mem_row_iff {width left columns x : Nat} (y row : Nat) (hx : x < width)
    (hfit : left + columns ≤ width) :
    (row * width + left ≤ y * width + x ∧ y * width + x < row * width + left + columns) ↔
      y = row ∧ left ≤ x ∧ x < left + columns := by
  constructor
  · intro h
    rcases h with ⟨hlow, hhigh⟩
    have hrow : y = row := by
      rcases Nat.lt_trichotomy y row with h | h | h
      · have := Nat.mul_le_mul_right width (Nat.succ_le_of_lt h)
        rw [Nat.succ_mul] at this
        omega
      · exact h
      · have := Nat.mul_le_mul_right width (Nat.succ_le_of_lt h)
        rw [Nat.succ_mul] at this
        omega
    subst hrow
    omega
  · intro h
    rcases h with ⟨rfl, hlow, hhigh⟩
    omega

/-- Copying rows writes a rectangle: `columns` wide from column `left` on, and `rows`
high from the first row on. -/
theorem getD_copyRows (r : Raster) {width left columns : Nat} (rows : Nat)
    (buffer : Array Pixel) {x y : Nat} (d : Pixel) (hx : x < width)
    (hfit : left + columns ≤ width) :
    (copyRows r width left columns rows buffer).getD (y * width + x) d =
      if y < rows ∧ left ≤ x ∧ x < left + columns ∧ y * width + x < buffer.size then
        r.pixelAt (x - left) y
      else buffer.getD (y * width + x) d := by
  induction rows with
  | zero => simp [copyRows]
  | succ rows ih =>
      have hrow := offset_mem_row_iff y rows hx hfit
      rw [copyRows, getD_copyRow, size_copyRows, ih]
      by_cases hy : y = rows
      · subst hy
        have hsub : y * width + x - (y * width + left) = x - left := by omega
        by_cases h : left ≤ x ∧ x < left + columns ∧ y * width + x < buffer.size
        · rw [if_pos (by omega), if_pos (by omega), hsub]
        · rw [if_neg (by omega), if_neg (by omega), if_neg (by omega)]
      · have hout : ¬ (rows * width + left ≤ y * width + x ∧
            y * width + x < rows * width + left + columns ∧ y * width + x < buffer.size) :=
          fun h => hy (hrow.mp ⟨h.1, h.2.1⟩).1
        rw [if_neg hout]
        by_cases h : y < rows ∧ left ≤ x ∧ x < left + columns ∧ y * width + x < buffer.size
        · rw [if_pos h, if_pos (by omega)]
        · rw [if_neg h, if_neg (by omega)]

theorem pixelAt_of_lt (r : Raster) {x y : Nat} (hx : x < r.width) (hy : y < r.height) :
    r.pixelAt x y = r.pixels.getD (y * r.width + x) .transparent :=
  if_pos ⟨hx, hy⟩

theorem pixelAt_of_not_lt (r : Raster) {x y : Nat} (h : ¬ (x < r.width ∧ y < r.height)) :
    r.pixelAt x y = .transparent :=
  if_neg h

theorem offset_lt (r : Raster) {x y : Nat} (hx : x < r.width) (hy : y < r.height) :
    y * r.width + x < r.pixels.size := by
  have h := Nat.mul_le_mul_right r.width (Nat.succ_le_of_lt hy)
  rw [Nat.succ_mul, Nat.mul_comm r.height] at h
  rw [r.size_pixels]
  omega

/-- Two rasters of one size that show the same pixels are equal. -/
theorem ext_pixelAt {r s : Raster} (hw : r.width = s.width) (hh : r.height = s.height)
    (h : ∀ x y, x < r.width → y < r.height → r.pixelAt x y = s.pixelAt x y) : r = s := by
  obtain ⟨w, t, p, hp⟩ := r
  obtain ⟨w', t', q, hq⟩ := s
  obtain rfl : w = w' := hw
  obtain rfl : t = t' := hh
  have hpq : p = q := by
    apply Array.ext (hp.trans hq.symm)
    intro i hi hi'
    have hw : 0 < w := by
      rcases Nat.eq_zero_or_pos w with rfl | hpos
      · rw [hp, Nat.zero_mul] at hi
        exact absurd hi (Nat.not_lt_zero i)
      · exact hpos
    have hx : i % w < w := Nat.mod_lt i hw
    have hy : i / w < t := Nat.div_lt_of_lt_mul (hp ▸ hi)
    have hi_eq : i / w * w + i % w = i := by
      rw [Nat.mul_comm]
      exact Nat.div_add_mod i w
    have hpix := h (i % w) (i / w) hx hy
    rw [pixelAt_of_lt _ hx hy, pixelAt_of_lt _ hx hy] at hpix
    simpa [hi_eq, Array.getD, hi, hi'] using hpix
  subst hpq
  rfl

@[simp] theorem pixelAt_filled (width height : Nat) (pixel : Pixel) {x y : Nat}
    (hx : x < width) (hy : y < height) : (filled width height pixel).pixelAt x y = pixel := by
  have hlt := offset_lt (filled width height pixel) hx hy
  rw [pixelAt_of_lt _ hx hy]
  simp only [filled, Array.size_replicate] at hlt ⊢
  simp [Array.getD, hlt]

theorem pixelAt_filled_transparent (width height x y : Nat) :
    (filled width height .transparent).pixelAt x y = .transparent := by
  by_cases h : x < width ∧ y < height
  · exact pixelAt_filled width height .transparent h.1 h.2
  · exact pixelAt_of_not_lt _ h

theorem pixelAt_ofFn (width height : Nat) (f : Nat → Nat → Pixel) {x y : Nat}
    (hx : x < width) (hy : y < height) : (ofFn width height f).pixelAt x y = f x y := by
  have hlt := offset_lt (ofFn width height f) hx hy
  have hmod : (y * width + x) % width = x := by
    rw [Nat.mul_comm, Nat.mul_add_mod, Nat.mod_eq_of_lt hx]
  have hdiv : (y * width + x) / width = y := by
    rw [Nat.mul_comm, Nat.mul_add_div (Nat.lt_of_le_of_lt (Nat.zero_le x) hx),
      Nat.div_eq_of_lt hx, Nat.add_zero]
  rw [pixelAt_of_lt _ hx hy]
  simp only [ofFn, Array.size_ofFn] at hlt ⊢
  simp [Array.getD, hlt, hmod, hdiv]

theorem pixelAt_columns (r : Raster) (left count : Nat) {x y : Nat} (hx : x < count)
    (hy : y < r.height) : (r.columns left count).pixelAt x y = r.pixelAt (left + x) y :=
  pixelAt_ofFn _ _ _ hx hy

/-- Inside the copied rectangle the canvas shows the tile, everywhere else what it
showed before. -/
theorem pixelAt_place (canvas tile : Raster) {left : Nat} (hleft : left ≤ canvas.width)
    {x y : Nat} (hx : x < canvas.width) (hy : y < canvas.height) :
    (canvas.place tile left).pixelAt x y =
      if left ≤ x ∧ x < left + tile.width ∧ y < tile.height then tile.pixelAt (x - left) y
      else canvas.pixelAt x y := by
  have hlt := offset_lt canvas hx hy
  have hfit : left + min tile.width (canvas.width - left) ≤ canvas.width := by omega
  rw [pixelAt_of_lt (canvas.place tile left) hx hy, pixelAt_of_lt canvas hx hy]
  simp only [place]
  rw [getD_copyRows tile _ canvas.pixels _ hx hfit]
  by_cases h : left ≤ x ∧ x < left + tile.width ∧ y < tile.height
  · rw [if_pos h, if_pos (by omega)]
  · rw [if_neg h, if_neg (by omega)]

@[simp] theorem isTransparent_filled (width height : Nat) :
    (filled width height .transparent).isTransparent = true := by
  simp only [isTransparent, filled]
  rw [Array.all_eq_true]
  intro i hi
  simp

end Raster

end DrawingDiary
