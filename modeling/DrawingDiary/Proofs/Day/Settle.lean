import DrawingDiary.Proofs.Day.Listing
import DrawingDiary.Proofs.Naming.Hour
import DrawingDiary.Proofs.Picture.Strip
import DrawingDiary.Day.Images

/-!
# What a refresh leaves at each hour

A state is read hour by hour: `ImageState.shown` is what it stores for an hour together
with the segment that the strip shows there. Storing a drawing and clearing an hour
change this pair at one hour only, so the whole refresh is known from what becomes of
each hour on its own. That is the main lemma, `shown_settle`: a drawing that was read
takes the place of what was there, an unchanged one keeps it, and any other hour ends
up cleared.
-/

namespace DrawingDiary

/-- What is stored for an hour, and what the strip shows there. -/
abbrev ShownHour := Option HourImage × Raster

/-- The load of the only look at an hour, if there is one. -/
def loadAt? (looks : List ImageLook) (hour : Hour) : Option ImageLoad :=
  (looks.find? fun look => look.hour = hour).map (·.load)

theorem loadAt?_cons (look : ImageLook) (rest : List ImageLook) (hour : Hour) :
    loadAt? (look :: rest) hour =
      if look.hour = hour then some look.load else loadAt? rest hour := by
  by_cases h : look.hour = hour <;> simp [loadAt?, h]

theorem loadAt?_eq_none_of_ne {looks : List ImageLook} {hour : Hour}
    (h : ∀ look ∈ looks, hour ≠ look.hour) : loadAt? looks hour = none := by
  rw [loadAt?, Option.map_eq_none_iff, List.find?_eq_none]
  intro look hlook
  simpa using (h look hlook).symm

/-- Every tile among some looks has the given size. -/
def TilesSized (width height : UInt32) (looks : List ImageLook) : Prop :=
  ∀ look ∈ looks, ∀ tile image, look.load = .loaded tile image →
    tile.width = width.toNat ∧ tile.height = height.toNat

/-- What becomes of an hour when a look at it is accepted. -/
def ImageLoad.accepted : ImageLoad → ShownHour → ShownHour
  | .loaded tile image, _ => (some image, tile)
  | _, before => before

/-- What becomes of an hour when it is cleared. -/
def ShownHour.cleared (width height : UInt32) (before : ShownHour) : ShownHour :=
  if before.1.isSome then (none, Strip.blankTile width height) else before

namespace ImageState

/-- What a state stores for an hour, and what its strip shows there. -/
def shown (s : ImageState) (hour : Hour) : ShownHour := (s.slots.at? hour, s.strip.segment hour)

section Sized

variable {s : ImageState} {width height : UInt32}

theorem sized_accept (sized : s.strip.Sized width height) (look : ImageLook) :
    (s.accept look).strip.Sized width height := by
  unfold accept
  split
  · exact sized.placeTile _ _
  · exact sized

theorem shown_accept (sides : AllowedSides width height) (sized : s.strip.Sized width height)
    {look : ImageLook} (tiles : TilesSized width height [look]) (hour : Hour) :
    (s.accept look).shown hour =
      if look.hour = hour then look.load.accepted (s.shown hour) else s.shown hour := by
  cases hload : look.load with
  | loaded tile image =>
      obtain ⟨hw, hh⟩ := tiles look List.mem_cons_self tile image hload
      simp only [accept, hload, shown]
      by_cases heq : look.hour = hour
      · subst heq
        rw [if_pos rfl, Slots.at?_put_self, Strip.segment_placeTile_self sides sized _ hw hh]
        rfl
      · rw [if_neg heq, Slots.at?_put, if_neg heq,
          Strip.segment_placeTile_of_ne sides sized heq hw]
  | unchanged => simp [accept, hload, ImageLoad.accepted]
  | failed => simp [accept, hload, ImageLoad.accepted]
  | aborted => simp [accept, hload, ImageLoad.accepted]

theorem sized_foldl_accept (sized : s.strip.Sized width height) (looks : List ImageLook) :
    (looks.foldl accept s).strip.Sized width height := by
  induction looks generalizing s with
  | nil => exact sized
  | cons look rest ih => exact ih (sized_accept sized look)

/-- Of several accepted looks at distinct hours, the one at an hour decides what is
shown there. -/
theorem shown_foldl_accept (sides : AllowedSides width height)
    (sized : s.strip.Sized width height) {looks : List ImageLook}
    (distinct : looks.Pairwise fun a b => a.hour ≠ b.hour)
    (tiles : TilesSized width height looks) (hour : Hour) :
    (looks.foldl accept s).shown hour =
      match loadAt? looks hour with
      | some load => load.accepted (s.shown hour)
      | none => s.shown hour := by
  induction looks generalizing s with
  | nil => rfl
  | cons look rest ih =>
      obtain ⟨hne, hrest⟩ := List.pairwise_cons.mp distinct
      have first : TilesSized width height [look] := fun l hl =>
        tiles l (List.mem_singleton.mp hl ▸ List.mem_cons_self)
      have others : TilesSized width height rest := fun l hl =>
        tiles l (List.mem_cons_of_mem _ hl)
      rw [List.foldl_cons, ih (sized_accept sized look) hrest others,
        shown_accept sides sized first, loadAt?_cons]
      by_cases heq : look.hour = hour
      · subst heq
        simp only [loadAt?_eq_none_of_ne hne, if_true]
      · simp only [if_neg heq]

theorem sized_clear (sized : s.strip.Sized width height) (hour : Hour) :
    (s.clear hour).strip.Sized width height := by
  unfold clear
  split
  · exact sized.clearHour _
  · exact sized

theorem shown_clear (sides : AllowedSides width height) (sized : s.strip.Sized width height)
    (cleared hour : Hour) :
    (s.clear cleared).shown hour =
      if cleared = hour then ShownHour.cleared width height (s.shown hour)
      else s.shown hour := by
  unfold clear
  by_cases heq : cleared = hour
  · subst heq
    by_cases hsome : (s.slots.at? cleared).isSome
    · simp [hsome, shown, ShownHour.cleared, Strip.segment_clearHour_self sides sized]
    · simp [hsome, shown, ShownHour.cleared]
  · by_cases hsome : (s.slots.at? cleared).isSome
    · simp [hsome, heq, shown, Slots.at?_put, Strip.segment_clearHour_of_ne sides sized heq]
    · simp [hsome, heq]

theorem sized_foldl_clear (sized : s.strip.Sized width height) (hours : List Hour) :
    (hours.foldl clear s).strip.Sized width height := by
  induction hours generalizing s with
  | nil => exact sized
  | cons hour rest ih => exact ih (sized_clear sized hour)

/-- Clearing an hour twice is clearing it once, so no order or repetition of the cleared
hours shows. -/
theorem shown_foldl_clear (sides : AllowedSides width height)
    (sized : s.strip.Sized width height) (hours : List Hour) (hour : Hour) :
    (hours.foldl clear s).shown hour =
      if hours.contains hour then ShownHour.cleared width height (s.shown hour)
      else s.shown hour := by
  induction hours generalizing s with
  | nil => rfl
  | cons first rest ih =>
      rw [List.foldl_cons, ih (sized_clear sized first), shown_clear sides sized]
      by_cases heq : first = hour
      · subst heq
        cases hslot : (s.shown first).1 <;> simp [ShownHour.cleared, hslot]
      · simp [heq, Ne.symm heq]

end Sized

theorem any_isPresent_eq {looks : List ImageLook}
    (distinct : looks.Pairwise fun a b => a.hour ≠ b.hour) (hour : Hour) :
    (looks.any fun look => look.hour = hour && look.load.isPresent) =
      ((loadAt? looks hour).map ImageLoad.isPresent).getD false := by
  induction looks with
  | nil => rfl
  | cons look rest ih =>
      obtain ⟨hne, hrest⟩ := List.pairwise_cons.mp distinct
      rw [List.any_cons, ih hrest, loadAt?_cons]
      by_cases heq : look.hour = hour
      · subst heq
        simp [loadAt?_eq_none_of_ne hne]
      · simp [heq]

section Settle

variable {s : ImageState} {width height : UInt32} {looks : List ImageLook}

/-- What becomes of an hour in a refresh, given the look at it, if there is one. -/
def afterLook (width height : UInt32) (load : Option ImageLoad) (before : ShownHour) :
    ShownHour :=
  match load with
  | some (.loaded tile image) => (some image, tile)
  | some .unchanged => before
  | _ => before.cleared width height

theorem afterLook_congr {load : ImageLoad} (changed : load ≠ .unchanged)
    {before other : ShownHour}
    (h : before.cleared width height = other.cleared width height) :
    afterLook width height (some load) before = afterLook width height (some load) other := by
  cases load with
  | loaded tile image => rfl
  | unchanged => exact absurd rfl changed
  | failed => exact h
  | aborted => exact h

theorem sized_settle (sized : s.strip.Sized width height) (looks : List ImageLook) :
    (s.settle looks).strip.Sized width height :=
  sized_foldl_clear (sized_foldl_accept sized looks) _

/-- A refresh does with every hour what the look at this hour says. -/
theorem shown_settle (sides : AllowedSides width height) (sized : s.strip.Sized width height)
    (distinct : looks.Pairwise fun a b => a.hour ≠ b.hour)
    (tiles : TilesSized width height looks) (hour : Hour) :
    (s.settle looks).shown hour =
      afterLook width height (loadAt? looks hour) (s.shown hour) := by
  have hpresent := any_isPresent_eq distinct hour
  change (List.foldl clear (looks.foldl accept s) _).shown hour = _
  rw [shown_foldl_clear sides (sized_foldl_accept sized looks),
    shown_foldl_accept sides sized distinct tiles]
  simp only [List.contains_iff_mem, List.mem_filter, mem_allHours, true_and, hpresent]
  cases loadAt? looks hour with
  | none => rfl
  | some load => cases load <;> rfl

theorem has_mask_settle (distinct : looks.Pairwise fun a b => a.hour ≠ b.hour) (hour : Hour) :
    (s.settle looks).mask.has hour =
      ((loadAt? looks hour).map ImageLoad.isPresent).getD false := by
  rw [← any_isPresent_eq distinct hour]
  exact HourMask.has_ofPred _ hour

theorem gate_foldl_accept (looks : List ImageLook) : (looks.foldl accept s).gate = s.gate := by
  induction looks generalizing s with
  | nil => rfl
  | cons look rest ih =>
      rw [List.foldl_cons, ih]
      unfold accept
      split <;> rfl

theorem gate_foldl_clear (hours : List Hour) : (hours.foldl clear s).gate = s.gate := by
  induction hours generalizing s with
  | nil => rfl
  | cons hour rest ih =>
      rw [List.foldl_cons, ih]
      unfold clear
      split <;> rfl

@[simp] theorem gate_settle (looks : List ImageLook) : (s.settle looks).gate = s.gate :=
  (gate_foldl_clear _).trans (gate_foldl_accept looks)

/-- After a refresh the thumbnail is the encoded form of the strip as it is then. -/
theorem encode_strip_settle (sides : AllowedSides width height)
    (sized : s.strip.Sized width height) (looks : List ImageLook) :
    (s.settle looks).strip.encode = some (s.settle looks).thumbnail := by
  obtain ⟨bytes, hbytes⟩ := (sized_settle sized looks).exists_encode sides
  rw [hbytes]
  exact congrArg some (by simp only [settle] at hbytes ⊢; simp [hbytes])

end Settle

end ImageState

end DrawingDiary
