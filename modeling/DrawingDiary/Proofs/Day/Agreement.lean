import DrawingDiary.Proofs.Day.Reached

/-!
# Slots, mask, strip and thumbnail agree

A day keeps its drawings in four forms: stored files, a mask, a strip and the encoded
strip. `ImagesAgree` says that all of them show the same pictures, the ones noted in the
past of the day. It holds of a new day and is kept by a refresh, whatever the disk and
the reader do, so it holds of every day that calls lead to (`Reached.imagesAgree`). The
argument is by hours: what one look does to its hour keeps `HourAgrees`.
-/

namespace DrawingDiary

open Naming (HourlyKind)

/-- An hour that shows one picture in both forms, or nothing. -/
inductive HourAgrees (width height : UInt32) : ShownHour → Option Picture → Prop where
  | empty : HourAgrees width height (none, Strip.blankTile width height) none
  | filled {picture : Picture} {image : HourImage} :
      Png.encode picture = some image.data →
      HourAgrees width height (some image, composeTile picture width height) (some picture)

theorem HourAgrees.cleared {width height : UInt32} {shown : ShownHour}
    {source : Option Picture} (agrees : HourAgrees width height shown source) :
    HourAgrees width height (shown.cleared width height) none := by
  cases agrees <;> exact .empty

/-- What a refresh makes of the end of a read. -/
def ImageLoad.ofRead (settings : DaySettings) (moment : Timestamp) :
    ReadResult Picture → ImageLoad
  | .success picture => .ofPicture settings moment picture
  | .failure _ => .failed
  | .aborted => .aborted

theorem ImageLoad.ofRead_ne_unchanged (settings : DaySettings) (moment : Timestamp)
    (read : ReadResult Picture) : ofRead settings moment read ≠ .unchanged := by
  cases read with
  | success picture => cases h : Png.encode picture <;> simp [ofRead, ofPicture, h]
  | failure cause => simp [ofRead]
  | aborted => simp [ofRead]

theorem fst_cleared (width height : UInt32) (shown : ShownHour) :
    (shown.cleared width height).1 = none := by
  unfold ShownHour.cleared
  split
  · rfl
  next h => simpa using h

namespace Day

variable {view : View} {day : Day}

@[simp] theorem hour_ofFile (view : View) (settings : DaySettings) (known : Option Timestamp)
    (file : HourlyFile) : (ImageLook.ofFile view settings known file).hour = file.hour := by
  unfold ImageLook.ofFile
  repeat' split
  all_goals rfl

theorem pairwise_hour_imageLooks (view : View) (day : Day) :
    (day.imageLooks view).Pairwise fun a b => a.hour ≠ b.hour := by
  rw [imageLooks, List.pairwise_map]
  simpa using day.pairwise_hour_files .image view.disk

theorem hour_of_file? {kind : HourlyKind} {disk : Disk} {hour : Hour} {file : HourlyFile}
    (h : day.file? kind disk hour = some file) : file.hour = hour := by
  simpa using List.find?_some h

/-- The look at an hour is the look at the file that counts for it. -/
theorem loadAt?_imageLooks (view : View) (day : Day) (hour : Hour) :
    loadAt? (day.imageLooks view) hour =
      (day.file? .image view.disk hour).map fun file =>
        (ImageLook.ofFile view day.settings (day.knownModified hour) file).load := by
  have hfind : (day.imageLooks view).find? (fun look => look.hour = hour) =
      (day.file? .image view.disk hour).map fun file =>
        ImageLook.ofFile view day.settings (day.knownModified file.hour) file := by
    rw [imageLooks, List.find?_map, file?]
    simp only [Function.comp_def, hour_ofFile]
  rw [loadAt?, hfind, Option.map_map]
  cases hfile : day.file? .image view.disk hour with
  | none => rfl
  | some file => simp [hour_of_file? hfile]

/-- What a look at a file finds: nothing when the file has no moment of change, the
remembered drawing when it has the remembered one, and else what the reader reads. -/
theorem load_ofFile (view : View) (settings : DaySettings) (known : Option Timestamp)
    (file : HourlyFile) :
    (ImageLook.ofFile view settings known file).load =
      match view.disk.modified? file.path with
      | none => .failed
      | some moment =>
        if known = some moment then .unchanged
        else .ofRead settings moment (view.reader.image view.disk file.path) := by
  unfold ImageLook.ofFile
  cases view.disk.modified? file.path with
  | none => rfl
  | some moment =>
      by_cases hknown : known = some moment
      · simp [hknown]
      · simp only [if_neg hknown]
        cases view.reader.image view.disk file.path <;> rfl

/-- A read picture gives the tile and the file that are composed and encoded of it. -/
theorem load_ofPicture {settings : DaySettings} {moment : Timestamp} {picture : Picture}
    {tile : Raster} {image : HourImage}
    (h : ImageLoad.ofPicture settings moment picture = .loaded tile image) :
    tile = composeTile picture settings.tileWidth settings.tileHeight ∧
      Png.encode picture = some image.data ∧ image.modified = moment := by
  unfold ImageLoad.ofPicture at h
  split at h
  next data hdata =>
      obtain ⟨rfl, rfl⟩ := ImageLoad.loaded.inj h
      exact ⟨rfl, hdata, rfl⟩
  · cases h

theorem tilesSized_imageLooks (view : View) (day : Day) :
    TilesSized day.settings.tileWidth day.settings.tileHeight (day.imageLooks view) := by
  intro look hlook tile image hload
  obtain ⟨file, -, rfl⟩ := List.mem_map.mp hlook
  rw [load_ofFile] at hload
  split at hload
  · cases hload
  · split at hload
    · cases hload
    · cases hread : view.reader.image view.disk file.path with
      | success picture =>
          rw [hread] at hload
          obtain ⟨rfl, -, -⟩ := load_ofPicture hload
          exact composeTile_size _ _ _
      | failure cause => rw [hread] at hload; cases hload
      | aborted => rw [hread] at hload; cases hload

theorem isSome_of_unchanged {settings : DaySettings} {known : Option Timestamp}
    {file : HourlyFile}
    (h : (ImageLook.ofFile view settings known file).load = .unchanged) : known.isSome := by
  rw [load_ofFile] at h
  split at h
  · cases h
  next moment _ =>
      by_cases hknown : known = some moment
      · simp [hknown]
      · rw [if_neg hknown] at h
        exact absurd h (ImageLoad.ofRead_ne_unchanged _ _ _)

/-- What the look at an hour does keeps the agreement, with the picture that is behind
the hour afterwards. -/
theorem hourAgrees_afterLook {hour : Hour} {before : Option Picture}
    (agrees : HourAgrees day.settings.tileWidth day.settings.tileHeight
      (day.images.shown hour) before) :
    HourAgrees day.settings.tileWidth day.settings.tileHeight
      (ImageState.afterLook day.settings.tileWidth day.settings.tileHeight
        (loadAt? (day.imageLooks view) hour) (day.images.shown hour))
      (day.sourceAfter view before hour) := by
  rw [loadAt?_imageLooks, sourceAfter]
  cases day.file? .image view.disk hour with
  | none => exact agrees.cleared
  | some file =>
      simp only [Option.map_some, load_ofFile]
      cases view.disk.modified? file.path with
      | none => exact agrees.cleared
      | some moment =>
          by_cases hknown : day.knownModified hour = some moment
          · simpa [hknown, ImageState.afterLook] using agrees
          · simp only [if_neg hknown, View.picture?]
            cases view.reader.image view.disk file.path with
            | failure cause => exact agrees.cleared
            | aborted => exact agrees.cleared
            | success picture =>
                simp only [ImageLoad.ofRead, ImageLoad.ofPicture]
                cases hencode : Png.encode picture with
                | none => exact agrees.cleared
                | some data => exact .filled hencode

/-- All forms in which a day keeps its drawings show the pictures noted in its past. -/
structure ImagesAgree (day : Day) (past : ImagePast) : Prop where
  sized : day.images.strip.Sized day.settings.tileWidth day.settings.tileHeight
  hours : ∀ hour, HourAgrees day.settings.tileWidth day.settings.tileHeight
    (day.images.shown hour) (past.source hour)
  mask : ∀ hour, day.images.mask.has hour = (day.images.slots.at? hour).isSome
  untouched : past.completed = false → day.images.thumbnail = ByteArray.empty ∧
    day.images.strip = Strip.blank day.settings.tileWidth day.settings.tileHeight
  encoded : past.completed = true → day.images.strip.encode = some day.images.thumbnail

theorem imagesAgree_new (date : String) (directory : Path) {settings : DaySettings}
    (sides : AllowedSides settings.tileWidth settings.tileHeight) :
    ImagesAgree (new date directory settings) {} where
  sized := Strip.sized_blank sides
  hours hour := by
    have hshown : (new date directory settings).images.shown hour =
        (none, Strip.blankTile settings.tileWidth settings.tileHeight) :=
      Prod.ext (Slots.at?_empty hour) (Strip.segment_blank sides hour)
    rw [hshown]
    exact .empty
  mask hour := by
    change HourMask.has 0 hour = (Slots.empty.at? hour).isSome
    rw [Slots.at?_empty]
    exact BitVec.getLsbD_zero
  untouched _ := ⟨rfl, rfl⟩
  encoded h := by cases h

section Settled

variable {past : ImagePast} (agree : ImagesAgree day past)
  (sides : AllowedSides day.settings.tileWidth day.settings.tileHeight) (view : View)

include agree

theorem sized_settledImages :
    (day.settledImages view).strip.Sized day.settings.tileWidth day.settings.tileHeight :=
  ImageState.sized_settle (s := day.stampedImages view) agree.sized _

include sides

theorem shown_settledImages (hour : Hour) :
    (day.settledImages view).shown hour =
      ImageState.afterLook day.settings.tileWidth day.settings.tileHeight
        (loadAt? (day.imageLooks view) hour) (day.images.shown hour) :=
  ImageState.shown_settle (s := day.stampedImages view) sides agree.sized
    (pairwise_hour_imageLooks view day) (tilesSized_imageLooks view day) hour

omit agree sides in
theorem isSome_of_loadAt?_unchanged {hour : Hour}
    (h : loadAt? (day.imageLooks view) hour = some .unchanged) :
    (day.images.slots.at? hour).isSome := by
  rw [loadAt?_imageLooks] at h
  obtain ⟨file, -, hload⟩ := Option.map_eq_some_iff.mp h
  simpa [knownModified] using isSome_of_unchanged hload

theorem has_mask_settledImages (hour : Hour) :
    (day.settledImages view).mask.has hour =
      ((day.settledImages view).slots.at? hour).isSome := by
  have hslot : (day.settledImages view).slots.at? hour = _ :=
    congrArg Prod.fst (shown_settledImages agree sides view hour)
  have hmask : (day.settledImages view).mask.has hour = _ :=
    ImageState.has_mask_settle (pairwise_hour_imageLooks view day) hour
  rw [hslot, hmask]
  cases hload : loadAt? (day.imageLooks view) hour with
  | none => simp [ImageState.afterLook, fst_cleared]
  | some load =>
      cases load with
      | unchanged => exact (isSome_of_loadAt?_unchanged view hload).symm
      | loaded tile image => rfl
      | failed => simp [ImageState.afterLook, fst_cleared, ImageLoad.isPresent]
      | aborted => simp [ImageState.afterLook, fst_cleared, ImageLoad.isPresent]

theorem ImagesAgree.settled :
    ImagesAgree { day with images := day.settledImages view }
      { completed := true
        source := fun hour => day.sourceAfter view (past.source hour) hour } where
  sized := sized_settledImages agree view
  hours hour := by
    have hafter : HourAgrees day.settings.tileWidth day.settings.tileHeight _
        (day.sourceAfter view (past.source hour) hour) := hourAgrees_afterLook (agree.hours hour)
    rw [← shown_settledImages agree sides view hour] at hafter
    exact hafter
  mask := has_mask_settledImages agree sides view
  untouched h := by cases h
  encoded _ :=
    ImageState.encode_strip_settle (s := day.stampedImages view) sides agree.sized _

end Settled

theorem ImagesAgree.refreshKind {past : ImagePast} (agree : ImagesAgree day past)
    (sides : AllowedSides day.settings.tileWidth day.settings.tileHeight) (view : View)
    (kind : HourlyKind) :
    ImagesAgree (refreshKind view kind day).state (past.afterKind view day kind) := by
  cases kind with
  | image =>
      change ImagesAgree (refreshImages view day).state _
      rcases refreshImages_cases view day with
        ⟨-, hstay, heq⟩ | ⟨hstay, -, heq⟩ | ⟨hdone, -, heq⟩
      · rw [heq, ImagePast.afterKind, hstay]
        exact agree
      · rw [heq, ImagePast.afterKind, hstay]
        exact ⟨agree.sized, agree.hours, agree.mask, agree.untouched, agree.encoded⟩
      · rw [heq, ImagePast.afterKind, hdone]
        exact agree.settled sides view
  | event =>
      obtain ⟨notes, heq⟩ := exists_notes_refreshEvents view day
      change ImagesAgree (refreshEvents view day).state past
      rw [heq]
      exact ⟨agree.sized, agree.hours, agree.mask, agree.untouched, agree.encoded⟩

/-- In every day that calls lead to, all forms of the drawings agree. -/
theorem Reached.imagesAgree {date : String} {directory : Path} {settings : DaySettings}
    (sides : AllowedSides settings.tileWidth settings.tileHeight) {day : Day}
    {past : ImagePast} (reached : Reached date directory settings day past) :
    ImagesAgree day past := by
  have both := reached.induct
    (motive := fun day past => day.Named date directory settings ∧ ImagesAgree day past)
    ⟨⟨rfl, rfl, rfl⟩, imagesAgree_new date directory sides⟩ ?_
  · exact both.2
  · rintro view kind day past ⟨named, agree⟩
    rw [← named.settings_eq] at sides
    exact ⟨named.refreshKind view kind, agree.refreshKind sides view kind⟩

end Day

end DrawingDiary
