import DrawingDiary.Proofs.Day.Agreement
import DrawingDiary.Proofs.Disk.Changes

/-!
# The drawings in all their forms

What a day shows of an hour is the same in every form that it keeps its drawings in, and
so is what it writes: the file of the strip holds the strip that is remembered after the
call (`createThumbnailFile_written`). Together with `Reached.imagesAgree` this says of
every day that calls lead to how its slots, its mask, its strip, its thumbnail and its
file go together (`Reached.forms_agree`).
-/

namespace DrawingDiary

theorem HourAgrees.exists_picture {width height : UInt32} {shown : ShownHour}
    {source : Option Picture} (agrees : HourAgrees width height shown source) :
    match shown.1 with
    | some image => ∃ picture, Png.encode picture = some image.data ∧
        shown.2 = composeTile picture width height
    | none => shown.2.isTransparent = true := by
  cases agrees with
  | empty => exact Raster.isTransparent_filled _ _
  | filled hencode => exact ⟨_, hencode, rfl⟩

namespace Day

theorem thumbnailPath_refreshForStrip (view : View) (day : Day) :
    (refreshForStrip view day).state.thumbnailPath = day.thumbnailPath := by
  have named : day.Named day.date day.directory day.settings := ⟨rfl, rfl, rfl⟩
  have hdirectory := (named.refreshKinds view [.event, .image]).directory_eq
  rw [state_refreshKinds_pair] at hdirectory
  exact congrArg (fun directory : Path => directory.join Naming.thumbnailFile) hdirectory

/-- Where no file is, the strip is either written as it has an encoded form, or the disk
stays as it was. -/
theorem saveStrip_cases (strip : Strip) {path : Path} {disk : Disk}
    (hnew : disk.isFile path = false) :
    Disk.Grown disk (saveStrip strip path disk).1 ∧
      ((saveStrip strip path disk).2 = strip.encode.isSome ∧
          (saveStrip strip path disk).1.readBytes path =
            .ok (strip.encode.getD ByteArray.empty) ∨
        saveStrip strip path disk = (disk, false)) := by
  unfold saveStrip
  cases hwrite : disk.writeFile path (strip.encode.getD ByteArray.empty) with
  | ok written =>
      obtain ⟨hgrown, hread⟩ := Disk.readBytes_of_writeFile hnew hwrite
      exact ⟨hgrown, .inl ⟨rfl, hread⟩⟩
  | error e => exact ⟨.refl disk, .inr rfl⟩

theorem saveStrip_eq_putFile (strip : Strip) {path : Path} {disk : Disk}
    (hnew : disk.isFile path = false) :
    (saveStrip strip path disk).1 = disk ∨ ∃ parent name content,
      disk.resolve true path = .ok (.vacant parent name) ∧
        (saveStrip strip path disk).1 = disk.putFile (parent ++ [name]) content := by
  unfold saveStrip
  cases hwrite : disk.writeFile path (strip.encode.getD ByteArray.empty) with
  | ok written =>
      obtain ⟨parent, name, hresolve, -, rfl⟩ := Disk.exists_vacant_of_writeFile hnew hwrite
      exact .inr ⟨parent, name, _, hresolve, rfl⟩
  | error e => exact .inl rfl

theorem grown_createThumbnailFile (setting : Setting) (disk : Disk) (day : Day) :
    Disk.Grown disk (createThumbnailFile setting (disk, day)).state.1 := by
  rw [createThumbnailFile_eq]
  by_cases hfile : disk.isFile day.thumbnailPath
  · rw [if_pos hfile]
  · rw [if_neg hfile]
    cases hresult : (refreshForStrip ⟨setting, disk⟩ day).result with
    | none => simp only [hresult]; rfl
    | some _ =>
        simp only [hresult]
        rw [thumbnailPath_refreshForStrip]
        exact (saveStrip_cases _ (by simpa using hfile)).1

/-- Writing the strip's file leaves the disk alone, or leaves in it the encoded form of
the strip that the day remembers afterwards. -/
theorem createThumbnailFile_written {date : String} {directory : Path}
    {settings : DaySettings} (sides : AllowedSides settings.tileWidth settings.tileHeight)
    {day : Day} {past : ImagePast} (reached : Reached date directory settings day past)
    (setting : Setting) (disk : Disk) :
    ((createThumbnailFile setting (disk, day)).result = some true ∧
      ∃ bytes, (createThumbnailFile setting (disk, day)).state.2.images.strip.encode =
          some bytes ∧
        (createThumbnailFile setting (disk, day)).state.1.readBytes day.thumbnailPath =
          .ok bytes) ∨
    ((createThumbnailFile setting (disk, day)).result ≠ some true ∧
      (createThumbnailFile setting (disk, day)).state.1 = disk) := by
  have reached' := reached.call ⟨setting, disk⟩ .createThumbnailFile
  have sized := (reached'.imagesAgree sides).sized
  rw [reached'.named.settings_eq] at sized
  obtain ⟨bytes, hbytes⟩ := sized.exists_encode sides
  change (createThumbnailFile setting (disk, day)).state.2.images.strip.encode = some bytes
    at hbytes
  rw [createThumbnailFile_eq] at hbytes ⊢
  by_cases hfile : disk.isFile day.thumbnailPath
  · rw [if_pos hfile]
    exact .inr ⟨by simp, rfl⟩
  · rw [if_neg hfile] at hbytes ⊢
    cases hresult : (refreshForStrip ⟨setting, disk⟩ day).result with
    | none =>
        simp only [hresult]
        exact .inr (by simp)
    | some _ =>
        simp only [hresult] at hbytes ⊢
        rw [thumbnailPath_refreshForStrip]
        rcases (saveStrip_cases _ (by simpa using hfile)).2 with ⟨hwritten, hread⟩ | hsaved
        · rw [hbytes] at hwritten hread
          exact .inl ⟨congrArg some hwritten, bytes, hbytes, hread⟩
        · rw [hsaved]
          exact .inr ⟨by simp, rfl⟩

/-- In every day that calls lead to, an hour is in the mask exactly when a drawing is
stored for it; then the stored file and the segment of the strip are made of one
picture, and else the segment is transparent. The thumbnail is empty and the strip
transparent as long as no refresh was completed, and from then on the thumbnail is the
encoded strip. A file that is written for the strip holds it. -/
theorem Reached.forms_agree {date : String} {directory : Path} {settings : DaySettings}
    (sides : AllowedSides settings.tileWidth settings.tileHeight) {day : Day}
    {past : ImagePast} (reached : Reached date directory settings day past) :
    (∀ hour, day.images.mask.has hour = (day.images.slots.at? hour).isSome ∧
      match day.images.slots.at? hour with
      | some image => ∃ picture, Png.encode picture = some image.data ∧
          day.images.strip.segment hour =
            composeTile picture settings.tileWidth settings.tileHeight
      | none => (day.images.strip.segment hour).isTransparent = true) ∧
    ((past.completed = false ∧ day.images.thumbnail = ByteArray.empty ∧
        day.images.strip.canvas.isTransparent = true) ∨
      (past.completed = true ∧ day.images.strip.encode = some day.images.thumbnail)) ∧
    ∀ setting disk,
      ((createThumbnailFile setting (disk, day)).result = some true ∧
        ∃ bytes, (createThumbnailFile setting (disk, day)).state.2.images.strip.encode =
            some bytes ∧
          (createThumbnailFile setting (disk, day)).state.1.readBytes day.thumbnailPath =
            .ok bytes) ∨
      ((createThumbnailFile setting (disk, day)).result ≠ some true ∧
        (createThumbnailFile setting (disk, day)).state.1 = disk) := by
  have agree := reached.imagesAgree sides
  refine ⟨fun hour => ⟨agree.mask hour, ?_⟩, ?_, createThumbnailFile_written sides reached⟩
  · have hpicture := (agree.hours hour).exists_picture
    rw [reached.named.settings_eq] at hpicture
    exact hpicture
  · cases hcompleted : past.completed with
    | false =>
        obtain ⟨hempty, hblank⟩ := agree.untouched hcompleted
        refine .inl ⟨rfl, hempty, ?_⟩
        rw [hblank]
        exact Raster.isTransparent_filled _ _
    | true => exact .inr ⟨rfl, agree.encoded hcompleted⟩

theorem Reached.forms_agree_twoHours :
    let day := Call.refreshImages.after (twoHoursView false)
      (Day.new "2022-11-01" ⟨"/d"⟩ { tileWidth := 1, tileHeight := 1 })
    (∃ past, Reached "2022-11-01" ⟨"/d"⟩ { tileWidth := 1, tileHeight := 1 } day past) ∧
      ∀ hour, day.images.mask.has hour = (day.images.slots.at? hour).isSome := by
  intro day
  have reached : Reached "2022-11-01" ⟨"/d"⟩ { tileWidth := 1, tileHeight := 1 } day _ :=
    .call (twoHoursView false) .refreshImages .new
  refine ⟨⟨_, reached⟩, fun hour => ?_⟩
  exact ((reached.forms_agree ⟨by decide, by decide, by decide, by decide⟩).1 hour).1

end Day

end DrawingDiary
