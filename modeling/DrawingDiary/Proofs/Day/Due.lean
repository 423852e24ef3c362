import DrawingDiary.Proofs.Day.NoteLife
import DrawingDiary.Proofs.Day.Remembered
import DrawingDiary.Proofs.Day.Winners

/-!
# The files that a refresh reads

Behind its gate a refresh reads the files that are due and no others: a drawing when another
moment of change is remembered for its hour, or none, and a note when none is remembered
(`readsBehind_eq`). How the look at a drawing ends follows from whether its file is due and whether
it can be read (`lookEnds`). A completed refresh leaves a drawing for the hours that `fills` says,
those with a file that was not due or could be read.
-/

namespace DrawingDiary

open Naming (HourlyKind)

namespace View

/-- Whether the file of a path cannot be read, or not be stored when it is read. -/
def misreads (view : View) : HourlyKind → Path → Bool
  | .image, path => (view.picture? path).isNone
  | .event, path =>
    match view.reader.note view.disk path with
    | .success _ => false
    | _ => true

/-- Whether reading the file of a path takes the refresh down. -/
def abortsAt (view : View) : HourlyKind → Path → Bool
  | .image, path => (view.reader.image view.disk path).isAborted
  | .event, path => (view.reader.note view.disk path).isAborted

/-- Whether the reads of a path end alike. -/
def ReadsAlike (view later : View) : HourlyKind → Path → Prop
  | .image, path => later.reader.image later.disk path = view.reader.image view.disk path
  | .event, path => later.reader.note later.disk path = view.reader.note view.disk path

variable {view later : View} {kind : HourlyKind} {path : Path}

theorem ReadsAlike.misreads_eq (alike : view.ReadsAlike later kind path) :
    later.misreads kind path = view.misreads kind path := by
  cases kind with
  | image =>
      have hread : later.reader.image later.disk path = view.reader.image view.disk path := alike
      simp only [misreads, picture?, hread]
  | event =>
      have hread : later.reader.note later.disk path = view.reader.note view.disk path := alike
      simp only [misreads, hread]

theorem ReadsAlike.abortsAt_eq (alike : view.ReadsAlike later kind path) :
    later.abortsAt kind path = view.abortsAt kind path := by
  cases kind
  · exact congrArg ReadResult.isAborted alike
  · exact congrArg ReadResult.isAborted alike

end View

section Paths

variable {kind : HourlyKind}

theorem Path.text_join_of_relative (p : Path) : ∃ front, ∀ name : String,
    name.toList.head? ≠ some '/' → (p.join name).text = front ++ name := by
  by_cases hslash : (p.text.isEmpty || p.endsWithSlash) = true
  · refine ⟨p.text, fun name hrelative => ?_⟩
    rw [join, if_neg (by simpa using hrelative), if_pos hslash]
  · refine ⟨p.text ++ "/", fun name hrelative => ?_⟩
    rw [join, if_neg (by simpa using hrelative), if_neg hslash]

theorem Naming.IsHourlyName.of_absolute {front name : String} {parsed parsed' : HourlyName}
    (written : IsHourlyName kind name parsed) (written' : IsHourlyName kind (front ++ name) parsed')
    (absolute : (front ++ name).toList.head? = some '/') : parsed' = parsed := by
  cases kind with
  | image =>
      have hlonger : IsHourlyName .image (front ++ name) parsed := by
        cases written with
        | @image beginning _ _ _ hsome hdate htoken =>
            have hsome' : front ++ beginning ≠ "" := fun hempty =>
              hsome (String.append_eq_empty_iff.mp hempty).2
            simpa only [String.append_assoc] using IsHourlyName.image hsome' hdate htoken
      exact written'.unique hlonger
  | event =>
      generalize hall : front ++ name = all at written' absolute
      cases written' with
      | event hdate htoken => simp at absolute

theorem hour_eq_of_join_eq {date name other : String} {p : Path} {hour hour' : Hour}
    (named : Naming.hourlyName? kind name = some ⟨date, hour⟩)
    (named' : Naming.hourlyName? kind other = some ⟨date, hour'⟩)
    (same : p.join name = p.join other) : hour = hour' := by
  have written := Naming.hourlyName?_eq_some_iff.mp named
  have written' := Naming.hourlyName?_eq_some_iff.mp named'
  obtain ⟨front, hrelative⟩ := p.text_join_of_relative
  have habsolute {name : String} (h : name.toList.head? = some '/') :
      (p.join name).text = name := by
    rw [Path.join, if_pos (by simpa using h)]
  have htext := congrArg Path.text same
  by_cases h : name.toList.head? = some '/'
  · by_cases h' : other.toList.head? = some '/'
    · rw [habsolute h, habsolute h'] at htext
      obtain rfl := htext
      exact congrArg Naming.HourlyName.hour (written.unique written')
    · rw [habsolute h, hrelative other h'] at htext
      obtain rfl := htext
      exact congrArg Naming.HourlyName.hour (written'.of_absolute written h)
  · by_cases h' : other.toList.head? = some '/'
    · rw [hrelative name h, habsolute h'] at htext
      obtain rfl := htext
      exact congrArg Naming.HourlyName.hour (written.of_absolute written' h').symm
    · rw [hrelative name h, hrelative other h'] at htext
      obtain rfl := String.append_right_inj _ |>.mp htext
      exact congrArg Naming.HourlyName.hour (written.unique written')

end Paths

namespace Day

variable {view later : View} {day : Day} {kind : HourlyKind} {file : HourlyFile} {hour : Hour}

section Due

def isDue (day : Day) (disk : Disk) : HourlyKind → HourlyFile → Bool
  | .image, file => day.knownModified file.hour ≠ disk.modified? file.path
  | .event, file => (day.notes.slots.at? file.hour).isNone

/-- The files of a day that are to be read. -/
def due (day : Day) (kind : HourlyKind) (disk : Disk) : List HourlyFile :=
  (day.files kind disk).filter (day.isDue disk kind)

theorem file?_of_mem {disk : Disk} (h : file ∈ day.files kind disk) :
    day.file? kind disk file.hour = some file :=
  (find?_hour_eq_some_iff (day.pairwise_hour_files kind disk)).mpr h

theorem exists_modified_of_mem {disk : Disk} (h : file ∈ day.files kind disk) :
    ∃ moment, disk.modified? file.path = some moment := by
  obtain ⟨first, hpath⟩ := mem_hourlyFiles_iff.mp h
  rw [hpath]
  exact Disk.exists_modified_of_isFile first.isFile

theorem path?_ofFile (h : file ∈ day.files .image view.disk) :
    (ImageLook.ofFile view day.settings (day.knownModified file.hour) file).path? =
      if day.isDue view.disk .image file then some file.path else none := by
  obtain ⟨moment, hmoment⟩ := exists_modified_of_mem h
  simp only [ImageLook.ofFile, isDue, hmoment]
  by_cases hknown : day.knownModified file.hour = some moment
  · simp [hknown]
  · simp only [hknown, if_false, ne_eq, not_false_eq_true, decide_true, if_true]
    cases view.reader.image view.disk file.path <;> rfl

/-- A refresh reads the files that are due and no others. -/
theorem readsBehind_eq (view : View) (day : Day) (kind : HourlyKind) :
    day.readsBehind view kind = (day.due kind view.disk).map (·.path) := by
  cases kind with
  | image =>
      have hlooks : ∀ file ∈ day.files .image view.disk,
          (ImageLook.ofFile view day.settings (day.knownModified file.hour) file).path? =
            (Option.guard (day.isDue view.disk .image) file).map (·.path) := by
        intro file hfile
        rw [path?_ofFile hfile, Option.guard]
        split <;> rfl
      rw [readsBehind, imageLooks, List.filterMap_map]
      refine (List.filterMap_congr hlooks).trans ?_
      rw [← List.map_filterMap, List.filterMap_eq_filter, due]
  | event =>
      rw [readsBehind, noteLooks, List.map_map]
      rfl

theorem mem_due_iff {disk : Disk} : file ∈ day.due kind disk ↔
    IsFirstFile kind day.date day.directory disk file.hour file.name ∧
      file.path = day.directory.join file.name ∧ day.isDue disk kind file = true := by
  rw [due, List.mem_filter, files, mem_hourlyFiles_iff, and_assoc]

/-- A drawing is due when none is remembered for its hour or its file was changed since then. -/
theorem isDue_image_iff {disk : Disk} (h : file ∈ day.files .image disk) :
    day.isDue disk .image file = true ↔ day.images.slots.at? file.hour = none ∨
      ∃ image, day.images.slots.at? file.hour = some image ∧
        disk.modified? file.path ≠ some image.modified := by
  obtain ⟨moment, hmoment⟩ := exists_modified_of_mem h
  rw [isDue, decide_eq_true_eq, knownModified, hmoment]
  cases day.images.slots.at? file.hour with
  | none => simp
  | some image => simp [eq_comm]

theorem nodup_paths_files (day : Day) (kind : HourlyKind) (disk : Disk) :
    ((day.files kind disk).map (·.path)).Nodup := by
  refine List.pairwise_map.mpr ((day.pairwise_hour_files kind disk).imp_of_mem ?_)
  intro a b ha hb hhour hpath
  obtain ⟨firstA, hpathA⟩ := mem_hourlyFiles_iff.mp ha
  obtain ⟨firstB, hpathB⟩ := mem_hourlyFiles_iff.mp hb
  exact hhour (hour_eq_of_join_eq firstA.named firstB.named
    (hpathA.symm.trans (hpath.trans hpathB)))

/-- The path of a listed file is among those that are due exactly if the file is. -/
theorem mem_paths_due_iff {disk : Disk} (h : file ∈ day.files kind disk) :
    file.path ∈ (day.due kind disk).map (·.path) ↔ day.isDue disk kind file = true := by
  rw [List.mem_map]
  constructor
  · rintro ⟨other, hother, hpath⟩
    obtain ⟨hmem, hdue⟩ := List.mem_filter.mp hother
    obtain rfl := List.inj_on_of_nodup_map (day.nodup_paths_files kind disk) hmem h hpath
    exact hdue
  · intro hdue
    exact ⟨file, List.mem_filter.mpr ⟨h, hdue⟩, rfl⟩

/-- How a look at a listed drawing ends: its file is not due and found unchanged, or it is read and
gives a drawing with the moment of change that it has then, or it is misread. -/
inductive LookEnds (moment : Timestamp) (due misread aborts : Bool) : ImageLoad → Prop where
  | unchanged : due = false → LookEnds moment due misread aborts .unchanged
  | loaded {tile : Raster} {image : HourImage} :
      due = true → misread = false → aborts = false → image.modified = moment →
      LookEnds moment due misread aborts (.loaded tile image)
  | failed : due = true → misread = true → aborts = false →
      LookEnds moment due misread aborts .failed
  | aborted : due = true → misread = true → aborts = true →
      LookEnds moment due misread aborts .aborted

theorem lookEnds (h : file ∈ day.files .image view.disk) : ∃ moment,
    view.disk.modified? file.path = some moment ∧
      LookEnds moment (day.isDue view.disk .image file) (view.misreads .image file.path)
        (view.abortsAt .image file.path)
        (ImageLook.ofFile view day.settings (day.knownModified file.hour) file).load := by
  obtain ⟨moment, hmoment⟩ := exists_modified_of_mem h
  refine ⟨moment, hmoment, ?_⟩
  rw [load_ofFile]
  simp only [hmoment, isDue, View.misreads, View.picture?, View.abortsAt]
  by_cases hknown : day.knownModified file.hour = some moment
  · rw [if_pos hknown]
    exact .unchanged (by simp [hknown])
  · have hdue : decide (day.knownModified file.hour ≠ some moment) = true := by simp [hknown]
    rw [if_neg hknown]
    cases view.reader.image view.disk file.path with
    | success picture =>
        cases hencode : Png.encode picture with
        | none =>
            simp only [ImageLoad.ofRead, ImageLoad.ofPicture, hencode]
            exact .failed hdue rfl rfl
        | some data =>
            simp only [ImageLoad.ofRead, ImageLoad.ofPicture, hencode]
            exact .loaded hdue rfl rfl rfl
    | failure cause => exact .failed hdue rfl rfl
    | aborted => exact .aborted hdue rfl rfl

/-- Behind its gate a refresh is aborted exactly if a file is due that takes it down. -/
theorem aborts_eq (view : View) (day : Day) (kind : HourlyKind) :
    day.aborts view kind =
      (day.due kind view.disk).any fun file => view.abortsAt kind file.path := by
  rw [due, List.any_filter]
  cases kind with
  | image =>
      rw [aborts, imageLooks, List.any_map, Bool.eq_iff_iff, List.any_eq_true, List.any_eq_true]
      refine exists_congr fun file => and_congr_right fun hfile => ?_
      obtain ⟨moment, -, ends⟩ := lookEnds hfile
      rw [Function.comp_apply]
      generalize (ImageLook.ofFile view day.settings _ file).load = load at ends ⊢
      cases ends <;> simp [*, ImageLoad.isAborted]
  | event =>
      rw [aborts, noteLooks, List.any_map, List.any_filter]
      rfl

theorem result_refreshKind_of_reads (goes : ∀ path, view.abortsAt kind path = false) :
    (refreshKind view kind day).result = some () := by
  have habort : day.aborts view kind = false := by
    rw [aborts_eq, List.any_eq_false]
    exact fun file _ => Bool.eq_false_iff.mp (goes file.path)
  rw [refreshKind_eq, habort, if_neg Bool.false_ne_true]
  split <;> rfl

end Due

section Settled

/-- A drawing is there after a look at its file, unless the file is due and misread. -/
theorem isPresent_ofFile (h : file ∈ day.files .image view.disk) :
    (ImageLook.ofFile view day.settings (day.knownModified file.hour) file).load.isPresent =
      !(day.isDue view.disk .image file && view.misreads .image file.path) := by
  obtain ⟨moment, -, ends⟩ := lookEnds h
  generalize (ImageLook.ofFile view day.settings _ file).load = load at ends ⊢
  cases ends <;> simp [*, ImageLoad.isPresent]

/-- After a completed refresh the moment of change of every file is remembered, unless the file was
due and misread. -/
theorem knownModified_settled (h : file ∈ day.files .image view.disk) :
    (day.settled view .image).knownModified file.hour =
      if day.isDue view.disk .image file && view.misreads .image file.path then none
      else view.disk.modified? file.path := by
  obtain ⟨moment, hmoment, ends⟩ := lookEnds h
  change ((day.settledImages view).slots.at? file.hour).map (·.modified) = _
  rw [at?_slots_settledImages, loadAt?_imageLooks, file?_of_mem h, Option.map_some]
  generalize (ImageLook.ofFile view day.settings _ file).load = load at ends ⊢
  cases ends with
  | unchanged hdue =>
      have hsame : day.knownModified file.hour = view.disk.modified? file.path := by
        simpa [isDue] using hdue
      rw [hdue, Bool.false_and, if_neg Bool.false_ne_true]
      exact hsame
  | loaded hdue hread _ hmodified => simp [hread, hmodified, hmoment]
  | failed hdue hmisread _ => simp [hdue, hmisread]
  | aborted hdue hmisread _ => simp [hdue, hmisread]

theorem notes_settled (view : View) (day : Day) :
    (day.settled view .event).notes = day.settledNotes view := rfl

theorem files_settled (view : View) (day : Day) (kind other : HourlyKind) (disk : Disk) :
    (day.settled view kind).files other disk = day.files other disk := by
  cases kind <;> simp only [settled, files]

/-- After a completed refresh the note of every file is remembered, unless the file was due and
misread. -/
theorem isNone_settledNotes (h : file ∈ day.files .event view.disk) :
    ((day.settledNotes view).slots.at? file.hour).isNone =
      (day.isDue view.disk .event file && view.misreads .event file.path) := by
  rw [at?_slots_settledNotes, file?_of_mem h, Option.isSome_some, if_pos rfl, textAt?_noteLooks,
    file?_of_mem h]
  simp only [isDue, View.misreads, NoteLook.text?, Option.bind_some]
  cases day.notes.slots.at? file.hour with
  | some text => simp
  | none => cases view.reader.note view.disk file.path <;> simp

/-- Whether a completed refresh leaves a drawing for an hour: it is listed, and not due and
misread. -/
def fills (view : View) (day : Day) (hour : Hour) : Bool :=
  match day.file? .image view.disk hour with
  | none => false
  | some file => !(day.isDue view.disk .image file && view.misreads .image file.path)

theorem mem_of_file? {disk : Disk} (h : day.file? kind disk hour = some file) :
    file ∈ day.files kind disk :=
  List.mem_of_find?_eq_some h

theorem any_isPresent_imageLooks (view : View) (day : Day) (hour : Hour) :
    ((day.imageLooks view).any fun look => look.hour = hour && look.load.isPresent) =
      fills view day hour := by
  rw [ImageState.any_isPresent_eq (pairwise_hour_imageLooks view day), loadAt?_imageLooks, fills]
  cases hfile : day.file? .image view.disk hour with
  | none => rfl
  | some file =>
      obtain rfl := hour_of_file? hfile
      exact isPresent_ofFile (mem_of_file? hfile)

theorem isSome_slots_settledImages (view : View) (day : Day) (hour : Hour) :
    ((day.settledImages view).slots.at? hour).isSome = fills view day hour := by
  rw [fills]
  cases hfile : day.file? .image view.disk hour with
  | none => rw [at?_slots_settledImages, loadAt?_imageLooks, hfile]; rfl
  | some file =>
      obtain rfl := hour_of_file? hfile
      have hmem := mem_of_file? hfile
      have hknown := knownModified_settled hmem
      obtain ⟨moment, hmoment⟩ := exists_modified_of_mem hmem
      change ((day.settledImages view).slots.at? file.hour).map (·.modified) = _ at hknown
      rw [← Option.isSome_map, hknown, hmoment]
      dsimp only
      cases day.isDue view.disk .image file && view.misreads .image file.path <;> rfl

theorem has_mask_settledImages_eq (view : View) (day : Day) (hour : Hour) :
    (day.settledImages view).mask.has hour = fills view day hour := by
  rw [← any_isPresent_imageLooks]
  exact HourMask.has_ofPred _ hour

end Settled

end Day

end DrawingDiary
