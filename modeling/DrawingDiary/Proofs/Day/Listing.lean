import DrawingDiary.Day.Basic
import DrawingDiary.Proofs.Disk.Standing
import DrawingDiary.Proofs.Naming.Hour

/-!
# One file for each hour

The listing of a day names each hour at most once (`pairwise_hour_files`), so the file
of an hour, `Day.file?`, is the only one that a refresh looks at for this hour. The hours
that the mask of a day has are those that have a file name (`has_imageMask`). Where a directory
is known to stand and only one of its names is an hourly name of the day, the listing is known
(`Day.files_of_single`), without a walk along any path.
-/

namespace DrawingDiary

theorem hour_notMem_of_mem_firstPerHour {seen : List Hour} {files : List HourlyFile}
    {file : HourlyFile} (h : file ∈ firstPerHour seen files) : file.hour ∉ seen := by
  induction files generalizing seen with
  | nil => simp [firstPerHour] at h
  | cons first rest ih =>
      by_cases hseen : seen.contains first.hour
      · rw [firstPerHour, if_pos hseen] at h
        exact ih h
      · rw [firstPerHour, if_neg hseen] at h
        rcases List.mem_cons.mp h with rfl | hrest
        · simpa using hseen
        · exact fun hmem => ih hrest (List.mem_cons_of_mem _ hmem)

theorem pairwise_hour_firstPerHour (seen : List Hour) (files : List HourlyFile) :
    (firstPerHour seen files).Pairwise fun a b => a.hour ≠ b.hour := by
  induction files generalizing seen with
  | nil => exact List.Pairwise.nil
  | cons first rest ih =>
      by_cases hseen : seen.contains first.hour
      · rw [firstPerHour, if_pos hseen]
        exact ih seen
      · rw [firstPerHour, if_neg hseen]
        refine List.Pairwise.cons ?_ (ih _)
        intro file hfile heq
        exact hour_notMem_of_mem_firstPerHour hfile (heq ▸ List.mem_cons_self)

theorem pairwise_hour_hourlyFiles (kind : Naming.HourlyKind) (date : String) (directory : Path)
    (disk : Disk) :
    (hourlyFiles kind date directory disk).Pairwise fun a b => a.hour ≠ b.hour := by
  unfold hourlyFiles
  split
  · exact pairwise_hour_firstPerHour _ _
  · exact List.Pairwise.nil

/-- The listing of a day names no hour twice. -/
theorem Day.pairwise_hour_files (day : Day) (kind : Naming.HourlyKind) (disk : Disk) :
    (day.files kind disk).Pairwise fun a b => a.hour ≠ b.hour :=
  pairwise_hour_hourlyFiles kind day.date day.directory disk

theorem Slots.isSome_at?_foldl_put {α β : Type} (hourOf : β → Hour) (content : β → α)
    (xs : List β) (slots : Slots α) (hour : Hour) :
    ((xs.foldl (fun slots x => slots.put (hourOf x) (some (content x))) slots).at? hour).isSome =
      ((slots.at? hour).isSome || (xs.map hourOf).contains hour) := by
  induction xs generalizing slots with
  | nil => simp
  | cons x rest ih =>
      rw [List.foldl_cons, ih, Slots.at?_put, List.map_cons, List.contains_cons]
      by_cases hx : hour = hourOf x
      · simp [hx]
      · rw [if_neg (Ne.symm hx), beq_eq_false_iff_ne.mpr hx, Bool.false_or]

/-- Of contents that are put at distinct hours, the one of an hour is found there. -/
theorem Slots.at?_foldl_put {α β : Type} {hourOf : β → Hour} {xs : List β}
    (distinct : xs.Pairwise fun a b => hourOf a ≠ hourOf b) (content : β → α) (slots : Slots α)
    (hour : Hour) :
    (xs.foldl (fun slots x => slots.put (hourOf x) (some (content x))) slots).at? hour =
      ((xs.find? fun x => hourOf x = hour).map content).or (slots.at? hour) := by
  induction xs generalizing slots with
  | nil => rfl
  | cons x rest ih =>
      obtain ⟨hne, hrest⟩ := List.pairwise_cons.mp distinct
      rw [List.foldl_cons, ih hrest, Slots.at?_put]
      by_cases hx : hourOf x = hour
      · have hnone : (rest.find? fun y => hourOf y = hour) = none := by
          rw [List.find?_eq_none]
          intro y hy
          simpa [← hx] using (hne y hy).symm
        simp [hx, hnone]
      · rw [if_neg hx, List.find?_cons_of_neg (by simpa using hx)]

/-- An hour has a drawing exactly when it has a file name. -/
theorem Day.has_imageMask (day : Day) (disk : Disk) (hour : Hour) :
    (day.imageMask disk).has hour = ((day.imageFileNames disk).at? hour).isSome := by
  rw [imageMask, HourMask.has_ofList, imageFileNames, Slots.isSome_at?_foldl_put,
    Slots.at?_empty, Option.isSome_none, Bool.false_or]

/-- The file that counts for an hour of a day. -/
def Day.file? (day : Day) (kind : Naming.HourlyKind) (disk : Disk) (hour : Hour) :
    Option HourlyFile :=
  (day.files kind disk).find? fun file => file.hour = hour

section Children

variable {kind : Naming.HourlyKind} {date : String} {directory : Path} {day : Day} {disk : Disk}
  {place : Location} {children : List (String × Tree)} {name : String} {hour : Hour}
  {content : ByteArray} {modified : Timestamp}

theorem Disk.Stands.isFile_of_short (stands : Disk.Stands disk directory place children)
    (plain : Path.PlainName name) (no_zero : '\x00' ∉ name.toList)
    (short : directory.text.utf8ByteSize + 1 + name.utf8ByteSize ≤ Disk.nameLimit)
    (hchild : Tree.lookup name children = some (.file content modified)) :
    disk.isFile (directory.join name) = true := by
  have hlimits : Disk.nameLimit < Disk.pathLimit := by decide
  exact stands.isFile_child plain (stands.speakable.join plain no_zero (by omega)) (by omega) hchild

/-- In a directory where all entries with the names of hourly files are files, these count. -/
theorem hourlyFiles_of_stands {files : List HourlyFile}
    (stands : Disk.Stands disk directory place children)
    (hnames : (children.map (·.1)).filterMap (HourlyFile.ofName? kind date directory) = files)
    (areFiles : ∀ file ∈ files, disk.isFile file.path = true) :
    hourlyFiles kind date directory disk =
      firstPerHour [] (files.mergeSort fun a b => a.name ≤ b.name) := by
  simp only [hourlyFiles, stands.list_eq, hourlyFilesAmong, hnames,
    List.filter_eq_self.mpr areFiles]

/-- A day with one file that counts, and other ones that do not. -/
theorem Day.files_of_single (stands : Disk.Stands disk day.directory place children)
    (plain : Path.PlainName name) (no_zero : '\x00' ∉ name.toList)
    (short : day.directory.text.utf8ByteSize + 1 + name.utf8ByteSize ≤ Disk.nameLimit)
    (hchild : Tree.lookup name children = some (.file content modified))
    (hnames : (children.map (·.1)).filterMap (HourlyFile.ofName? kind day.date day.directory) =
      [⟨hour, name, day.directory.join name⟩]) :
    day.files kind disk = [⟨hour, name, day.directory.join name⟩] := by
  have hfile := stands.isFile_of_short plain no_zero short hchild
  rw [Day.files, hourlyFiles_of_stands stands hnames (List.forall_mem_singleton.mpr hfile)]
  simp [firstPerHour]

end Children

end DrawingDiary
