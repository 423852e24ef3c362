import DrawingDiary.Day.Access
import DrawingDiary.Proofs.Day.First
import DrawingDiary.Proofs.Disk.Grown

/-!
# Where the notes and names of a day come from

The file names that a day lists are names of hourly files on the disk
(`isHourlyFile_of_imageFileNames`). A note may have been read long ago, from a file that had
another name then or is gone, so `NotesFrom` says of remembered notes on which disks they
may have been read. Refreshing the notes keeps it (`NotesFrom.refreshEvents`): what was read
now comes from a file that is listed now, and everything else was remembered before.
-/

namespace DrawingDiary

/-- What holds of all that is kept in slots holds when more of the kind is put there. -/
theorem Slots.forall_put {α : Type} {slots : Slots α} {good : Hour → α → Prop}
    (h : ∀ hour content, slots.at? hour = some content → good hour content) {hour : Hour}
    {content : α} (hnew : good hour content) :
    ∀ k c, (slots.put hour (some content)).at? k = some c → good k c := by
  intro k c hc
  rw [Slots.at?_put] at hc
  split at hc
  next heq =>
    obtain rfl := heq
    cases hc
    exact hnew
  · exact h k c hc

/-- Each note was read on an allowed disk, from a file of its hour in the day directory. -/
def NotesFrom (reader : Reader) (allowed : Disk → Prop) (date : String) (directory : Path)
    (notes : Slots String) : Prop :=
  ∀ hour text, notes.at? hour = some text → ∃ disk name, allowed disk ∧
    IsHourlyFile .event date directory disk hour name ∧
    reader.note disk (directory.join name) = .success text

theorem notesFrom_empty (reader : Reader) (allowed : Disk → Prop) (date : String)
    (directory : Path) : NotesFrom reader allowed date directory Slots.empty := by
  intro hour text habsurd
  rw [Slots.at?_empty] at habsurd
  cases habsurd

theorem IsHourlyFile.of_grown {kind : Naming.HourlyKind} {date : String} {directory : Path}
    {before after : Disk} {hour : Hour} {name : String}
    (h : IsHourlyFile kind date directory before hour name) (grown : Disk.Grown before after) :
    IsHourlyFile kind date directory after hour name where
  listed := by
    obtain ⟨names, hlist, hname⟩ := h.listed
    obtain ⟨names', hlist', hsub⟩ := grown.list hlist
    exact ⟨names', hlist', hsub name hname⟩
  named := h.named
  isFile := grown.isFile h.isFile

namespace Day

open Naming (HourlyKind)

variable {day : Day} {kind : HourlyKind} {disk : Disk} {file : HourlyFile}

theorem mem_of_mem_firstPerHour {seen : List Hour} {files : List HourlyFile}
    (h : file ∈ firstPerHour seen files) : file ∈ files := by
  induction files generalizing seen with
  | nil => exact h
  | cons first rest ih =>
      rw [firstPerHour] at h
      split at h
      · exact List.mem_cons_of_mem _ (ih h)
      · rcases List.mem_cons.mp h with rfl | hrest
        · exact List.mem_cons_self
        · exact List.mem_cons_of_mem _ (ih hrest)

theorem isHourlyFile_of_mem_files (h : file ∈ day.files kind disk) :
    IsHourlyFile kind day.date day.directory disk file.hour file.name ∧
      file.path = day.directory.join file.name := by
  unfold files hourlyFiles at h
  split at h
  next names hlist =>
    obtain ⟨hhourly, hfile⟩ := (mem_namedFiles_iff hlist).mp (mem_of_mem_firstPerHour h)
    exact ⟨hhourly, congrArg HourlyFile.path hfile⟩
  · cases h

theorem isHourlyFile_of_imageFileNames {hour : Hour} {name : String}
    (h : (day.imageFileNames disk).at? hour = some name) :
    IsHourlyFile .image day.date day.directory disk hour name := by
  refine List.foldlRecOn (motive := fun names : Slots String =>
    ∀ hour name, names.at? hour = some name →
      IsHourlyFile .image day.date day.directory disk hour name)
    (day.files .image disk) _ ?_ ?_ hour name h
  · intro hour name habsurd
    rw [Slots.at?_empty] at habsurd
    cases habsurd
  · intro names hnames file hfile
    exact Slots.forall_put hnames (isHourlyFile_of_mem_files hfile).1

/-- A look at a note that was read comes from a file of the day. -/
def LooksFrom (reader : Reader) (allowed : Disk → Prop) (date : String) (directory : Path)
    (look : NoteLook) : Prop :=
  ∀ text, look.read = .success text → ∃ disk name, allowed disk ∧
    IsHourlyFile .event date directory disk look.hour name ∧
    reader.note disk (directory.join name) = .success text

theorem looksFrom_noteLooks {view : View} {allowed : Disk → Prop} (hdisk : allowed view.disk)
    {look : NoteLook} (h : look ∈ day.noteLooks view) :
    LooksFrom view.reader allowed day.date day.directory look := by
  obtain ⟨file, hfile, rfl⟩ := List.mem_map.mp h
  obtain ⟨hhourly, hpath⟩ := isHourlyFile_of_mem_files (List.mem_of_mem_filter hfile)
  intro text htext
  exact ⟨view.disk, file.name, hdisk, hhourly, hpath ▸ htext⟩

end Day

theorem NotesFrom.settle {reader : Reader} {allowed : Disk → Prop} {date : String}
    {directory : Path} {notes : NoteState}
    (h : NotesFrom reader allowed date directory notes.slots) {looks : List NoteLook}
    (hlooks : ∀ look ∈ looks, Day.LooksFrom reader allowed date directory look)
    (listed : List Hour) :
    NotesFrom reader allowed date directory (notes.settle listed looks).slots := by
  have haccepted : NotesFrom reader allowed date directory
      (looks.foldl NoteState.accept notes).slots := by
    refine List.foldlRecOn (motive := fun notes : NoteState =>
      NotesFrom reader allowed date directory notes.slots) looks _ h ?_
    intro notes hnotes look hlook
    unfold NoteState.accept
    split
    next text htext => exact Slots.forall_put hnotes (hlooks look hlook text htext)
    · exact hnotes
  intro hour text htext
  simp only [NoteState.settle, Slots.at?_ofFn] at htext
  split at htext
  · exact haccepted hour text htext
  · cases htext

/-- A refresh of the notes leaves them as they are, or it settles with the looks it took. -/
theorem Day.notes_refreshEvents (view : View) (day : Day) :
    (refreshEvents view day).state.notes.slots = day.notes.slots ∨
      ∃ stamped listed, stamped.slots = day.notes.slots ∧
        (refreshEvents view day).state.notes =
          NoteState.settle stamped listed (day.noteLooks view) := by
  rw [refreshEvents_eq]
  by_cases hopen : day.notes.gate.isOpen view.now
  · by_cases habort : (day.noteLooks view).any (·.read.isAborted)
    · exact .inl (by simp [hopen, habort])
    · refine .inr ⟨{ day.notes with gate := day.notes.gate.stamp view.now },
        (day.files .event view.disk).map (·.hour), rfl, ?_⟩
      simp [hopen, habort]
  · exact .inl (by simp [hopen])

/-- After a refresh of the notes they were read before or just now. -/
theorem NotesFrom.refreshEvents {view : View} {allowed : Disk → Prop} {day : Day}
    (h : NotesFrom view.reader allowed day.date day.directory day.notes.slots)
    (hdisk : allowed view.disk) :
    NotesFrom view.reader allowed day.date day.directory
      (Day.refreshEvents view day).state.notes.slots := by
  rcases Day.notes_refreshEvents view day with hsame | ⟨stamped, listed, hslots, hsettled⟩
  · rw [hsame]
    exact h
  · rw [hsettled]
    rw [← hslots] at h
    exact h.settle (fun look hlook => Day.looksFrom_noteLooks hdisk hlook) listed

end DrawingDiary
