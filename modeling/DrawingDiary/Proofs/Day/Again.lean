import DrawingDiary.Proofs.Day.Aborted
import DrawingDiary.Proofs.Day.Due

/-!
# Refreshing again

After a completed refresh a file is still due exactly if it was due and could not be read
(`isDue_settled`). So a second look at an unchanged directory, with reads that end as they did
(`LooksAgain`), reads what could not be read before and nothing else, and as it cannot be read
again, nothing but the gate changes (`refreshKind_again`). A page that expands a day several times
shows the same notes each time (`refreshEvents_again`).
-/

namespace DrawingDiary

open Naming (HourlyKind)

/-- A refresh of the drawings changes nothing when nothing is read, the hours without a drawing are
cleared already and the thumbnail is the encoded strip. -/
theorem ImageState.settle_eq_self {s : ImageState} {looks : List ImageLook}
    (unread : ∀ look ∈ looks, ∀ tile image, look.load ≠ .loaded tile image)
    (cleared : ∀ hour, (looks.any fun look => look.hour = hour && look.load.isPresent) = false →
      s.slots.at? hour = none)
    (mask : ∀ hour, s.mask.has hour =
      looks.any fun look => look.hour = hour && look.load.isPresent)
    (thumbnail : s.strip.encode.getD s.thumbnail = s.thumbnail) : s.settle looks = s := by
  have haccept : looks.foldl accept s = s := by
    refine List.foldlRecOn (motive := fun t => t = s) looks accept rfl fun t ht look hlook => ?_
    subst ht
    cases hload : look.load with
    | loaded tile image => exact absurd hload (unread look hlook tile image)
    | unchanged => simp only [accept, hload]
    | failed => simp only [accept, hload]
    | aborted => simp only [accept, hload]
  have hclear (hours : List Hour)
      (hhours : ∀ hour ∈ hours, s.slots.at? hour = none) : hours.foldl clear s = s := by
    refine List.foldlRecOn (motive := fun t => t = s) hours clear rfl fun t ht hour hhour => ?_
    subst ht
    rw [clear, hhours hour hhour]
    rfl
  have hmask : HourMask.ofPred (fun hour =>
      looks.any fun look => look.hour = hour && look.load.isPresent) = s.mask :=
    HourMask.ext_has fun hour => (HourMask.has_ofPred _ hour).trans (mask hour).symm
  rw [settle, haccept, hclear, hmask, thumbnail]
  intro hour hhour
  exact cleared hour (by simpa using (List.mem_filter.mp hhour).2)

/-- A refresh of the notes changes nothing when no text is read and the hours without a file are
cleared already. -/
theorem NoteState.settle_eq_self {s : NoteState} {listed : List Hour} {looks : List NoteLook}
    (unread : ∀ look ∈ looks, look.text? = none)
    (cleared : ∀ hour, listed.contains hour = false → s.slots.at? hour = none)
    (mask : ∀ hour, s.mask.has hour = (s.slots.at? hour).isSome) : s.settle listed looks = s := by
  have haccept : looks.foldl accept s = s := by
    refine List.foldlRecOn (motive := fun t => t = s) looks accept rfl fun t ht look hlook => ?_
    subst ht
    have hnone := unread look hlook
    cases hread : look.read with
    | success text => simp [NoteLook.text?, hread] at hnone
    | failure cause => simp only [accept, hread]
    | aborted => simp only [accept, hread]
  have hslots : (Slots.ofFn fun hour =>
      if listed.contains hour then s.slots.at? hour else none) = s.slots := by
    refine Slots.ext fun hour => ?_
    rw [Slots.at?_ofFn]
    cases hlisted : listed.contains hour with
    | true => rfl
    | false => exact (cleared hour hlisted).symm
  have hmask : HourMask.ofPred (fun hour => (s.slots.at? hour).isSome) = s.mask :=
    HourMask.ext_has fun hour => (HourMask.has_ofPred _ hour).trans (mask hour).symm
  simp only [settle, haccept, hslots, hmask]

namespace Day

variable {view later : View} {day : Day} {kind : HourlyKind} {file : HourlyFile} {hour : Hour}

section Unchanged

/-- A later disk on which nothing has changed in a directory. -/
structure Unchanged (directory : Path) (disk later : Disk) : Prop where
  list : later.list directory = disk.list directory
  isFile : ∀ names name, disk.list directory = .ok names → name ∈ names →
    later.isFile (directory.join name) = disk.isFile (directory.join name)
  modified : ∀ names name, disk.list directory = .ok names → name ∈ names →
    later.modified? (directory.join name) = disk.modified? (directory.join name)

variable (unchanged : Unchanged day.directory view.disk later.disk)

include unchanged

theorem files_of_unchanged (kind : HourlyKind) :
    day.files kind later.disk = day.files kind view.disk := by
  refine hourlyFiles_eq_of_isHourlyFile_iff fun hour name => ?_
  constructor
  · rintro ⟨⟨names, hlist, hname⟩, hnamed, hfile⟩
    rw [unchanged.list] at hlist
    exact ⟨⟨names, hlist, hname⟩, hnamed, unchanged.isFile names name hlist hname ▸ hfile⟩
  · rintro ⟨⟨names, hlist, hname⟩, hnamed, hfile⟩
    exact ⟨⟨names, unchanged.list ▸ hlist, hname⟩, hnamed,
      (unchanged.isFile names name hlist hname).trans hfile⟩

theorem modified_of_unchanged (h : file ∈ day.files kind view.disk) :
    later.disk.modified? file.path = view.disk.modified? file.path := by
  obtain ⟨first, hpath⟩ := mem_hourlyFiles_iff.mp h
  obtain ⟨names, hlist, hname⟩ := first.listed
  rw [hpath]
  exact unchanged.modified names file.name hlist hname

/-- After a completed refresh a file is due if it was due and misread. -/
theorem isDue_settled (h : file ∈ day.files kind view.disk) :
    (day.settled view kind).isDue later.disk kind file =
      (day.isDue view.disk kind file && view.misreads kind file.path) := by
  cases kind with
  | image =>
      obtain ⟨moment, hmoment⟩ := exists_modified_of_mem h
      have hknown := knownModified_settled h
      have hlater := modified_of_unchanged unchanged h
      generalize (day.isDue view.disk .image file && view.misreads .image file.path) = again
        at hknown ⊢
      change decide ((day.settled view .image).knownModified file.hour ≠ _) = again
      rw [hknown, hlater, hmoment]
      cases again <;> simp
  | event =>
      rw [← isNone_settledNotes h, isDue, notes_settled]

theorem due_settled (kind : HourlyKind) :
    (day.settled view kind).due kind later.disk =
      (day.due kind view.disk).filter fun file => view.misreads kind file.path := by
  rw [due, due, files_settled, files_of_unchanged unchanged, List.filter_filter]
  refine List.filter_congr fun file hfile => ?_
  rw [isDue_settled unchanged hfile, Bool.and_comm]

end Unchanged

/-- A later look at a day that finds its directory unchanged and has the reads of a kind end as they
did. -/
structure LooksAgain (view later : View) (day : Day) (kind : HourlyKind) : Prop
    extends Unchanged day.directory view.disk later.disk where
  alike : ∀ path ∈ day.readsBehind view kind, view.ReadsAlike later kind path

section Again

theorem LooksAgain.readsAlike (again : LooksAgain view later day kind)
    (h : file ∈ day.files kind view.disk) (hdue : day.isDue view.disk kind file = true) :
    view.ReadsAlike later kind file.path := by
  refine again.alike file.path ?_
  rw [readsBehind_eq]
  exact List.mem_map_of_mem (List.mem_filter.mpr ⟨h, hdue⟩)

theorem LooksAgain.misreads (again : LooksAgain view later day kind)
    (h : file ∈ day.files kind view.disk)
    (hdue : (day.settled view kind).isDue later.disk kind file = true) :
    later.misreads kind file.path = true := by
  rw [isDue_settled again.toUnchanged h, Bool.and_eq_true] at hdue
  rw [(again.readsAlike h hdue.1).misreads_eq]
  exact hdue.2

theorem LooksAgain.not_aborts (again : LooksAgain view later day kind)
    (done : day.aborts view kind = false) :
    (day.settled view kind).aborts later kind = false := by
  rw [aborts_eq, List.any_eq_false] at done ⊢
  intro file hfile
  rw [due_settled again.toUnchanged, List.mem_filter] at hfile
  obtain ⟨hmem, hdue⟩ := List.mem_filter.mp hfile.1
  rw [(again.readsAlike hmem hdue).abortsAt_eq]
  exact done file hfile.1

theorem LooksAgain.file?_eq (again : LooksAgain view later day kind) (hour : Hour) :
    (day.settled view kind).file? kind later.disk hour = day.file? kind view.disk hour := by
  rw [file?, file?, files_settled, files_of_unchanged again.toUnchanged]

theorem LooksAgain.fills_eq (again : LooksAgain view later day .image) (hour : Hour) :
    fills later (day.settled view .image) hour = fills view day hour := by
  rw [fills, fills, again.file?_eq]
  cases hfile : day.file? .image view.disk hour with
  | none => rfl
  | some file =>
      have hmem := mem_of_file? hfile
      dsimp only
      cases hdue : (day.settled view .image).isDue later.disk .image file with
      | false =>
          rw [isDue_settled again.toUnchanged hmem] at hdue
          rw [hdue, Bool.false_and]
      | true =>
          rw [again.misreads hmem hdue]
          rw [isDue_settled again.toUnchanged hmem] at hdue
          rw [hdue, Bool.true_and]

theorem LooksAgain.settledImages_eq (again : LooksAgain view later day .image) :
    (day.settled view .image).settledImages later =
      (day.settled view .image).stampedImages later := by
  refine ImageState.settle_eq_self ?_ ?_ ?_ ?_
  · intro look hlook tile image hload
    obtain ⟨file, hfile, rfl⟩ := List.mem_map.mp hlook
    obtain ⟨moment, -, ends⟩ := lookEnds hfile
    rw [hload] at ends
    cases ends with
    | loaded hdue hread _ _ =>
        rw [files_settled, files_of_unchanged again.toUnchanged] at hfile
        rw [again.misreads hfile hdue] at hread
        cases hread
  · intro hour hnone
    rw [any_isPresent_imageLooks, again.fills_eq, ← isSome_slots_settledImages] at hnone
    exact Option.not_isSome_iff_eq_none.mp (Bool.eq_false_iff.mp hnone)
  · intro hour
    rw [any_isPresent_imageLooks, again.fills_eq]
    exact has_mask_settledImages_eq view day hour
  · have hstrip (encoded : Option ByteArray) (old : ByteArray) :
        encoded.getD (encoded.getD old) = encoded.getD old := by
      cases encoded <;> rfl
    exact hstrip _ _

theorem has_mask_settledNotes (view : View) (day : Day) (hour : Hour) :
    (day.settledNotes view).mask.has hour =
      ((day.settledNotes view).slots.at? hour).isSome := by
  rw [settledNotes, NoteState.has_mask_settle]

theorem LooksAgain.settledNotes_eq (again : LooksAgain view later day .event) :
    (day.settled view .event).settledNotes later = { (day.settled view .event).notes with
      gate := (day.settled view .event).notes.gate.stamp later.now } := by
  have hunread : ∀ look ∈ (day.settled view .event).noteLooks later, look.text? = none := by
    intro look hlook
    obtain ⟨file, hfile, rfl⟩ := List.mem_map.mp hlook
    obtain ⟨hmem, hdue⟩ := List.mem_filter.mp hfile
    rw [files_settled, files_of_unchanged again.toUnchanged] at hmem
    have hmisread := again.misreads hmem hdue
    simp only [NoteLook.text?]
    simp only [View.misreads] at hmisread
    cases hread : later.reader.note later.disk file.path with
    | success text =>
        rw [hread] at hmisread
        cases hmisread
    | failure cause => rfl
    | aborted => rfl
  have hcleared : ∀ hour, ((day.files .event view.disk).map (·.hour)).contains hour = false →
      (day.settledNotes view).slots.at? hour = none := by
    intro hour hunlisted
    rw [contains_hours_files] at hunlisted
    rw [at?_slots_settledNotes, hunlisted, if_neg Bool.false_ne_true]
  have hmask := has_mask_settledNotes view day
  rw [settledNotes, notes_settled, files_settled, files_of_unchanged again.toUnchanged]
  generalize day.settledNotes view = notes at hcleared hmask ⊢
  exact NoteState.settle_eq_self hunread hcleared hmask

theorem LooksAgain.settled_eq (again : LooksAgain view later day kind) :
    (day.settled view kind).settled later kind =
      (day.settled view kind).stamped later.now kind := by
  cases kind with
  | image => exact congrArg (fun images => { day with images := images }) again.settledImages_eq
  | event =>
      have hnotes := again.settledNotes_eq
      generalize day.settled view .event = first at hnotes ⊢
      rw [settled, hnotes]
      rfl

theorem refreshKind_of_done (isOpen : (day.gate kind).isOpen view.now = true)
    (done : (refreshKind view kind day).result = some ()) : day.aborts view kind = false ∧
      refreshKind view kind day =
        ⟨day.settled view kind, day.readsBehind view kind, some ()⟩ := by
  have heq := refreshKind_eq view day kind
  rw [if_pos isOpen] at heq
  cases habort : day.aborts view kind with
  | true =>
      rw [habort, if_pos rfl] at heq
      rw [heq] at done
      cases done
  | false =>
      rw [habort, if_neg Bool.false_ne_true] at heq
      exact ⟨rfl, heq⟩

/-- A completed refresh that is done again reads what could not be read before, and leaves
everything as it is but the gate. -/
theorem refreshKind_again (isOpen : (day.gate kind).isOpen view.now = true)
    (done : (refreshKind view kind day).result = some ())
    (again : LooksAgain view later day kind)
    (isOpen' : ((day.gate kind).stamp view.now).isOpen later.now = true) :
    refreshKind later kind (refreshKind view kind day).state =
      ⟨(refreshKind view kind day).state.stamped later.now kind,
        (refreshKind view kind day).reads.filter (view.misreads kind), some ()⟩ := by
  obtain ⟨habort, hfirst⟩ := refreshKind_of_done isOpen done
  have hopen : ((day.settled view kind).gate kind).isOpen later.now = true := by
    rw [gate_settled]
    exact isOpen'
  have hreads : (day.settled view kind).readsBehind later kind =
      (day.readsBehind view kind).filter (view.misreads kind) := by
    rw [readsBehind_eq, due_settled again.toUnchanged, readsBehind_eq, List.filter_map]
    rfl
  have hsecond := refreshKind_eq later (day.settled view kind) kind
  rw [if_pos hopen, again.not_aborts habort, if_neg Bool.false_ne_true, again.settled_eq,
    hreads] at hsecond
  rw [hfirst]
  exact hsecond

theorem looksAgain_refl (view : View) (day : Day) (kind : HourlyKind) :
    LooksAgain view view day kind where
  list := rfl
  isFile _ _ _ _ := rfl
  modified _ _ _ _ := rfl
  alike _ _ := by cases kind <;> rfl

/-- A refresh of the notes that was completed changes nothing when it is done again. -/
theorem refreshEvents_again (done : (refreshEvents view day).result = some ()) :
    (refreshEvents view (refreshEvents view day).state).state = (refreshEvents view day).state ∧
      (refreshEvents view (refreshEvents view day).state).result = some () := by
  have hstay {first : Day} (h : (first.gate .event).isOpen view.now = false) :
      refreshEvents view first = ⟨first, [], some ()⟩ := refreshKind_of_closed h
  cases hopen : (day.gate .event).isOpen view.now with
  | false =>
      rw [hstay hopen, hstay hopen]
      exact ⟨rfl, rfl⟩
  | true =>
      have hgate : (refreshEvents view day).state.gate .event = (day.gate .event).stamp view.now :=
        gate_refreshKind_of_open hopen
      cases hopen' : ((day.gate .event).stamp view.now).isOpen view.now with
      | false =>
          rw [hstay (hgate ▸ hopen')]
          exact ⟨rfl, rfl⟩
      | true =>
          have hagain : refreshEvents view (refreshEvents view day).state = _ :=
            refreshKind_again hopen done (looksAgain_refl view day .event) hopen'
          have hstamped : (refreshEvents view day).state.stamped view.now .event =
              (refreshEvents view day).state := by
            rw [stamped, hgate]
            change withGate _ ((day.gate .event).stamp view.now) .event = _
            rw [← hgate, withGate_gate]
          rw [hagain]
          exact ⟨hstamped, rfl⟩

end Again

section Main

theorem reads_refreshKind_of_open (isOpen : (day.gate kind).isOpen view.now = true) :
    (refreshKind view kind day).reads = (day.due kind view.disk).map (·.path) := by
  rw [← readsBehind_eq]
  rcases refreshKind_cases view day kind with ⟨closed, -⟩ | ⟨-, heq | heq⟩
  · rw [isOpen] at closed
    cases closed
  · rw [heq]
  · rw [heq]

theorem pairwise_hour_due (day : Day) (kind : HourlyKind) (disk : Disk) :
    (day.due kind disk).Pairwise fun a b => a.hour ≠ b.hour :=
  (day.pairwise_hour_files kind disk).filter _

/-- Whatever was done with a day before, a refresh that is let through reads what it must, each
file once: of the drawings the files that count and have another moment of change than the one that
is remembered for their hour, or none is remembered; of the notes the files that count for hours
without a note. When it is completed and done again, with the directory unchanged and the reads
ending as they did, it reads the files that could not be read and leaves everything but the gate as
it was. -/
theorem refresh_reads_due (view : View) (day : Day) :
    ((day.gate .image).isOpen view.now = true →
      ∃ files : List HourlyFile, (refreshImages view day).reads = files.map (·.path) ∧
        (files.Pairwise fun a b => a.hour ≠ b.hour) ∧
        ∀ file : HourlyFile, file ∈ files ↔
          IsFirstFile .image day.date day.directory view.disk file.hour file.name ∧
            file.path = day.directory.join file.name ∧
            (day.images.slots.at? file.hour = none ∨
              ∃ image, day.images.slots.at? file.hour = some image ∧
                view.disk.modified? file.path ≠ some image.modified)) ∧
      ((day.gate .event).isOpen view.now = true →
        ∃ files : List HourlyFile, (refreshEvents view day).reads = files.map (·.path) ∧
          (files.Pairwise fun a b => a.hour ≠ b.hour) ∧
          ∀ file : HourlyFile, file ∈ files ↔
            IsFirstFile .event day.date day.directory view.disk file.hour file.name ∧
              file.path = day.directory.join file.name ∧
              day.notes.slots.at? file.hour = none) ∧
      (∀ kind, (refreshKind view kind day).reads.Nodup) ∧
      ∀ kind later, (day.gate kind).isOpen view.now = true →
        (refreshKind view kind day).result = some () → LooksAgain view later day kind →
        ((day.gate kind).stamp view.now).isOpen later.now = true →
        refreshKind later kind (refreshKind view kind day).state =
          ⟨(refreshKind view kind day).state.stamped later.now kind,
            (refreshKind view kind day).reads.filter (view.misreads kind), some ()⟩ := by
  refine ⟨fun isOpen => ?_, fun isOpen => ?_, fun kind => ?_,
    fun kind later isOpen done again isOpen' => refreshKind_again isOpen done again isOpen'⟩
  · refine ⟨day.due .image view.disk, reads_refreshKind_of_open isOpen,
      pairwise_hour_due day .image view.disk, fun file => ?_⟩
    rw [mem_due_iff]
    refine and_congr_right fun first => and_congr_right fun hpath => isDue_image_iff ?_
    exact mem_hourlyFiles_iff.mpr ⟨first, hpath⟩
  · refine ⟨day.due .event view.disk, reads_refreshKind_of_open isOpen,
      pairwise_hour_due day .event view.disk, fun file => ?_⟩
    rw [mem_due_iff, isDue, Option.isNone_iff_eq_none]
  · cases isOpen : (day.gate kind).isOpen view.now with
    | false =>
        rw [refreshKind_of_closed isOpen]
        exact List.nodup_nil
    | true =>
        rw [reads_refreshKind_of_open isOpen]
        exact (nodup_paths_files day kind view.disk).sublist (List.filter_sublist.map _)

/-- A look at a directory with a drawing and a note, by a reader that reads the drawing and fails
at the note. -/
def notelessView : View where
  reader := { (twoHoursView true).reader with note := fun _ _ => .failure .unprocessable }
  now := 0
  disk := drawnAndNotedDisk

/-- Looked at twice, the drawing is read once and the note is tried twice. -/
theorem refresh_reads_due_noteless :
    let day := Day.new "2022-11-01" ⟨"/d"⟩ { imageCooldown := 0, eventCooldown := 0 }
    let first := fun kind => refreshKind notelessView kind day
    let second := fun kind => refreshKind notelessView kind (first kind).state
    (day.directory.join "rabbit-2022-11-01-3.png" ∈ (first .image).reads ∧
        (second .image).reads = []) ∧
      (day.directory.join "event-2022-11-01-5.txt" ∈ (first .event).reads ∧
        (second .event).reads = (first .event).reads) ∧
      ∀ kind, (first kind).reads.Nodup ∧
        (second kind).state = (first kind).state.stamped 0 kind := by
  intro day first second
  let drawing : HourlyFile := ⟨3, "rabbit-2022-11-01-3.png", day.directory.join
    "rabbit-2022-11-01-3.png"⟩
  let note : HourlyFile := ⟨5, "event-2022-11-01-5.txt", day.directory.join
    "event-2022-11-01-5.txt"⟩
  have stands : Disk.Stands drawnAndNotedDisk ⟨"/d"⟩ ["d"] _ := ⟨by cbv, by cbv⟩
  have himage : day.files .image drawnAndNotedDisk = [drawing] :=
    files_of_single stands ⟨by decide, by decide⟩ (by decide) (by decide) rfl (by decide)
  have hnote : day.files .event drawnAndNotedDisk = [note] :=
    files_of_single stands ⟨by decide, by decide⟩ (by decide) (by decide) rfl (by decide)
  have hopen (kind : HourlyKind) : (day.gate kind).isOpen notelessView.now = true := by
    cases kind <;> rfl
  have hdone (kind : HourlyKind) : (first kind).result = some () :=
    result_refreshKind_of_reads fun _ => by cases kind <;> rfl
  obtain ⟨hdrawings, hnotes, hnodup, hagain⟩ := refresh_reads_due notelessView day
  have hsecond (kind : HourlyKind) := hagain kind notelessView (hopen kind) (hdone kind)
    (looksAgain_refl notelessView day kind)
    (Cooldown.isOpen_of_period_zero (by cases kind <;> rfl) _)
  refine ⟨⟨?_, ?_⟩, ⟨?_, ?_⟩, fun kind => ⟨hnodup kind, congrArg Outcome.state (hsecond kind)⟩⟩
  · obtain ⟨files, hreads, -, hmem⟩ := hdrawings (hopen .image)
    have hlisted : drawing ∈ day.files .image drawnAndNotedDisk :=
      himage ▸ List.mem_singleton_self _
    obtain ⟨isFirst, hpath⟩ := mem_hourlyFiles_iff.mp hlisted
    have hfile : drawing ∈ files :=
      (hmem drawing).mpr ⟨isFirst, hpath, .inl (Slots.at?_empty _)⟩
    exact hreads ▸ List.mem_map_of_mem hfile
  · have hread : ∀ path ∈ (first .image).reads, ¬ notelessView.misreads .image path = true :=
      fun path _ => Bool.false_ne_true
    exact (congrArg Outcome.reads (hsecond .image)).trans (List.filter_eq_nil_iff.mpr hread)
  · obtain ⟨files, hreads, -, hmem⟩ := hnotes (hopen .event)
    have hlisted : note ∈ day.files .event drawnAndNotedDisk := hnote ▸ List.mem_singleton_self _
    obtain ⟨isFirst, hpath⟩ := mem_hourlyFiles_iff.mp hlisted
    have hfile : note ∈ files := (hmem note).mpr ⟨isFirst, hpath, Slots.at?_empty _⟩
    exact hreads ▸ List.mem_map_of_mem hfile
  · have hmisread : ∀ path ∈ (first .event).reads, notelessView.misreads .event path = true :=
      fun _ _ => rfl
    exact (congrArg Outcome.reads (hsecond .event)).trans (List.filter_eq_self.mpr hmisread)

end Main

end Day

end DrawingDiary
