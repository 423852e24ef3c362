import DrawingDiary.Proofs.Day.Answers
import DrawingDiary.Proofs.Day.Origin
import Mathlib.Data.List.DropRight

/-!
# The life of a note

What a day has noted for an hour depends on all the completed refreshes of its notes so far,
but on no other call and on no refresh that was aborted. `life_of_note` says how: only those
since the directory last listed no file for the hour count, and the note is the text that was
read first in them. The invariant is carried along the trace of a run; what one refresh does
to a note is `at?_slots_settledNotes`.
-/

namespace DrawingDiary

/-- The text that a look at a note gives. -/
def NoteLook.text? (look : NoteLook) : Option String :=
  match look.read with
  | .success text => some text
  | _ => none

/-- The text that the only look at an hour gives, if there is one. -/
def textAt? (looks : List NoteLook) (hour : Hour) : Option String :=
  (looks.find? fun look => look.hour = hour).bind (·.text?)

theorem textAt?_cons (look : NoteLook) (rest : List NoteLook) (hour : Hour) :
    textAt? (look :: rest) hour = if look.hour = hour then look.text? else textAt? rest hour := by
  by_cases h : look.hour = hour <;> simp [textAt?, h]

theorem textAt?_eq_none_of_ne {looks : List NoteLook} {hour : Hour}
    (h : ∀ look ∈ looks, hour ≠ look.hour) : textAt? looks hour = none := by
  rw [textAt?, List.find?_eq_none.mpr]
  · rfl
  · intro look hlook
    simpa using (h look hlook).symm

namespace NoteState

variable {s : NoteState} {looks : List NoteLook}

theorem at?_slots_accept (look : NoteLook) (hour : Hour) :
    (s.accept look).slots.at? hour =
      if look.hour = hour then look.text?.or (s.slots.at? hour) else s.slots.at? hour := by
  unfold accept NoteLook.text?
  cases look.read with
  | success text => simp [Slots.at?_put]
  | failure cause => simp
  | aborted => simp

/-- Of some accepted looks at distinct hours, the one at an hour decides what is stored for it. -/
theorem at?_slots_foldl_accept (distinct : looks.Pairwise fun a b => a.hour ≠ b.hour)
    (hour : Hour) :
    (looks.foldl accept s).slots.at? hour = (textAt? looks hour).or (s.slots.at? hour) := by
  induction looks generalizing s with
  | nil => rfl
  | cons look rest ih =>
      obtain ⟨hne, hrest⟩ := List.pairwise_cons.mp distinct
      rw [List.foldl_cons, ih hrest, at?_slots_accept, textAt?_cons]
      by_cases heq : look.hour = hour
      · subst heq
        rw [textAt?_eq_none_of_ne hne, if_pos rfl, if_pos rfl, Option.none_or]
      · rw [if_neg heq, if_neg heq]

theorem at?_slots_settle (distinct : looks.Pairwise fun a b => a.hour ≠ b.hour)
    (listed : List Hour) (hour : Hour) :
    (s.settle listed looks).slots.at? hour =
      if listed.contains hour then (textAt? looks hour).or (s.slots.at? hour) else none := by
  simp only [settle, Slots.at?_ofFn, at?_slots_foldl_accept distinct]

theorem has_mask_settle (listed : List Hour) (hour : Hour) :
    (s.settle listed looks).mask.has hour = ((s.settle listed looks).slots.at? hour).isSome := by
  simp only [settle, HourMask.has_ofPred, Slots.at?_ofFn]

end NoteState

namespace Day

open Naming (HourlyKind)

variable {view : View} {day : Day} {hour : Hour}

theorem pairwise_hour_noteLooks (view : View) (day : Day) :
    (day.noteLooks view).Pairwise fun a b => a.hour ≠ b.hour := by
  rw [noteLooks, List.pairwise_map]
  exact (day.pairwise_hour_files .event view.disk).filter _

theorem contains_hours_files (day : Day) (kind : HourlyKind) (disk : Disk) (hour : Hour) :
    ((day.files kind disk).map (·.hour)).contains hour = (day.file? kind disk hour).isSome := by
  rw [Bool.eq_iff_iff, List.contains_iff_mem, List.mem_map, file?, List.find?_isSome]
  simp only [decide_eq_true_eq]

/-- An hour with a note is not looked at; any other is looked at in the file that counts. -/
theorem textAt?_noteLooks (view : View) (day : Day) (hour : Hour) :
    textAt? (day.noteLooks view) hour =
      if day.notes.slots.at? hour = none then
        (day.file? .event view.disk hour).bind fun file =>
          NoteLook.text? ⟨file.hour, file.path, view.reader.note view.disk file.path⟩
      else none := by
  have hfits (file : HourlyFile) :
      ((day.notes.slots.at? file.hour).isNone = true ∧ decide (file.hour = hour) = true) ↔
        ((day.notes.slots.at? hour).isNone = true ∧ decide (file.hour = hour) = true) := by
    by_cases h : file.hour = hour <;> simp [h]
  rw [textAt?, noteLooks, List.find?_map, Option.bind_map, file?, List.find?_filter]
  simp only [Function.comp_def, hfits]
  cases day.notes.slots.at? hour with
  | none => simp
  | some text =>
      have hnothing : (day.files .event view.disk).find? (fun _ => false) = none := by
        rw [List.find?_eq_none]
        exact fun _ _ => Bool.false_ne_true
      simp [hnothing]

/-- A text is read for an hour that has no note, in the first file of the hour. -/
theorem textAt?_noteLooks_eq_some_iff {text : String} :
    textAt? (day.noteLooks view) hour = some text ↔ day.notes.slots.at? hour = none ∧
      ∃ name, IsFirstFile .event day.date day.directory view.disk hour name ∧
        view.reader.note view.disk (day.directory.join name) = .success text := by
  have hread (file : HourlyFile) :
      NoteLook.text? ⟨file.hour, file.path, view.reader.note view.disk file.path⟩ = some text ↔
        view.reader.note view.disk file.path = .success text := by
    simp only [NoteLook.text?]
    cases view.reader.note view.disk file.path <;> simp
  rw [textAt?_noteLooks]
  by_cases hempty : day.notes.slots.at? hour = none
  · rw [if_pos hempty, Option.bind_eq_some_iff]
    simp only [hempty, true_and, file?_eq_some_iff, hread]
    constructor
    · rintro ⟨file, ⟨first, hfile⟩, htext⟩
      rw [hfile] at htext
      exact ⟨file.name, first, htext⟩
    · rintro ⟨name, first, htext⟩
      exact ⟨⟨hour, name, day.directory.join name⟩, ⟨first, rfl⟩, htext⟩
  · simp [hempty]

/-- A completed refresh leaves an hour with its note or else with the text that was read for
it, as long as the directory lists a file for it. -/
theorem at?_slots_settledNotes (view : View) (day : Day) (hour : Hour) :
    (day.settledNotes view).slots.at? hour =
      if (day.file? .event view.disk hour).isSome then
        (day.notes.slots.at? hour).or (textAt? (day.noteLooks view) hour)
      else none := by
  rw [settledNotes, NoteState.at?_slots_settle (pairwise_hour_noteLooks view day),
    contains_hours_files, textAt?_noteLooks]
  cases day.notes.slots.at? hour with
  | none => rw [Option.or_none, Option.none_or]
  | some text => rfl

section Life

/-- Whether this is a refresh of the notes that finds their gate open and is not aborted. -/
def Refreshing.settlesNotes (r : Refreshing) : Bool :=
  r.kind = .event && r.found.notes.gate.isOpen r.view.now && !r.found.aborts r.view .event

/-- Whether a refresh finds a note file of the hour in the directory. -/
def Refreshing.listsNote (r : Refreshing) (hour : Hour) : Bool :=
  (r.found.file? .event r.view.disk hour).isSome

/-- The text that a refresh reads for the hour, if it reads one. -/
def Refreshing.text? (r : Refreshing) (hour : Hour) : Option String :=
  textAt? (r.found.noteLooks r.view) hour

/-- The completed refreshes of the notes among the refreshes so far. -/
def noteRounds (past : List Refreshing) : List Refreshing := past.filter (·.settlesNotes)

/-- The longest run of completed refreshes of the notes, up to the last one, that all find a file
for the hour. -/
def noteStreak (past : List Refreshing) (hour : Hour) : List Refreshing :=
  (noteRounds past).rtakeWhile (·.listsNote hour)

/-- What is remembered of the notes follows from the past. -/
structure NotesFollow (past : List Refreshing) (day : Day) : Prop where
  slots : ∀ hour, day.notes.slots.at? hour = (noteStreak past hour).findSome? (·.text? hour)
  mask : ∀ hour, day.notes.mask.has hour = (day.notes.slots.at? hour).isSome

variable {past : List Refreshing}

theorem notesFollow_new (date : String) (directory : Path) (settings : DaySettings) :
    NotesFollow [] (new date directory settings) where
  slots hour := Slots.at?_empty hour
  mask hour := by simp [new, HourMask.has]

theorem noteStreak_append_of_not_settles {r : Refreshing} (h : r.settlesNotes = false)
    (hour : Hour) : noteStreak (past ++ [r]) hour = noteStreak past hour := by
  simp [noteStreak, noteRounds, h]

theorem noteStreak_append_of_settles {r : Refreshing} (h : r.settlesNotes = true) (hour : Hour) :
    noteStreak (past ++ [r]) hour =
      if r.listsNote hour then noteStreak past hour ++ [r] else [] := by
  rw [noteStreak, noteRounds, List.filter_append, List.filter_singleton, h, cond_true,
    List.rtakeWhile_concat]
  rfl

theorem settlesNotes_iff {kind : HourlyKind} :
    (Refreshing.mk view kind day).settlesNotes = true ↔
      kind = .event ∧ (day.gate .event).isOpen view.now = true ∧
        day.aborts view .event = false := by
  simp [Refreshing.settlesNotes, gate, and_assoc]

theorem notes_refreshKind_of_settles {kind : HourlyKind}
    (h : (Refreshing.mk view kind day).settlesNotes = true) :
    (refreshKind view kind day).state.notes = day.settledNotes view := by
  obtain ⟨rfl, isOpen, done⟩ := settlesNotes_iff.mp h
  rw [refreshKind_eq, if_pos isOpen, done]
  rfl

/-- A refresh that is not a completed one of the notes leaves them as they are, their gate
apart. -/
theorem notes_refreshKind_of_not_settles {kind : HourlyKind}
    (h : (Refreshing.mk view kind day).settlesNotes = false) :
    (refreshKind view kind day).state.notes.slots = day.notes.slots ∧
      (refreshKind view kind day).state.notes.mask = day.notes.mask := by
  cases kind with
  | image =>
      have keeps : Keeps day (Day.refreshKind view .image day).state .event :=
        keeps_refreshKind (by decide)
      rw [keeps]
      exact ⟨rfl, rfl⟩
  | event =>
      rw [refreshKind_eq]
      by_cases isOpen : (day.gate .event).isOpen view.now = true
      · rw [if_pos isOpen]
        cases aborted : day.aborts view .event with
        | true => exact ⟨rfl, rfl⟩
        | false =>
            rw [settlesNotes_iff.mpr ⟨rfl, isOpen, aborted⟩] at h
            cases h
      · rw [if_neg isOpen]
        exact ⟨rfl, rfl⟩

theorem NotesFollow.refreshKind (follow : NotesFollow past day) (view : View)
    (kind : HourlyKind) :
    NotesFollow (past ++ [⟨view, kind, day⟩]) (refreshKind view kind day).state := by
  cases hsettles : (Refreshing.mk view kind day).settlesNotes with
  | false =>
      obtain ⟨hslots, hmask⟩ := notes_refreshKind_of_not_settles hsettles
      constructor
      · intro hour
        rw [hslots, noteStreak_append_of_not_settles hsettles]
        exact follow.slots hour
      · intro hour
        rw [hslots, hmask]
        exact follow.mask hour
  | true =>
      have hnotes := notes_refreshKind_of_settles hsettles
      constructor
      · intro hour
        rw [hnotes, at?_slots_settledNotes, noteStreak_append_of_settles hsettles, follow.slots]
        change (if (Refreshing.mk view kind day).listsNote hour then _ else _) = _
        split
        · rw [List.findSome?_append, List.findSome?_singleton]
          rfl
        · rfl
      · intro hour
        rw [hnotes]
        exact NoteState.has_mask_settle _ hour

theorem named_of_mem_trace {date : String} {directory : Path} {settings : DaySettings}
    {asked : List (View × Call)} {r : Refreshing}
    (h : r ∈ trace asked (new date directory settings)) :
    r.found.Named date directory settings := by
  have named : (new date directory settings).Named date directory settings := ⟨rfl, rfl, rfl⟩
  refine (holds_trace (motive := fun past day =>
    (∀ r ∈ past, r.found.Named date directory settings) ∧ day.Named date directory settings)
    (fun past view kind day hpast => ⟨fun r hr => ?_, hpast.2.refreshKind view kind⟩) asked
    ⟨by simp, named⟩).1 r h
  rcases List.mem_append.mp hr with hmem | hmem
  · exact hpast.1 r hmem
  · cases List.mem_singleton.mp hmem
    exact hpast.2

end Life

/-- After any run of a new day, take the longest run of completed refreshes of the notes, up to
the last one, that all found a file for an hour. The note of the hour is the text that was read
first in them. There is a note exactly when a text was read in one of them, and the mask has
exactly the hours with a note. A completed refresh finds a file when some name in the directory
is one for the hour, and it reads a text when the hour has no note yet and the reader gets the
text from the first such file. -/
theorem life_of_note (date : String) (directory : Path) (settings : DaySettings)
    (asked : List (View × Call)) (hour : Hour) :
    let start := new date directory settings
    let day := afterAll asked start
    let streak := noteStreak (trace asked start) hour
    (day.notes.slots.at? hour = streak.findSome? (·.text? hour)) ∧
    ((day.notes.slots.at? hour).isSome = true ↔ ∃ r ∈ streak, ∃ text, r.text? hour = some text) ∧
    (day.notes.mask.has hour = (day.notes.slots.at? hour).isSome) ∧
    ∀ r ∈ noteRounds (trace asked start),
      (r.listsNote hour = true ↔
        ∃ name, IsHourlyFile .event date directory r.view.disk hour name) ∧
      ∀ text, r.text? hour = some text ↔ r.found.notes.slots.at? hour = none ∧
        ∃ name, IsFirstFile .event date directory r.view.disk hour name ∧
          r.view.reader.note r.view.disk (directory.join name) = .success text := by
  intro start day streak
  have follow : NotesFollow (trace asked start) day :=
    holds_trace (fun _ view kind _ follow => follow.refreshKind view kind) asked
      (notesFollow_new date directory settings)
  refine ⟨follow.slots hour, ?_, follow.mask hour, fun r hr => ?_⟩
  · rw [follow.slots, List.findSome?_isSome_iff]
    simp only [Option.isSome_iff_exists]
    rfl
  · have named := named_of_mem_trace (List.mem_of_mem_filter hr)
    obtain ⟨hdate, hdirectory, -⟩ := named
    refine ⟨?_, fun text => ?_⟩
    · rw [Refreshing.listsNote, isSome_file?_iff, hdate, hdirectory]
    · rw [Refreshing.text?, textAt?_noteLooks_eq_some_iff, hdate, hdirectory]

end Day

end DrawingDiary
