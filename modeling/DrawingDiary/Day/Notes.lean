import DrawingDiary.Day.Basic

/-!
# Refreshing the notes of a day

A note is read once and kept until its file is gone; a note that could not be
read is tried again at the next refresh. An aborted read leaves everything but
the gate as it was.
-/

namespace DrawingDiary

/-- A look at the note of one hour. -/
structure NoteLook where
  hour : Hour
  path : Path
  read : ReadResult String

namespace NoteState

/-- The state with a note that was read stored for its hour. -/
def accept (s : NoteState) (look : NoteLook) : NoteState :=
  match look.read with
  | .success text => { s with slots := s.slots.put look.hour (some text) }
  | _ => s

/-- The state after all looks: what was read is stored, hours without a file are
cleared. -/
def settle (s : NoteState) (listed : List Hour) (looks : List NoteLook) : NoteState :=
  let accepted := looks.foldl accept s
  let slots := Slots.ofFn fun hour =>
    if listed.contains hour then accepted.slots.at? hour else none
  { accepted with
    slots := slots
    mask := HourMask.ofPred fun hour => (slots.at? hour).isSome }

end NoteState

namespace Day

/-- The looks that a refresh of the notes takes: at the files of the hours for
which no note is stored. -/
def noteLooks (day : Day) (view : View) : List NoteLook :=
  ((day.files .event view.disk).filter fun file => (day.notes.slots.at? file.hour).isNone).map
    fun file => ⟨file.hour, file.path, view.reader.note view.disk file.path⟩

/-- Refreshes the notes, unless their gate is closed. -/
def refreshEvents (view : View) : Run Day Unit := fun day =>
  let (opened, gate) := day.notes.gate.tryOpen view.now
  if opened then
    let stamped := { day.notes with gate := gate }
    let looks := day.noteLooks view
    let reads := looks.map (·.path)
    if looks.any (·.read.isAborted) then ⟨{ day with notes := stamped }, reads, none⟩
    else
      let listed := (day.files .event view.disk).map (·.hour)
      ⟨{ day with notes := stamped.settle listed looks }, reads, some ()⟩
  else ⟨day, [], some ()⟩

theorem refreshEvents_eq (view : View) (day : Day) :
    refreshEvents view day =
      if day.notes.gate.isOpen view.now then
        let stamped := { day.notes with gate := day.notes.gate.stamp view.now }
        let looks := day.noteLooks view
        let reads := looks.map (·.path)
        if looks.any (·.read.isAborted) then ⟨{ day with notes := stamped }, reads, none⟩
        else
          let listed := (day.files .event view.disk).map (·.hour)
          ⟨{ day with notes := stamped.settle listed looks }, reads, some ()⟩
      else ⟨day, [], some ()⟩ := by
  unfold refreshEvents Cooldown.tryOpen
  by_cases isOpen : day.notes.gate.isOpen view.now = true
  · rw [if_pos isOpen, if_pos isOpen]
    rfl
  · rw [if_neg isOpen, if_neg isOpen]
    rfl

end Day

end DrawingDiary
