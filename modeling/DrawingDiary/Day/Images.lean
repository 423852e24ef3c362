import DrawingDiary.Day.Basic

/-!
# Refreshing the drawings of a day

A refresh looks at the drawing of each hour. A file with the moment of change
that is remembered for its hour is not read again; any other is read, encoded
and composed into a tile. Only when all of them have been looked at does the
state change: new drawings and their tiles are stored, hours that have no
readable drawing any more are cleared, and the strip is encoded again. An
aborted read leaves everything but the gate as it was.
-/

namespace DrawingDiary

/-- What a look at the drawing of one hour gives. -/
inductive ImageLoad where
  /-- the file is the one that is remembered -/
  | unchanged
  /-- the file was read -/
  | loaded (tile : Raster) (image : HourImage)
  /-- the file could not be read or encoded -/
  | failed
  /-- the read was aborted -/
  | aborted

namespace ImageLoad

/-- Whether the hour has a drawing after this look. -/
def isPresent : ImageLoad → Bool
  | .unchanged => true
  | .loaded _ _ => true
  | .failed => false
  | .aborted => false

/-- Whether the look took the refresh down. -/
def isAborted : ImageLoad → Bool
  | .aborted => true
  | _ => false

end ImageLoad

/-- The hour, the path that was read, if any, and what came of it. -/
structure ImageLook where
  hour : Hour
  path? : Option Path
  load : ImageLoad

/-- A picture that was read, brought into the form in which it is stored. -/
def ImageLoad.ofPicture (settings : DaySettings) (modified : Timestamp) (picture : Picture) :
    ImageLoad :=
  match Png.encode picture with
  | some data =>
    .loaded (composeTile picture settings.tileWidth settings.tileHeight) ⟨data, modified⟩
  | none => .failed

/-- A look at one file, given the moment of change remembered for its hour. -/
def ImageLook.ofFile (view : View) (settings : DaySettings) (known : Option Timestamp)
    (file : HourlyFile) : ImageLook :=
  match view.disk.modified? file.path with
  | none => ⟨file.hour, none, .failed⟩
  | some modified =>
    if known = some modified then ⟨file.hour, none, .unchanged⟩
    else
      match view.reader.image view.disk file.path with
      | .success picture => ⟨file.hour, some file.path, .ofPicture settings modified picture⟩
      | .failure _ => ⟨file.hour, some file.path, .failed⟩
      | .aborted => ⟨file.hour, some file.path, .aborted⟩

namespace ImageState

/-- The state with a drawing that was read stored for its hour. -/
def accept (s : ImageState) (look : ImageLook) : ImageState :=
  match look.load with
  | .loaded tile image =>
    { s with
      strip := s.strip.placeTile (hourWord look.hour) tile
      slots := s.slots.put look.hour (some image) }
  | _ => s

/-- The state with an hour cleared, if anything is stored for it. -/
def clear (s : ImageState) (hour : Hour) : ImageState :=
  if (s.slots.at? hour).isSome then
    { s with strip := s.strip.clearHour (hourWord hour), slots := s.slots.put hour none }
  else s

/-- The state after all looks: what was read is stored, hours that are not
present are cleared, and the strip is encoded. A strip that cannot be encoded
leaves the old thumbnail. -/
def settle (s : ImageState) (looks : List ImageLook) : ImageState :=
  let present (hour : Hour) : Bool := looks.any fun look => look.hour = hour && look.load.isPresent
  let accepted := looks.foldl accept s
  let cleared := (allHours.filter fun hour => !present hour).foldl clear accepted
  { cleared with
    mask := HourMask.ofPred present
    thumbnail := cleared.strip.encode.getD cleared.thumbnail }

end ImageState

namespace Day

/-- The moment of change remembered for the drawing of an hour. -/
def knownModified (day : Day) (hour : Hour) : Option Timestamp :=
  (day.images.slots.at? hour).map (·.modified)

/-- The looks that a refresh of the drawings takes. -/
def imageLooks (day : Day) (view : View) : List ImageLook :=
  (day.files .image view.disk).map fun file =>
    ImageLook.ofFile view day.settings (day.knownModified file.hour) file

/-- Refreshes the drawings, unless their gate is closed. -/
def refreshImages (view : View) : Run Day Unit := fun day =>
  let (opened, gate) := day.images.gate.tryOpen view.now
  if opened then
    let stamped := { day.images with gate := gate }
    let looks := day.imageLooks view
    let reads := looks.filterMap (·.path?)
    if looks.any (·.load.isAborted) then ⟨{ day with images := stamped }, reads, none⟩
    else ⟨{ day with images := stamped.settle looks }, reads, some ()⟩
  else ⟨day, [], some ()⟩

theorem refreshImages_eq (view : View) (day : Day) :
    refreshImages view day =
      if day.images.gate.isOpen view.now then
        let stamped := { day.images with gate := day.images.gate.stamp view.now }
        let looks := day.imageLooks view
        let reads := looks.filterMap (·.path?)
        if looks.any (·.load.isAborted) then ⟨{ day with images := stamped }, reads, none⟩
        else ⟨{ day with images := stamped.settle looks }, reads, some ()⟩
      else ⟨day, [], some ()⟩ := by
  unfold refreshImages Cooldown.tryOpen
  by_cases isOpen : day.images.gate.isOpen view.now = true
  · rw [if_pos isOpen, if_pos isOpen]
    rfl
  · rw [if_neg isOpen, if_neg isOpen]
    rfl

end Day

end DrawingDiary
