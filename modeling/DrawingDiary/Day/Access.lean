import DrawingDiary.Day.Images
import DrawingDiary.Day.Notes
import DrawingDiary.Disk.Changing

/-!
# Asking a day

Every question pulls: it refreshes the kinds it needs, each behind its own gate,
and answers from what is remembered then. A question for an hour that does not
exist is rejected before anything is refreshed.
-/

namespace DrawingDiary.Day

def refresh (view : View) : Run Day Unit := do
  refreshImages view
  refreshEvents view

/-- The encoded drawing of an hour, if there is one. -/
def imageData (view : View) (hour : UInt32) : Run Day (Except LookupError (Option ByteArray)) :=
  match checkHour hour with
  | .error e => pure (.error e)
  | .ok h => do
    refreshImages view
    return .ok (((← Run.state).images.slots.at? h).map (·.data))

def event (view : View) (hour : UInt32) : Run Day (Except LookupError (Option String)) :=
  match checkHour hour with
  | .error e => pure (.error e)
  | .ok h => do
    refreshEvents view
    return .ok ((← Run.state).notes.slots.at? h)

def events (view : View) : Run Day (Slots String) := do
  refreshEvents view
  return (← Run.state).notes.slots

def thumbnailData (view : View) : Run Day ByteArray := do
  refreshEvents view
  refreshImages view
  return (← Run.state).images.thumbnail

/-- The hours that have a note, after both kinds were refreshed. -/
def eventMask (view : View) : Run Day HourMask := do
  refreshImages view
  refreshEvents view
  return (← Run.state).notes.mask

def thumbnailPath (day : Day) : Path := day.directory.join Naming.thumbnailFile

/-- The disk after the strip was written to a file, and whether it was. A strip
that has no encoded form leaves an empty file. -/
def saveStrip (strip : Strip) (path : Path) (disk : Disk) : Disk × Bool :=
  match disk.writeFile path (strip.encode.getD ByteArray.empty) with
  | .ok disk => (disk, strip.encode.isSome)
  | .error _ => (disk, false)

/-- Writes the strip into the day directory, unless its file is there already,
and answers whether it was written. -/
def createThumbnailFile (setting : Setting) : Run (Disk × Day) Bool := do
  let (disk, day) ← Run.state
  if disk.isFile day.thumbnailPath then return false
  let view : View := { toSetting := setting, disk := disk }
  Run.onPart (·.2) (fun s day => (s.1, day)) do
    refreshEvents view
    refreshImages view
  let (_, day) ← Run.state
  let (saved, written) := saveStrip day.images.strip day.thumbnailPath disk
  Run.update fun s => (saved, s.2)
  return written

end DrawingDiary.Day
