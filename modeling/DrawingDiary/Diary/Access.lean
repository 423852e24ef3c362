import DrawingDiary.Diary.Basic

/-!
# Asking a diary

Lookups by date refresh the diary first. Which of the errors a lookup gives is
decided in this order: there is no such day, there is no such hour on a clock,
the day has nothing at the hour.
-/

namespace DrawingDiary.Diary

def onShelf {α : Type} (run : Run Shelf α) : Run Diary α :=
  Run.onPart (·.shelf) (fun diary shelf => { diary with shelf := shelf }) run

def onDay {α : Type} (id : DayId) (run : Run Day α) : Run Diary α := onShelf (Shelf.onDay id run)

/-- All cached days, newest first, after a refresh. -/
def daysReversed (view : View) : Run Diary (List DayId) := do
  Run.update (refresh view)
  return (← Run.state).newestFirst

def day? (view : View) (date : String) : Run Diary (Option DayId) := do
  Run.update (refresh view)
  return (← Run.state).days.lookup date

def dayThumbnail (view : View) (date : String) : Run Diary (Except LookupError ByteArray) := do
  match ← day? view date with
  | none => return .error (.noSuchDay date)
  | some id => return .ok (← onDay id (Day.thumbnailData view))

def dayHourImage (view : View) (date : String) (hour : UInt32) :
    Run Diary (Except LookupError ByteArray) := do
  match ← day? view date with
  | none => return .error (.noSuchDay date)
  | some id =>
    match ← onDay id (Day.imageData view hour) with
    | .error e => return .error e
    | .ok none => return .error (.noSuchHour date hour)
    | .ok (some data) => return .ok data

/-- Writes the strip of one day into its directory, unless it is there. -/
def createThumbnailFile (setting : Setting) (id : DayId) : Run (Disk × Diary) Bool :=
  Run.onPart (fun s => (s.1, s.2.shelf.day id))
    (fun s t => (t.1, { s.2 with shelf := s.2.shelf.replace id t.2 }))
    (Day.createThumbnailFile setting)

/-- Writes the strip of every day that lacks its file, and answers with the
numbers of days and of files written. The days have their turns one after the other, which is one
of the schedules of `Materializes`. -/
def materializeThumbnails (setting : Setting) : Run (Disk × Diary) (Nat × Nat) := do
  let (disk, _) ← Run.state
  let view : View := { toSetting := setting, disk := disk }
  let ids ← Run.onPart (·.2) (fun s diary => (s.1, diary)) (daysReversed view)
  let written ← Run.forEach ids (createThumbnailFile setting)
  return (ids.length, written.count true)

end DrawingDiary.Diary
