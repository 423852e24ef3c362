import DrawingDiary.Diary.Access

/-!
# The strips of all days at once

All days see to their strips at the same time. Each looks whether its file is there, and if not,
it refreshes its notes, refreshes its drawings and writes its strip; in between, other days take
steps of their own. Nothing keeps a second day from the same file once it was found missing.

What a refresh sees is a parameter (`looks`), because files may be written while it lists and
reads. `materializeThumbnails` takes the days one after the other and is one of these schedules.
-/

namespace DrawingDiary.Diary

/-- How far a day has come with its strip. -/
inductive Stage
  | waiting
  /-- there was no file of the strip -/
  | missing
  | noted
  | drawn
  | done (written : Bool)
deriving DecidableEq, Repr

/-- A diary whose days are at their strips. -/
structure Work where
  disk : Disk
  diary : Diary
  stage : DayId → Stage
  /-- the paths whose content was asked for, in order -/
  reads : List Path

namespace Work

def start (disk : Disk) (diary : Diary) : Work := ⟨disk, diary, fun _ => .waiting, []⟩

variable (work : Work) (id : DayId)

def day : Day := work.diary.shelf.day id

def enter (stage : Stage) : Work :=
  { work with stage := fun other => if other = id then stage else work.stage other }

/-- A day refreshes what it remembers. -/
def refresh (run : Run Day Unit) (stage : Stage) : Work :=
  let o := run (work.day id)
  { work.enter id stage with
    diary := { work.diary with shelf := work.diary.shelf.replace id o.state }
    reads := work.reads ++ o.reads }

/-- A day writes its strip, whatever there is by now. -/
def save : Work :=
  let day := work.day id
  let (disk, written) := Day.saveStrip day.images.strip day.thumbnailPath work.disk
  { work.enter id (.done written) with disk := disk }

end Work

/-- What a day may do next. A day whose read is aborted does nothing more. -/
inductive Step (looks : Disk → View → Prop) (id : DayId) : Work → Work → Prop
  | found {work : Work} : work.stage id = .waiting →
      work.disk.isFile (work.day id).thumbnailPath = true →
      Step looks id work (work.enter id (.done false))
  | missing {work : Work} : work.stage id = .waiting →
      work.disk.isFile (work.day id).thumbnailPath = false →
      Step looks id work (work.enter id .missing)
  | note {work : Work} {view : View} : work.stage id = .missing → looks work.disk view →
      (Day.refreshEvents view (work.day id)).result = some () →
      Step looks id work (work.refresh id (Day.refreshEvents view) .noted)
  | draw {work : Work} {view : View} : work.stage id = .noted → looks work.disk view →
      (Day.refreshImages view (work.day id)).result = some () →
      Step looks id work (work.refresh id (Day.refreshImages view) .drawn)
  | save {work : Work} : work.stage id = .drawn → Step looks id work (work.save id)

/-- Some steps of some days, in any order. -/
inductive Steps (looks : Disk → View → Prop) (ids : List DayId) : Nat → Work → Work → Prop
  | none {work : Work} : Steps looks ids 0 work work
  | step {n : Nat} {s t u : Work} {id : DayId} : Steps looks ids n s t → id ∈ ids →
      Step looks id t u → Steps looks ids (n + 1) s u

def Work.Finished (ids : List DayId) (work : Work) : Prop :=
  ∀ id ∈ ids, ∃ written, work.stage id = .done written

/-- What is answered in the end: the numbers of days and of files written. -/
def Work.outcome (ids : List DayId) (work : Work) : Outcome (Disk × Diary) (Nat × Nat) :=
  ⟨(work.disk, work.diary), work.reads,
    some (ids.length, ids.countP fun id => work.stage id = .done true)⟩

/-- The strips of all days are seen to in some order, after a refresh of the diary. -/
def Materializes (looks : Disk → View → Prop) (view : View) (diary : Diary)
    (outcome : Outcome (Disk × Diary) (Nat × Nat)) : Prop :=
  ∃ n work, Steps looks (diary.refresh view).newestFirst n
      (.start view.disk (diary.refresh view)) work ∧
    work.Finished (diary.refresh view).newestFirst ∧
    outcome = work.outcome (diary.refresh view).newestFirst

/-- A refresh sees the disk as it is when it begins. -/
def LooksAtOnce (setting : Setting) (disk : Disk) (view : View) : Prop :=
  view = { toSetting := setting, disk := disk }

end DrawingDiary.Diary
