import DrawingDiary.Proofs.Day.Calls

/-!
# The days that calls lead to

`Reached` holds of every day that some sequence of calls leads to from a new one; the
disk, the reader and the moment may be different at every call, and any read may fail or
be aborted. A day does not remember which pictures its drawings were made of, so an
`ImagePast` is carried along that does: it notes whether a refresh of the drawings was
ever completed, and the picture that filled each hour. What a refresh does with the
drawings is said once, in `refreshImages_cases`.
-/

namespace DrawingDiary

open Naming (HourlyKind)

/-- The picture that a file holds, if it can be read and stored. -/
def View.picture? (view : View) (path : Path) : Option Picture :=
  match view.reader.image view.disk path with
  | .success picture => if (Png.encode picture).isSome then some picture else none
  | _ => none

/-- What has happened to the drawings of a day. -/
structure ImagePast where
  /-- whether a refresh of the drawings was completed, its gate being open -/
  completed : Bool := false
  /-- the picture that filled each hour that is filled -/
  source : Hour → Option Picture := fun _ => none

namespace Day

/-- Whether a refresh of the drawings finds its gate open and is not aborted. -/
def completesImages (view : View) (day : Day) : Bool :=
  day.images.gate.isOpen view.now && !(day.imageLooks view).any (·.load.isAborted)

/-- The drawings after somebody went through their gate. -/
def stampedImages (view : View) (day : Day) : ImageState :=
  { day.images with gate := day.images.gate.stamp view.now }

def settledImages (view : View) (day : Day) : ImageState :=
  (day.stampedImages view).settle (day.imageLooks view)

/-- The picture behind an hour after a completed refresh, given the one behind it
before: a file with the remembered moment is not read again, any other is. -/
def sourceAfter (view : View) (day : Day) (before : Option Picture) (hour : Hour) :
    Option Picture :=
  match day.file? .image view.disk hour with
  | none => none
  | some file =>
    match view.disk.modified? file.path with
    | none => none
    | some moment =>
      if day.knownModified hour = some moment then before else view.picture? file.path

end Day

namespace ImagePast

/-- The past after a refresh of one kind. -/
def afterKind (view : View) (day : Day) (past : ImagePast) : HourlyKind → ImagePast
  | .image =>
    if day.completesImages view then
      { completed := true
        source := fun hour => day.sourceAfter view (past.source hour) hour }
    else past
  | .event => past

/-- The past after refreshes of some kinds, up to the first one that is aborted. -/
def afterKinds (view : View) : List HourlyKind → Day → ImagePast → ImagePast
  | [], _, past => past
  | kind :: rest, day, past =>
    match (Day.refreshKind view kind day).result with
    | none => past.afterKind view day kind
    | some _ =>
      afterKinds view rest (Day.refreshKind view kind day).state (past.afterKind view day kind)

end ImagePast

namespace Day

/-- The days that calls lead to from a new day, and what has happened on the way. -/
inductive Reached (date : String) (directory : Path) (settings : DaySettings) :
    Day → ImagePast → Prop where
  | new : Reached date directory settings (Day.new date directory settings) {}
  | call {day : Day} {past : ImagePast} (view : View) (call : Call) :
      Reached date directory settings day past →
      Reached date directory settings (call.after view day)
        (past.afterKinds view (call.kinds view.disk day) day)

theorem holds_refreshKinds {motive : Day → ImagePast → Prop} (view : View)
    (refresh : ∀ kind day past, motive day past →
      motive (refreshKind view kind day).state (past.afterKind view day kind))
    (kinds : List HourlyKind) {day : Day} (past : ImagePast) (h : motive day past) :
    motive (refreshKinds view kinds day).state (past.afterKinds view kinds day) := by
  induction kinds generalizing day past with
  | nil => exact h
  | cons kind rest ih =>
      have first := refresh kind day past h
      rw [state_refreshKinds_cons, ImagePast.afterKinds]
      cases (refreshKind view kind day).result with
      | none => exact first
      | some _ => exact ih _ first

/-- What holds of a new day and is kept by a refresh of either kind holds of every day
that calls lead to. -/
theorem Reached.induct {date : String} {directory : Path} {settings : DaySettings}
    {motive : Day → ImagePast → Prop} (new : motive (Day.new date directory settings) {})
    (refresh : ∀ view kind day past, motive day past →
      motive (refreshKind view kind day).state (past.afterKind view day kind))
    {day : Day} {past : ImagePast} (reached : Reached date directory settings day past) :
    motive day past := by
  induction reached with
  | new => exact new
  | call view call _ ih =>
      rw [Call.after_eq]
      exact holds_refreshKinds view (refresh view) _ _ ih

/-- A refresh of the drawings stops at its gate, or is aborted and only stamps the gate,
or is completed and settles. -/
theorem refreshImages_cases (view : View) (day : Day) :
    (day.images.gate.isOpen view.now = false ∧ day.completesImages view = false ∧
        refreshImages view day = ⟨day, [], some ()⟩) ∨
      (day.completesImages view = false ∧ (refreshImages view day).result = none ∧
        (refreshImages view day).state =
          { day with images := day.stampedImages view }) ∨
      (day.completesImages view = true ∧ (refreshImages view day).result = some () ∧
        (refreshImages view day).state =
          { day with images := day.settledImages view }) := by
  rw [refreshImages_eq]
  unfold completesImages settledImages stampedImages
  by_cases hopen : day.images.gate.isOpen view.now
  · by_cases habort : (day.imageLooks view).any (·.load.isAborted)
    · exact .inr (.inl (by simp [hopen, habort]))
    · exact .inr (.inr (by simp [hopen, habort]))
  · exact .inl (by simp [hopen])

theorem state_refreshImages_of_completes {view : View} {day : Day}
    (h : day.completesImages view = true) :
    (refreshImages view day).result = some () ∧
      (refreshImages view day).state = { day with images := day.settledImages view } := by
  rcases refreshImages_cases view day with ⟨-, hstay, -⟩ | ⟨hstay, -⟩ | ⟨-, hdone⟩
  · rw [h] at hstay
    cases hstay
  · rw [h] at hstay
    cases hstay
  · exact hdone

theorem exists_notes_refreshEvents (view : View) (day : Day) :
    ∃ notes, (refreshEvents view day).state = { day with notes := notes } := by
  rw [refreshEvents_eq]
  by_cases hopen : day.notes.gate.isOpen view.now
  · by_cases habort : (day.noteLooks view).any (·.read.isAborted)
    · exact ⟨_, by simp [hopen, habort]; rfl⟩
    · exact ⟨_, by simp [hopen, habort]; rfl⟩
  · exact ⟨day.notes, by simp [hopen]⟩

/-- The name, the place and the settings of a day, which never change. -/
structure Named (date : String) (directory : Path) (settings : DaySettings) (day : Day) :
    Prop where
  date_eq : day.date = date
  directory_eq : day.directory = directory
  settings_eq : day.settings = settings

section Named

variable {date : String} {directory : Path} {settings : DaySettings} {day : Day}

theorem Named.refreshKind (named : day.Named date directory settings) (view : View)
    (kind : HourlyKind) : (refreshKind view kind day).state.Named date directory settings := by
  cases kind with
  | image =>
      change (refreshImages view day).state.Named date directory settings
      rcases refreshImages_cases view day with ⟨-, -, heq⟩ | ⟨-, -, heq⟩ | ⟨-, -, heq⟩ <;>
        rw [heq] <;> exact ⟨named.1, named.2, named.3⟩
  | event =>
      obtain ⟨notes, heq⟩ := exists_notes_refreshEvents view day
      change (refreshEvents view day).state.Named date directory settings
      rw [heq]
      exact ⟨named.1, named.2, named.3⟩

theorem Named.refreshKinds (named : day.Named date directory settings) (view : View)
    (kinds : List HourlyKind) :
    (refreshKinds view kinds day).state.Named date directory settings :=
  holds_refreshKinds (motive := fun day _ => day.Named date directory settings) view
    (fun kind _ _ named => named.refreshKind view kind) kinds {} named

theorem Named.after (named : day.Named date directory settings) (view : View) (call : Call) :
    (call.after view day).Named date directory settings := by
  rw [Call.after_eq]
  exact named.refreshKinds view _

theorem period_refreshKind (view : View) (kind : HourlyKind) (day : Day) :
    (Day.refreshKind view kind day).state.images.gate.period = day.images.gate.period := by
  cases kind with
  | image =>
      change (refreshImages view day).state.images.gate.period = _
      rcases refreshImages_cases view day with ⟨-, -, heq⟩ | ⟨-, -, heq⟩ | ⟨-, -, heq⟩ <;>
        rw [heq]
      · rfl
      · simp [settledImages, stampedImages, Cooldown.stamp]
  | event =>
      obtain ⟨notes, heq⟩ := exists_notes_refreshEvents view day
      change (refreshEvents view day).state.images.gate.period = _
      rw [heq]

theorem Reached.named {past : ImagePast} (reached : Reached date directory settings day past) :
    day.Named date directory settings :=
  reached.induct (motive := fun day _ => day.Named date directory settings)
    ⟨rfl, rfl, rfl⟩ fun view kind _ _ named => named.refreshKind view kind

theorem Reached.imagePeriod {past : ImagePast}
    (reached : Reached date directory settings day past) :
    day.images.gate.period = settings.imageCooldown :=
  reached.induct (motive := fun day _ => day.images.gate.period = settings.imageCooldown)
    rfl fun view kind _ _ period => (period_refreshKind view kind _).trans period

end Named

/-- A day directory that holds a drawing of the third hour and, later on, one of the
fifth hour. -/
def twoHoursDisk (later : Bool) : Disk where
  root := .directory [("d", .directory (
    ("rabbit-2022-11-01-3.png", .file ByteArray.empty ⟨1, 0⟩) ::
      if later then [("rabbit-2022-11-01-5.png", .file ByteArray.empty ⟨2, 0⟩)] else []))]

/-- A reader that reads one white pixel from every drawing of that directory. -/
def twoHoursView (later : Bool) : View where
  reader := Reader.uniform ⟨1, 1, .l8, ⟨#[255]⟩, rfl⟩
  now := 0
  disk := twoHoursDisk later

end Day

end DrawingDiary
