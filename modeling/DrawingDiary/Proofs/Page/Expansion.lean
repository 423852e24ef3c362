import DrawingDiary.Proofs.Day.Again
import DrawingDiary.Proofs.Page.Shown

/-!
# Expanding the blocks of a page

To expand a block refreshes the notes of the days and changes nothing else. Done again at the
same moment and on the same disk, it gives the same text (`steady_expandDay`). So the blocks of
a page, and the days of a block, are all expanded as if each were the only one: a page is put
together from what its blocks show of the days as they were found (`result_renderLines`).
-/

namespace DrawingDiary

namespace Day

/-- A day as it was found, or with its notes refreshed with success since then. -/
def Noted (view : View) (day later : Day) : Prop :=
  later = day ∨
    (refreshEvents view day).result = some () ∧ later = (refreshEvents view day).state

variable {view : View} {day later : Day}

theorem noted_refl (view : View) (day : Day) : Noted view day day := .inl rfl

theorem Noted.date_eq (noted : Noted view day later) : later.date = day.date := by
  rcases noted with rfl | ⟨-, rfl⟩
  · rfl
  · obtain ⟨notes, hnotes⟩ := exists_notes_refreshEvents view day
    rw [hnotes]

theorem Noted.files_eq (noted : Noted view day later) (kind : Naming.HourlyKind) (disk : Disk) :
    later.files kind disk = day.files kind disk := by
  rcases noted with rfl | ⟨-, rfl⟩
  · rfl
  · obtain ⟨notes, hnotes⟩ := exists_notes_refreshEvents view day
    simp only [hnotes, files]

theorem Noted.imageFileNames_eq (noted : Noted view day later) (disk : Disk) :
    later.imageFileNames disk = day.imageFileNames disk := by
  unfold imageFileNames
  rw [noted.files_eq]

theorem Noted.imageMask_eq (noted : Noted view day later) (disk : Disk) :
    later.imageMask disk = day.imageMask disk := by
  unfold imageMask
  rw [noted.files_eq]

theorem Noted.result_refreshEvents (noted : Noted view day later) :
    (refreshEvents view later).result = (refreshEvents view day).result := by
  rcases noted with rfl | ⟨done, rfl⟩
  · rfl
  · exact (refreshEvents_again done).2.trans done.symm

theorem Noted.state_refreshEvents (noted : Noted view day later)
    (done : (refreshEvents view day).result = some ()) :
    (refreshEvents view later).state = (refreshEvents view day).state := by
  rcases noted with rfl | ⟨-, rfl⟩
  · rfl
  · exact (refreshEvents_again done).1

end Day

namespace Shelf

/-- A shelf of which each day is as it was found, or had its notes refreshed with success. -/
def Noted (view : View) (shelf later : Shelf) : Prop :=
  ∀ id, Day.Noted view (shelf.day id) (later.day id)

variable {view : View} {shelf : Shelf}

theorem noted_refl (view : View) (shelf : Shelf) : Noted view shelf shelf := fun id =>
  Day.noted_refl view (shelf.day id)

theorem steady_onDay {α : Type} {run : Run Day α} {answer : Option α} {id : DayId}
    (h : Run.Steady (Day.Noted view (shelf.day id)) run answer) :
    Run.Steady (Noted view shelf) (Shelf.onDay id run) answer := by
  refine ⟨fun later noted => h.result_eq _ (noted id), fun later noted hsome other => ?_⟩
  change Day.Noted view (shelf.day other) ((later.replace id (run (later.day id)).state).day other)
  rw [day_replace]
  split
  case isTrue hsame =>
    rw [← hsame.1]
    exact h.met_state _ (noted id) hsome
  case isFalse => exact noted other

end Shelf

namespace Page

section Expand

variable {view : View}

theorem steady_showDay (view : View) (day : Day) :
    Run.Steady (Day.Noted view day) (showDay view) (showDay view day).result := by
  constructor
  case result_eq =>
    intro later noted
    rw [(showDay_apply view later).2, (showDay_apply view day).2, noted.result_refreshEvents]
    cases hresult : (Day.refreshEvents view day).result with
    | none => rw [Option.map_none, Option.map_none]
    | some done =>
        rw [Option.map_some, Option.map_some, noted.date_eq, noted.imageFileNames_eq,
          noted.state_refreshEvents hresult]
  case met_state =>
    intro later noted hsome
    rw [(showDay_apply view day).2, Option.isSome_map] at hsome
    obtain ⟨⟨⟩, done⟩ := Option.isSome_iff_exists.mp hsome
    rw [(showDay_apply view later).1]
    exact .inr ⟨done, noted.state_refreshEvents done⟩

theorem expandDay_live (view : View) (endpoint block : String) (day : Day) :
    expandDay view (.live endpoint) block day =
      ⟨day, [], some (fillBlock block day.date
        ((PageTarget.live endpoint).dayUrl day.date ++ "/" ++ Naming.thumbnailFile)
        (String.join (Cells.live (day.imageMask view.disk)
          ((PageTarget.live endpoint).dayUrl day.date))))⟩ := rfl

/-- A block comes out the same however often it was expanded for the day before. -/
theorem steady_expandDay (view : View) (target : PageTarget) (block : String) (day : Day) :
    Run.Steady (Day.Noted view day) (expandDay view target block)
      (expandDay view target block day).result := by
  cases target with
  | live endpoint =>
      constructor
      case result_eq =>
        intro later noted
        rw [expandDay_live, expandDay_live, noted.date_eq, noted.imageMask_eq]
      case met_state => exact fun later noted _ => noted
  | static path =>
      have hsteady := (steady_showDay view day).map (ShownDay.text (.static path) block)
      rw [expandDay_static]
      exact hsteady.self (Day.noted_refl view day)

/-- The days of a block are expanded one by one, each as it was found. -/
theorem steady_expandDays (view : View) (target : PageTarget) (days : List DayId) (block : String)
    (shelf : Shelf) : Run.Steady (Shelf.Noted view shelf) (expandDays view target days block)
      ((days.mapM fun id => (expandDay view target block (shelf.day id)).result).map
        (String.intercalate "\n")) := by
  have hdays : Run.Steady (Shelf.Noted view shelf)
      (Run.forEach days fun id => Shelf.onDay id (expandDay view target block)) _ :=
    Run.Steady.forEach fun id _ =>
      Shelf.steady_onDay (steady_expandDay view target block (shelf.day id))
  rw [Option.map_eq_bind]
  exact hdays.bind fun pieces => Run.steady_pure (String.intercalate "\n" pieces)

/-- A block gives the texts of its days, each expanded as it was found, line by line. -/
theorem result_expandDays (view : View) (target : PageTarget) (days : List DayId) (block : String)
    (shelf : Shelf) : (expandDays view target days block shelf).result =
      (days.mapM fun id => (expandDay view target block (shelf.day id)).result).map
        (String.intercalate "\n") :=
  (steady_expandDays view target days block shelf).result_eq shelf (Shelf.noted_refl view shelf)

/-- A page is put together from its blocks, each expanded for the days as they were found. -/
theorem result_renderLines (view : View) (template : List String) (months : List Month)
    (requested : Option String) (target : PageTarget) (shelf : Shelf) :
    let window := MonthWindow.resolve (months.map (·.name)) requested
    (renderLines view template months requested target shelf).result =
      ((blocksFrom none template).mapM fun block =>
        (expandDays view target (windowDays months window) block shelf).result).map
        (assemble (PageFacts.gather months window target shelf view.disk).values false
          template) := by
  intro window
  let values := (PageFacts.gather months window target shelf view.disk).values
  have hrender : renderLines view template months requested target shelf =
      renderFrom values (expandDays view target (windowDays months window)) none template
        shelf := rfl
  have hblocks : Run.Steady (Shelf.Noted view shelf)
      (Run.forEach (blocksFrom none template)
        (expandDays view target (windowDays months window))) _ :=
    Run.Steady.forEach fun block _ =>
      (steady_expandDays view target (windowDays months window) block shelf).self
        (Shelf.noted_refl view shelf)
  rw [hrender, renderFrom_eq, ← map_eq_pure_bind]
  exact (hblocks.map (assemble values false template)).result_eq shelf (Shelf.noted_refl view shelf)

end Expand

end Page

end DrawingDiary
