import DrawingDiary.Proofs.Day.Origin
import DrawingDiary.Proofs.Diary.Refresh
import DrawingDiary.Proofs.Page.Assemble

/-!
# What the days of a page show

The days of a diary directory show what stands there: `ShownFrom` says that the names are
those of hourly files and that the notes were read from such files, each on an allowed disk.
To look at a day keeps what is known of it (`ensures_showDay`), so it holds of all that a
page shows (`exists_shown_of_renderLines`), page after page. A page is always rendered when
no read of a note is aborted (`completes_renderLines`).
-/

namespace DrawingDiary

namespace Shelf

variable {α : Type} {good : Day → Prop} {fine : α → Prop} {run : Run Day α}

theorem ensures_onDay (h : Run.Ensures good run fun a day => good day ∧ fine a)
    {ids : List DayId} {id : DayId} (hid : id ∈ ids) :
    Run.Ensures (fun shelf => ∀ id ∈ ids, good (shelf.day id)) (Shelf.onDay id run)
      fun a shelf => (∀ id ∈ ids, good (shelf.day id)) ∧ fine a := by
  intro shelf a hshelf ha
  obtain ⟨hday, hfine⟩ := h (shelf.day id) a (hshelf id hid) ha
  refine ⟨fun other hother => ?_, hfine⟩
  change good ((shelf.replace id (run (shelf.day id)).state).day other)
  rw [day_replace]
  split
  · exact hday
  · exact hshelf other hother

end Shelf

namespace Page

/-- A day of a diary directory with notes that were read on allowed disks. -/
structure IsDayOf (reader : Reader) (allowed : Disk → Prop) (dates : String → Prop) (root : Path)
    (day : Day) : Prop where
  date : dates day.date
  directory_eq : day.directory = root.join day.date
  notes : NotesFrom reader allowed day.date day.directory day.notes.slots

/-- What is shown of a day of a diary directory was found there, each on an allowed disk. -/
structure ShownFrom (reader : Reader) (allowed : Disk → Prop) (dates : String → Prop)
    (root : Path) (shown : ShownDay) : Prop where
  date : dates shown.date
  images : ∀ hour name, shown.images.at? hour = some name → ∃ disk, allowed disk ∧
    IsHourlyFile .image shown.date (root.join shown.date) disk hour name
  notes : NotesFrom reader allowed shown.date (root.join shown.date) shown.notes

variable {view : View} {allowed wider : Disk → Prop} {dates : String → Prop} {root : Path}
  {months : List Month} {shelf : Shelf} {day : Day}

theorem IsDayOf.mono {reader : Reader} (h : IsDayOf reader allowed dates root day)
    (sub : ∀ disk, allowed disk → wider disk) : IsDayOf reader wider dates root day where
  date := h.date
  directory_eq := h.directory_eq
  notes hour text htext := by
    obtain ⟨disk, name, hdisk, hfile, hread⟩ := h.notes hour text htext
    exact ⟨disk, name, sub disk hdisk, hfile, hread⟩

theorem IsDayOf.refreshEvents (h : IsDayOf view.reader allowed dates root day)
    (hdisk : allowed view.disk) :
    IsDayOf view.reader allowed dates root (Day.refreshEvents view day).state := by
  have hread := h.notes.refreshEvents hdisk
  obtain ⟨notes, hnotes⟩ := Day.exists_notes_refreshEvents view day
  rw [hnotes] at hread ⊢
  exact ⟨h.date, h.directory_eq, hread⟩

theorem IsDayOf.after (h : IsDayOf view.reader allowed dates root day) (hdisk : allowed view.disk)
    (call : Day.Call) : IsDayOf view.reader allowed dates root (call.after view day) := by
  rw [Day.Call.after_eq]
  refine Day.holds_refreshKinds (motive := fun day _ => IsDayOf view.reader allowed dates root day)
    view (fun kind day _ h => ?_) _ {} h
  cases kind with
  | event => exact h.refreshEvents hdisk
  | image =>
      change IsDayOf _ _ _ _ (Day.refreshImages view day).state
      rcases Day.refreshImages_cases view day with ⟨-, -, heq⟩ | ⟨-, -, heq⟩ | ⟨-, -, heq⟩
      · rwa [heq]
      · rw [heq]
        exact ⟨h.date, h.directory_eq, h.notes⟩
      · rw [heq]
        exact ⟨h.date, h.directory_eq, h.notes⟩

theorem showDay_apply (view : View) (day : Day) :
    (showDay view day).state = (Day.refreshEvents view day).state ∧
      (showDay view day).result = (Day.refreshEvents view day).result.map fun _ =>
        ⟨day.date, day.imageFileNames view.disk,
          (Day.refreshEvents view day).state.notes.slots⟩ := by
  simp only [showDay, Day.events, Run.bind_apply, Run.state]
  cases (Day.refreshEvents view day).result <;> exact ⟨rfl, rfl⟩

/-- What is shown of a day now comes from the disk as it is now, or was read before. -/
theorem ensures_showDay (hdisk : allowed view.disk) :
    Run.Ensures (IsDayOf view.reader allowed dates root) (showDay view) fun shown day =>
      IsDayOf view.reader allowed dates root day ∧
        ShownFrom view.reader allowed dates root shown := by
  intro day shown hday hshown
  obtain ⟨hstate, hresult⟩ := showDay_apply view day
  rw [hresult] at hshown
  obtain ⟨-, -, rfl⟩ := Option.map_eq_some_iff.mp hshown
  refine ⟨hstate ▸ hday.refreshEvents hdisk, hday.date,
    fun hour name hname => ⟨view.disk, hdisk, ?_⟩, ?_⟩
  · rw [← hday.directory_eq]
    exact Day.isHourlyFile_of_imageFileNames hname
  · rw [← hday.directory_eq]
    exact hday.notes.refreshEvents hdisk

theorem mem_flatMap_of_mem_windowDays {window : MonthWindow} {id : DayId}
    (h : id ∈ windowDays months window) : id ∈ months.flatMap (·.days) := by
  unfold windowDays at h
  cases hmonth : window.current.bind (months[·]?) with
  | none =>
      rw [hmonth] at h
      cases h
  | some month =>
      rw [hmonth] at h
      obtain ⟨i, -, hget⟩ := Option.bind_eq_some_iff.mp hmonth
      exact List.mem_flatMap.mpr ⟨month, List.mem_of_getElem? hget, h⟩

/-- A static page is put together from days that show what was found. -/
theorem exists_shown_of_renderLines (view : View) {path : String} {template : List String}
    {requested : Option String} (hdisk : allowed view.disk)
    (hshelf : ∀ id ∈ months.flatMap (·.days),
      IsDayOf view.reader allowed dates root (shelf.day id)) {lines : List String}
    (h : (renderLines view template months requested (.static path) shelf).result =
      some lines) :
    (∀ id ∈ months.flatMap (·.days), IsDayOf view.reader allowed dates root
        ((renderLines view template months requested (.static path) shelf).state.day id)) ∧
      ∃ facts : PageFacts, ∃ shown, lines = shownLines facts.values (.static path) template shown ∧
        ∀ days ∈ shown, ∀ day ∈ days, ShownFrom view.reader allowed dates root day := by
  rw [renderLines_static] at h ⊢
  have hdays (window : MonthWindow) : Run.Ensures (fun shelf : Shelf =>
      ∀ id ∈ months.flatMap (·.days), IsDayOf view.reader allowed dates root (shelf.day id))
      (showDays view (windowDays months window)) fun days shelf =>
        (∀ id ∈ months.flatMap (·.days),
          IsDayOf view.reader allowed dates root (shelf.day id)) ∧
        ∀ day ∈ days, ShownFrom view.reader allowed dates root day :=
    Run.Ensures.forEach fun id hid =>
      Shelf.ensures_onDay (ensures_showDay hdisk) (mem_flatMap_of_mem_windowDays hid)
  obtain ⟨shown, rfl, hafter, hshown⟩ :=
    (Run.Ensures.forEach fun _ _ => hdays _).map _ shelf lines hshelf h
  exact ⟨hafter, _, shown, rfl, hshown⟩

section Completes

theorem completes_refreshEvents
    (never : ∀ disk path, (view.reader.note disk path).isAborted = false) :
    Run.Completes (Day.refreshEvents view) := by
  intro day
  have habort : (day.noteLooks view).any (·.read.isAborted) = false := by
    simp [Day.noteLooks, never]
  rw [Day.refreshEvents_eq]
  by_cases hopen : day.notes.gate.isOpen view.now
  · exact ⟨(), by simp [hopen, habort]⟩
  · exact ⟨(), by simp [hopen]⟩

/-- If the page shows notes, no read of a note is aborted. -/
def NotesReadable (view : View) (target : PageTarget) : Prop :=
  ∀ path, target = .static path → ∀ disk file, (view.reader.note disk file).isAborted = false

variable {target : PageTarget} (readable : NotesReadable view target)

include readable

theorem completes_expandDay (block : String) : Run.Completes (expandDay view target block) := by
  cases target with
  | live endpoint => exact fun _ => ⟨_, rfl⟩
  | static path =>
      have hday : Run.Completes (showDay view) := by
        intro day
        obtain ⟨done, hdone⟩ := completes_refreshEvents (readable path rfl) day
        exact ⟨_, (showDay_apply view day).2.trans (congrArg _ hdone)⟩
      rw [expandDay_static]
      exact hday.map (ShownDay.text (.static path) block)

theorem completes_expandDays (days : List DayId) (block : String) :
    Run.Completes (expandDays view target days block) :=
  (Run.Completes.forEach fun _ _ => (completes_expandDay readable block).onPart _ _).bind
    fun _ => Run.completes_pure _

/-- Every page is rendered, if its notes can be read. -/
theorem completes_renderLines (template : List String) (months : List Month)
    (requested : Option String) :
    Run.Completes (renderLines view template months requested target) := by
  intro shelf
  have hpage : ∃ values days, renderLines view template months requested target shelf =
      renderFrom values (expandDays view target days) none template shelf := ⟨_, _, rfl⟩
  obtain ⟨values, days, hpage⟩ := hpage
  rw [hpage, renderFrom_eq]
  exact (Run.Completes.forEach fun block _ => completes_expandDays readable days block).bind
    (fun _ => Run.completes_pure _) shelf

end Completes

end Page

end DrawingDiary
