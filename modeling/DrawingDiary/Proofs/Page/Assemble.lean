import DrawingDiary.Page.Render
import DrawingDiary.Proofs.Run

/-!
# How a page is put together

Rendering goes through the lines of a template and expands each block where it is closed.
It comes to the same to expand all blocks first, one after the other, and to put the page
together from the results (`renderFrom_eq`): putting together is `assemble`, which reads
nothing. On a static page, expanding a block only looks at the days and writes what they
show into the block (`expandDays_static`), so such a page is known from what each of its
blocks has been shown (`renderLines_static`), and so are the links in it
(`ShownDay.exists_links_cell`).
-/

namespace DrawingDiary

namespace Page

section Assemble

variable {values : List (String × String)} {expand : String → Run Shelf String}

/-- The blocks of a template in order; a block that is open has the text collected so far. -/
def blocksFrom : Option String → List String → List String
  | _, [] => []
  | none, line :: rest =>
    if isMarker line then blocksFrom (some "") rest else blocksFrom none rest
  | some block, line :: rest =>
    if isMarker line then block :: blocksFrom none rest
    else blocksFrom (some (block ++ line ++ "\n")) rest

/-- The lines of a page, given what its blocks are replaced by, in or out of a block. -/
def assemble (values : List (String × String)) : Bool → List String → List String → List String
  | _, [], _ => []
  | false, line :: rest, texts =>
    if isMarker line then "" :: assemble values true rest texts
    else fillLine values line :: assemble values false rest texts
  | true, line :: rest, texts =>
    if isMarker line then texts.headD "" :: assemble values false rest texts.tail
    else "" :: assemble values true rest texts

/-- To render a template is to expand its blocks and to put the page together then. -/
theorem renderFrom_eq (opened : Option String) (template : List String) :
    renderFrom values expand opened template =
      Run.forEach (blocksFrom opened template) expand >>= fun texts =>
        pure (assemble values opened.isSome template texts) := by
  induction template generalizing opened with
  | nil => cases opened <;> simp [renderFrom, blocksFrom, assemble, Run.forEach_nil]
  | cons line rest ih =>
      cases opened with
      | none =>
          by_cases hmarker : isMarker line = true
          · simp [renderFrom, blocksFrom, assemble, hmarker, ih]
          · simp [renderFrom, blocksFrom, assemble, hmarker, ih]
      | some block =>
          by_cases hmarker : isMarker line = true
          · simp [renderFrom, blocksFrom, assemble, hmarker, ih, Run.forEach_cons]
          · simp [renderFrom, blocksFrom, assemble, hmarker, ih]

end Assemble

/-- What a static page shows of a day: its date, the file of each hour that has a drawing, and
the text of each hour that has a note. -/
structure ShownDay where
  date : String
  images : Slots String
  notes : Slots String

namespace ShownDay

/-- How a file of the day is linked to. -/
def fileUrl (target : PageTarget) (shown : ShownDay) (name : String) : String :=
  target.dayUrl shown.date ++ "/" ++ name

def cell (target : PageTarget) (shown : ShownDay) (hour : Hour) : String :=
  Cells.staticCell (target.dayUrl shown.date) shown.date hour (shown.images.at? hour)
    (shown.notes.at? hour)

/-- A block with what is shown of a day. -/
def text (target : PageTarget) (block : String) (shown : ShownDay) : String :=
  fillBlock block shown.date (shown.fileUrl target Naming.thumbnailFile)
    (String.join (allHours.map (shown.cell target)))

end ShownDay

/-- A link to the drawing of an hour, or to its note with the text of the note. -/
inductive HourLink where
  | drawing (url : String)
  | note (url text : String)

namespace HourLink

def html : HourLink → String
  | drawing url => "<a href=\"" ++ url ++ "\"></a>"
  | note url text => "<a href=\"" ++ url ++ "\" class=\"event-link\" title=\"" ++
      Text.escapeAttribute text ++ "\">Note</a>"

/-- The cell of an hour that has these links. -/
def cell : List HourLink → String
  | [] => "<div class=\"inactive\"></div>"
  | links => "<div>" ++ String.join (links.map html) ++ "</div>"

end HourLink

/-- A cell has no links but to the drawing and the note that are shown. -/
theorem ShownDay.exists_links_cell (target : PageTarget) (shown : ShownDay) (hour : Hour) :
    ∃ links, shown.cell target hour = HourLink.cell links ∧ ∀ link ∈ links,
      (∃ name, shown.images.at? hour = some name ∧ link = .drawing (shown.fileUrl target name)) ∨
      ∃ text, shown.notes.at? hour = some text ∧
        link = .note (shown.fileUrl target (Naming.eventFileName shown.date hour.val)) text := by
  let note := HourLink.note (shown.fileUrl target (Naming.eventFileName shown.date hour.val))
  let drawing := fun name => HourLink.drawing (shown.fileUrl target name)
  unfold cell
  cases shown.images.at? hour with
  | none =>
      cases shown.notes.at? hour with
      | none => exact ⟨[], rfl, by simp⟩
      | some text =>
          refine ⟨[note text], ?_, by simp [note]⟩
          simp [note, Cells.staticCell, Cells.noteLink, HourLink.cell, HourLink.html, fileUrl,
            String.append_assoc]
  | some name =>
      cases shown.notes.at? hour with
      | none =>
          refine ⟨[drawing name], ?_, by simp [drawing]⟩
          simp [drawing, Cells.staticCell, Cells.imageLink, HourLink.cell, HourLink.html, fileUrl,
            String.append_assoc]
      | some text =>
          refine ⟨[drawing name, note text, drawing name], ?_, by simp [drawing, note]⟩
          simp [drawing, note, Cells.staticCell, Cells.imageLink, Cells.noteLink, HourLink.cell,
            HourLink.html, fileUrl, String.append_assoc]

/-- Looks at what a static page shows of a day. -/
def showDay (view : View) : Run Day ShownDay := do
  let day ← Run.state
  let notes ← Day.events view
  return ⟨day.date, day.imageFileNames view.disk, notes⟩

def showDays (view : View) (days : List DayId) : Run Shelf (List ShownDay) :=
  Run.forEach days fun id => Shelf.onDay id (showDay view)

/-- The lines of a static page, given what each block has been shown of the days. -/
def shownLines (values : List (String × String)) (target : PageTarget) (template : List String)
    (shown : List (List ShownDay)) : List String :=
  assemble values false template <| List.zipWith
    (fun block days => String.intercalate "\n" (days.map (ShownDay.text target block)))
    (blocksFrom none template) shown

/-- The days of the month that a page shows. -/
def windowDays (months : List Month) (window : MonthWindow) : List DayId :=
  ((window.current.bind (months[·]?)).map (·.days)).getD []

section Static

variable (view : View) (path : String)

theorem expandDay_static (block : String) :
    expandDay view (.static path) block =
      ShownDay.text (.static path) block <$> showDay view := by
  funext day
  simp only [expandDay, dayLinks, showDay, map_eq_pure_bind, bind_assoc, pure_bind,
    Run.bind_apply, Run.state]
  cases (Day.events view day).result with
  | none => rfl
  | some notes =>
      simp only [Run.pure_apply, List.nil_append, List.append_nil]
      rfl

theorem expandDays_static (days : List DayId) (block : String) :
    expandDays view (.static path) days block =
      (fun shown => String.intercalate "\n" (shown.map (ShownDay.text (.static path) block))) <$>
        showDays view days := by
  simp [expandDays, showDays, expandDay_static, Shelf.onDay, Run.onPart_map,
    Run.forEach_map_const]

/-- The lines of a static page come from what its days show, one block after the other. -/
theorem renderLines_static (template : List String) (months : List Month)
    (requested : Option String) (shelf : Shelf) :
    let window := MonthWindow.resolve (months.map (·.name)) requested
    renderLines view template months requested (.static path) shelf =
      (shownLines (PageFacts.gather months window (.static path) shelf view.disk).values
          (.static path) template <$>
        Run.forEach (blocksFrom none template) fun _ =>
          showDays view (windowDays months window)) shelf := by
  intro window
  have hexpand : renderLines view template months requested (.static path) shelf =
      renderFrom (PageFacts.gather months window (.static path) shelf view.disk).values
        (expandDays view (.static path) (windowDays months window)) none template shelf := rfl
  have hdays : expandDays view (.static path) (windowDays months window) = fun block =>
      (fun shown => String.intercalate "\n" (shown.map (ShownDay.text (.static path) block))) <$>
        showDays view (windowDays months window) :=
    funext fun block => expandDays_static view path (windowDays months window) block
  rw [hexpand, renderFrom_eq, hdays, Run.forEach_map, ← map_eq_pure_bind, Functor.map_map]
  rfl

end Static

end Page

end DrawingDiary
