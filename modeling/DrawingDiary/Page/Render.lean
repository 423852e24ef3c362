import DrawingDiary.Diary.Access
import DrawingDiary.Page.Cells
import DrawingDiary.Page.Values

/-!
# Rendering a page

A template is a list of lines. A line that ends with the day marker opens a
block, the next such line closes it; what stands between them is repeated once
for each day of the month shown and takes the place of the closing line, while
the opening line and the lines of the block become empty. In every other line
the placeholders of the page are replaced. So the page has exactly as many lines
as the template.
-/

namespace DrawingDiary.Page

open Text

/-- What a line ends with that opens or closes a day block. -/
def dayMarker : String := "<!--RABBIT DAY-->"

/-- Whether a line opens or closes a day block. -/
def isMarker (line : String) : Bool := dayMarker.toList.isSuffixOf line.toList

def rule (token value : String) : Rule := (token.toList, value.toList)

/-- A line with the placeholders of the page replaced, one after the other. -/
def fillLine (values : List (String × String)) (line : String) : String :=
  String.ofList (replaceInTurn (values.map fun v => rule v.1 v.2) line.toList)

/-- A block with the placeholders of a day replaced, one after the other. -/
def fillBlock (block date thumbnailUrl links : String) : String :=
  String.ofList (replaceInTurn
    [rule "[NAME]" date, rule "[THUMBNAIL_URL]" thumbnailUrl, rule "[LINKS]" links] block.toList)

/-- The hour cells of a day. On a static page its notes are refreshed. -/
def dayLinks (view : View) (target : PageTarget) (dayUrl : String) : Run Day String := do
  let day ← Run.state
  match target with
  | .live _ => return String.join (Cells.live (day.imageMask view.disk) dayUrl)
  | .static _ =>
    let notes ← Day.events view
    return String.join (Cells.static dayUrl day.date (day.imageFileNames view.disk) notes)

def expandDay (view : View) (target : PageTarget) (block : String) : Run Day String := do
  let day ← Run.state
  let dayUrl := target.dayUrl day.date
  let links ← dayLinks view target dayUrl
  return fillBlock block day.date (dayUrl ++ "/" ++ Naming.thumbnailFile) links

/-- A block filled in for each of some days, the pieces separated by line feeds. -/
def expandDays (view : View) (target : PageTarget) (days : List DayId) (block : String) :
    Run Shelf String := do
  let pieces ← Run.forEach days fun id => Shelf.onDay id (expandDay view target block)
  return String.intercalate "\n" pieces

/-- The lines of a page; inside a block the text collected so far is carried
along. -/
def renderFrom (values : List (String × String)) (expand : String → Run Shelf String) :
    Option String → List String → Run Shelf (List String)
  | _, [] => pure []
  | none, line :: rest =>
    if isMarker line then do
      return "" :: (← renderFrom values expand (some "") rest)
    else do
      return fillLine values line :: (← renderFrom values expand none rest)
  | some block, line :: rest =>
    if isMarker line then do
      let days ← expand block
      return days :: (← renderFrom values expand none rest)
    else do
      return "" :: (← renderFrom values expand (some (block ++ line ++ "\n")) rest)

/-- The lines of the page of a month, or of the newest one when none is
requested. -/
def renderLines (view : View) (template : List String) (months : List Month)
    (requested : Option String) (target : PageTarget) : Run Shelf (List String) := do
  let window := MonthWindow.resolve (months.map (·.name)) requested
  let facts := PageFacts.gather months window target (← Run.state) view.disk
  let days := ((window.current.bind (months[·]?)).map (·.days)).getD []
  renderFrom facts.values (expandDays view target days) none template

/-- A page cannot be rendered without a template. -/
inductive RenderError where
  | templateNotFound
deriving DecidableEq, Repr

def RenderError.message : RenderError → String
  | .templateNotFound => "No rabbit HTML file present"

/-- The page of a month from the cached months of a diary, which is refreshed
first. A template that cannot be read is like one that is missing. -/
def renderIndexPage (view : View) (template : Except DiskError (Option (List String)))
    (requested : Option String) (target : PageTarget) :
    Run Diary (Except RenderError (List String)) := do
  match template with
  | .ok (some lines) =>
    Run.update (Diary.refresh view)
    let diary ← Run.state
    return .ok (← Diary.onShelf (renderLines view lines diary.months requested target))
  | _ => return .error .templateNotFound

end DrawingDiary.Page
