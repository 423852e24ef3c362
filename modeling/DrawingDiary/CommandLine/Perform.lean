import DrawingDiary.CommandLine.Request
import DrawingDiary.Config.Load
import DrawingDiary.Config.Stock
import DrawingDiary.Report.Listing
import DrawingDiary.Report.SiteSummary

/-!
# Performing a request

A command line is answered with the text it prints, the disk it leaves and an
exit status. A command that fails prints nothing but the reason, and the reason
goes to the error output.
-/

namespace DrawingDiary.CommandLine

/-- How a command line is answered. -/
structure Answer where
  disk : Disk
  output : String
  /-- what is told on the error output -/
  complaint : Option String
  status : UInt8

namespace Answer

def done (disk : Disk) (output : String) : Answer := ⟨disk, output, none, 0⟩

def failed (disk : Disk) (complaint : String) : Answer := ⟨disk, "", some complaint, 1⟩

def misused (disk : Disk) (complaint : String) : Answer := ⟨disk, "", some complaint, 2⟩

/-- The answer that a run on the disk and a diary ends with. -/
def ofRun {α ε : Type} (message : ε → String) (text : α → String)
    (o : Outcome (Disk × Diary) (Except ε α)) : Answer :=
  match o.result with
  | some (.ok a) => done o.state.1 (text a)
  | some (.error e) => failed o.state.1 (message e)
  | none => failed o.state.1 "a read was aborted"

end Answer

def openDiary (c : Config) (roots : List Path) : Diary :=
  Diary.new roots c.daySettings c.cooldown.diary

/-- Runs on the diary while the disk stays as it is. -/
def onDiary {α : Type} (setting : Setting) (run : View → Run Diary α) : Run (Disk × Diary) α :=
  fun s => Run.onPart (·.2) (fun t diary => (t.1, diary))
    (run { toSetting := setting, disk := s.1 }) s

def generate (setting : Setting) (disk : Disk) (c : Config) (diary template target : Path) :
    Answer :=
  match SiteLayout.check disk diary template target with
  | .error e => .failed disk e.message
  | .ok layout =>
    .ofRun SiteError.message (fun summary => Text.unlines (Report.summaryLines summary))
      ((Site.generate setting layout).run (disk, openDiary c [layout.diaryDirectory]))

/-- Shows the page of a month; a month that is none counts as not given. -/
def render (setting : Setting) (disk : Disk) (c : Config) (month : Option String)
    (staticLinks : Bool) : Answer :=
  let month := month.bind Naming.monthSelector?
  let target := if staticLinks then .staticPage month else .live c.page.endpoint
  let template : FileTemplate := { directories := c.templateDirectories
                                   fileName := c.page.templateFile }
  let (lines, _) := template.readLines disk
  .ofRun Page.RenderError.message Text.unlines
    (onDiary setting (fun view => Page.renderIndexPage view lines month target)
      (disk, openDiary c c.roots))

def list (setting : Setting) (disk : Disk) (c : Config) (json : Bool) : Answer :=
  let rows : View → Run Diary (Except Empty String) := fun view => do
    Run.update (Diary.refresh view)
    let months := (← Run.state).months
    if json then
      let rows ← Diary.onShelf (Report.dayRows view (months.flatMap (·.days)))
      return .ok (Report.rowsJson rows ++ "\n")
    else return .ok (Text.unlines (← Diary.onShelf (Report.listing view months)))
  .ofRun Empty.elim id (onDiary setting rows (disk, openDiary c c.roots))

def thumbnails (setting : Setting) (disk : Disk) (c : Config) : Answer :=
  let counts : Run (Disk × Diary) (Except Empty (Nat × Nat)) := do
    return .ok (← Diary.materializeThumbnails setting)
  .ofRun Empty.elim
    (fun (days, created) =>
      created.repr ++ " thumbnails created for " ++ days.repr ++ " days\n")
    (counts (disk, openDiary c c.roots))

/-- The paths that a command may look at, with everything below them. -/
def Command.places (c : Config) : Command → List Path
  | .generate diary template target => [diary, template, target]
  | .render _ _ => c.roots ++ c.templateDirectories.map (·.join c.page.templateFile)
  | .list _ => c.roots
  | .thumbnails => c.roots
  | .showSettings => []

/-- The answer to a request. Only the stock settings are shown without loading
any. -/
def perform (setting : Setting) (disk : Disk) (request : Request) : Answer :=
  match request.command with
  | .showSettings => .done disk Config.stockText
  | command =>
    match Config.load disk request.settings with
    | .error e => .failed disk e.message
    | .ok c =>
      match command with
      | .generate diary template target => generate setting disk c diary template target
      | .render month staticLinks => render setting disk c month staticLinks
      | .list json => list setting disk c json
      | .thumbnails => thumbnails setting disk c
      | .showSettings => .done disk Config.stockText

def versionText : String := "rabbit-diary 0.3.0\n"

def helpText : String := Text.unlines [
  "Hourly drawing diary: strip thumbnails and month pages",
  "",
  "Usage: rabbit-diary [--config FILE] [--log-level LEVEL] COMMAND",
  "",
  "Commands:",
  "  generate DIARY TEMPLATE_DIR TARGET  Write the static site for a diary directory",
  "  render [--month MONTH] [--static]   Print one page rendered from the configured template",
  "  list [--json]                       List diary days with their drawing and note counts",
  "  thumbnails                          Write thumbnail.png into every day directory lacking one",
  "  gen-config                          Print a stock diary.toml with all options documented"]

def answer (setting : Setting) (disk : Disk) (args : List String) : Answer :=
  match Request.ofArguments args with
  | .ok request => perform setting disk request
  | .error (.refused cause) => .misused disk cause.message
  | .error .versionAsked => .done disk versionText
  | .error .helpAsked => .done disk helpText

end DrawingDiary.CommandLine
