import DrawingDiary.Disk.Changing
import DrawingDiary.Page.Render
import DrawingDiary.Page.Template
import DrawingDiary.Site.Layout

/-!
# Generating a static site

First every day directory gets its strip, so that the pages can link to it. Then
the target is deleted and made anew, the template's other files are linked into
it, one page is written for each month and one for the newest month at the root,
and last the diary itself is linked in. The first failure ends the run; only a
month page that cannot be written does not.
-/

namespace DrawingDiary.Site

/-- What a run has made. -/
structure Summary where
  days : Nat
  thumbnailsCreated : Nat
  diarySize : Nat
  linkedAssets : List String
  months : List String
  failedMonths : List String
deriving DecidableEq, Repr

/-- A run on the disk and the diary that may fail. -/
abbrev Attempt (α : Type) := ExceptT SiteError (Run (Disk × Diary)) α

namespace Attempt

def onDisk (cause : DiskError → SiteError) (step : Disk → Except DiskError Disk) : Attempt Unit :=
  ExceptT.mk fun s =>
    match step s.1 with
    | .ok disk => ⟨(disk, s.2), [], some (.ok ())⟩
    | .error e => ⟨s, [], some (.error (cause e))⟩

/-- Changes the disk in many steps, which stay when a later one fails. -/
def onDiskWith (cause : DiskError → SiteError) (steps : Disk → Disk × Option DiskError) :
    Attempt Unit := ExceptT.mk fun s =>
  let (disk, failure) := steps s.1
  ⟨(disk, s.2), [], some (match failure with
    | none => .ok ()
    | some e => .error (cause e))⟩

/-- Runs on the days of the diary, with the disk as it is now. -/
def onShelf {α : Type} (setting : Setting) (run : View → Run Shelf α) : Attempt α :=
  ExceptT.mk fun s =>
    let o := run { toSetting := setting, disk := s.1 } s.2.shelf
    ⟨(s.1, { s.2 with shelf := o.state }), o.reads, o.result.map .ok⟩

end Attempt

/-- Whether a child of the template directory is linked into the site: editor
backups and the template itself are not. -/
def isAsset (name : String) : Bool := name.toList.getLast? != some '~' && name != indexFile

/-- The children of the template directory that are linked, by name. -/
def assetNames (names : List String) : List String :=
  (names.mergeSort fun a b => a ≤ b).filter isAsset

/-- Links some children of one directory into another, in order, up to the first
that fails. -/
def linkAssets (source target : Path) : List String → Disk → Disk × Option DiskError
  | [], disk => (disk, none)
  | name :: rest, disk =>
    match disk.makeLink (target.join name) (source.join name) with
    | .ok disk => linkAssets source target rest disk
    | .error e => (disk, some e)

def deleteTarget (target : Path) : Attempt Unit :=
  Attempt.onDiskWith (.targetNotDeleted target) fun disk => disk.removeAll target

/-- Makes the target directory and those above it that are missing. -/
def createTarget (target : Path) : Attempt Unit :=
  Attempt.onDiskWith (.targetNotCreated target) fun disk => disk.makeDirectories target

/-- Links the template's assets into the target and answers with their names. -/
def linkTemplate (source target : Path) : Attempt (List String) := do
  let (disk, _) ← ExceptT.lift Run.state
  match disk.list source with
  | .error e => throw (.disk e)
  | .ok names =>
    Attempt.onDiskWith .disk (linkAssets source target (assetNames names))
    return assetNames names

def pageBytes (lines : List String) : ByteArray := (Text.unlines lines).toUTF8

/-- Writes the page of a month into a directory of its own, and answers whether
that went well; a directory that was made for a page that failed stays. -/
def writeMonthPage (directory : Path) (lines : List String) (disk : Disk) : Disk × Bool :=
  match disk.makeDirectory directory with
  | .error _ => (disk, false)
  | .ok made =>
    match made.writeNewFile (directory.join indexFile) (pageBytes lines) with
    | .error _ => (made, false)
    | .ok written => (written, true)

/-- Renders and writes the page of a month, and answers with the month if that
failed. -/
def monthPage (setting : Setting) (target : Path) (template : List String) (months : List Month)
    (month : String) : Attempt (Option String) := do
  let lines ← Attempt.onShelf setting fun view =>
    Page.renderLines view template months (some month) (.staticPage (some month))
  ExceptT.mk fun s =>
    let (disk, written) := writeMonthPage (target.join month) lines s.1
    ⟨(disk, s.2), [], some (.ok (if written then none else some month))⟩

/-- The months whose page failed, after a try at every page. -/
def monthPages (setting : Setting) (target : Path) (template : List String) (months : List Month) :
    List String → Attempt (List String)
  | [] => pure []
  | month :: rest => do
    let failed ← monthPage setting target template months month
    return failed.toList ++ (← monthPages setting target template months rest)

/-- Writes the page of the newest month at the root of the site. -/
def rootPage (setting : Setting) (target : Path) (template : List String) (months : List Month) :
    Attempt Unit := do
  let path := target.join indexFile
  Attempt.onDisk (.oldPageNotRemoved path) fun disk =>
    if disk.pathExists path then disk.removeFile path else .ok disk
  let lines ← Attempt.onShelf setting fun view =>
    Page.renderLines view template months none (.staticPage none)
  Attempt.onDisk .disk fun disk => disk.writeNewFile path (pageBytes lines)

def generate (setting : Setting) (layout : SiteLayout) : Attempt Summary := do
  let (days, created) ← ExceptT.lift (Diary.materializeThumbnails setting)
  let (_, diary) ← ExceptT.lift Run.state
  deleteTarget layout.targetDirectory
  createTarget layout.targetDirectory
  let assets ← linkTemplate layout.templateDirectory layout.targetDirectory
  let (disk, _) ← ExceptT.lift Run.state
  let template ← match loadTemplate disk (layout.templateDirectory.join indexFile) with
    | .ok lines => pure lines
    | .error e => throw (.disk e)
  let names := diary.months.map (·.name)
  let failed ← monthPages setting layout.targetDirectory template diary.months names
  rootPage setting layout.targetDirectory template diary.months
  Attempt.onDisk .disk fun disk =>
    disk.makeLink (layout.targetDirectory.join PageTarget.drawingsDirectory) layout.diaryDirectory
  return ⟨days, created, diary.size, assets, names, failed⟩

end DrawingDiary.Site
