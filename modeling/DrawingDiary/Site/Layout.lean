import DrawingDiary.Disk.Reading

/-!
# The places of a static site

A site is made from a diary directory and a template directory and is written to
a target directory. The three places are checked in this order and made
absolute.
-/

namespace DrawingDiary

/-- Why a site could not be made. -/
inductive SiteError where
  /-- the disk failed -/
  | disk (cause : DiskError)
  | diaryIsNoDirectory (path : Path)
  | templateIsNoDirectory (path : Path)
  | templateMissing (path : Path)
  | targetIsFile (path : Path)
  | targetNotDeleted (path : Path) (cause : DiskError)
  | targetNotCreated (path : Path) (cause : DiskError)
  | oldPageNotRemoved (path : Path) (cause : DiskError)
deriving DecidableEq, Repr

namespace SiteError

def message : SiteError → String
  | .disk cause => "IO error: " ++ cause.message
  | .diaryIsNoDirectory path => "The rabbit diary is not a directory: " ++ path.text
  | .templateIsNoDirectory path => "The template source is not a directory: " ++ path.text
  | .templateMissing path => "No HTML template file exists here: " ++ path.text
  | .targetIsFile path => "The target is a file: " ++ path.text
  | .targetNotDeleted path cause =>
    "Failed to delete directory " ++ path.text ++ ": " ++ cause.message
  | .targetNotCreated path cause =>
    "Failed to create directory " ++ path.text ++ ": " ++ cause.message
  | .oldPageNotRemoved path cause =>
    "Failed to ensure that file " ++ path.text ++ " does not exist before creating it: " ++
      cause.message

end SiteError

/-- The name of the template and of every page made from it. -/
def indexFile : String := "index.html"

/-- The places of a site, checked and absolute. -/
structure SiteLayout where
  diaryDirectory : Path
  templateDirectory : Path
  targetDirectory : Path
deriving DecidableEq, Repr

namespace SiteLayout

def absolute (disk : Disk) (path : Path) : Except SiteError Path :=
  match path.absolute? disk.workingDirectory with
  | some path => .ok path
  | none => .error (.disk .emptyPath)

/-- The layout of three places, if they can serve for a site. -/
def check (disk : Disk) (diary template target : Path) : Except SiteError SiteLayout := do
  let diary ← absolute disk diary
  if !disk.isDirectory diary then throw (.diaryIsNoDirectory diary)
  let template ← absolute disk template
  if !disk.isDirectory template then throw (.templateIsNoDirectory template)
  if !disk.isFile (template.join indexFile) then throw (.templateMissing (template.join indexFile))
  let target ← absolute disk target
  if disk.isFile target then throw (.targetIsFile target)
  return ⟨diary, template, target⟩

end SiteLayout

end DrawingDiary
