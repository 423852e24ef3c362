import DrawingDiary.Disk.Reading
import DrawingDiary.Text.Lines

/-!
# Where a page template comes from

A template is a file looked up by name in a list of directories. The first
directory that has the file is remembered. The file is read anew for every page;
when it is gone, the directories are searched again.
-/

namespace DrawingDiary

def loadTemplate (disk : Disk) (path : Path) : Except DiskError (List String) :=
  (disk.readText path).map Text.splitLines

/-- A template file looked up in a list of directories. -/
structure FileTemplate where
  directories : List Path
  fileName : String
  /-- where the file was found last -/
  found : Option Path := none

namespace FileTemplate

/-- The first directory's file, if any directory has it. -/
def search (disk : Disk) (template : FileTemplate) : Option Path :=
  (template.directories.map (·.join template.fileName)).find? disk.isFile

/-- The path of the file, and the template that remembers it. -/
def locate (disk : Disk) (template : FileTemplate) : Option Path × FileTemplate :=
  match template.found with
  | some path => (some path, template)
  | none =>
    let found := template.search disk
    (found, { template with found := found })

/-- The lines of the file, or nothing when no directory has it. -/
def readLines (disk : Disk) (template : FileTemplate) :
    Except DiskError (Option (List String)) × FileTemplate :=
  match template.locate disk with
  | (none, located) => (.ok none, located)
  | (some path, located) =>
    match loadTemplate disk path with
    | .ok lines => (.ok (some lines), located)
    | .error .notFound =>
      match { located with found := none }.locate disk with
      | (none, again) => (.ok none, again)
      | (some path, again) => ((loadTemplate disk path).map some, again)
    | .error e => (.error e, located)

end FileTemplate

end DrawingDiary
