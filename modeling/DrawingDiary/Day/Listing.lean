import DrawingDiary.Disk.Reading
import DrawingDiary.Naming.HourlyName

/-!
# The hourly files of a day

The listing of a day directory keeps the files whose names are hourly names of
the day's own date, sorted by name, and of several files for one hour the first.
The names may be listed in any order.
-/

namespace DrawingDiary

open Naming

/-- A file of one hour in a day directory. -/
structure HourlyFile where
  hour : Hour
  name : String
  path : Path
deriving DecidableEq, Repr

/-- The file of a name in a directory, if the name is an hourly name of the kind
and the date. -/
def HourlyFile.ofName? (kind : HourlyKind) (date : String) (directory : Path) (name : String) :
    Option HourlyFile :=
  match hourlyName? kind name with
  | some parsed =>
    if parsed.date = date then some ⟨parsed.hour, name, directory.join name⟩ else none
  | none => none

/-- The files whose hour is not among the given ones and was not met before. -/
def firstPerHour : List Hour → List HourlyFile → List HourlyFile
  | _, [] => []
  | seen, file :: rest =>
    if seen.contains file.hour then firstPerHour seen rest
    else file :: firstPerHour (file.hour :: seen) rest

/-- Of the named entries of a directory, the hourly files that count. -/
def hourlyFilesAmong (kind : HourlyKind) (date : String) (directory : Path)
    (isFile : Path → Bool) (names : List String) : List HourlyFile :=
  let files := (names.filterMap (HourlyFile.ofName? kind date directory)).filter
    fun file => isFile file.path
  firstPerHour [] (files.mergeSort fun a b => a.name ≤ b.name)

/-- The hourly files of a day directory; none when it cannot be listed. -/
def hourlyFiles (kind : HourlyKind) (date : String) (directory : Path) (disk : Disk) :
    List HourlyFile :=
  match disk.list directory with
  | .ok names => hourlyFilesAmong kind date directory disk.isFile names
  | .error _ => []

end DrawingDiary
