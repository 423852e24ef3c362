import DrawingDiary.Cooldown
import DrawingDiary.Disk.Reading
import DrawingDiary.Png.Decode

/-!
# Reading drawings and notes

A `Reader` turns a path on a disk into a drawing or the text of a note. A read
succeeds, fails, or is aborted; an aborted read takes the whole operation down
that asked for it. The caches are written for any reader.
-/

namespace DrawingDiary

/-- Why a read failed. -/
inductive ReadError where
  /-- the disk did not give the content -/
  | disk (cause : DiskError)
  /-- the content is no picture that can be decoded or encoded -/
  | unprocessable
deriving DecidableEq, Repr

/-- How a read ends. -/
inductive ReadResult (α : Type) where
  | success (content : α)
  | failure (cause : ReadError)
  | aborted

namespace ReadResult

/-- Whether the read takes its operation down. -/
def isAborted {α : Type} : ReadResult α → Bool
  | .aborted => true
  | _ => false

end ReadResult

/-- A way to read drawings and notes from a disk. -/
structure Reader where
  image : Disk → Path → ReadResult Picture
  note : Disk → Path → ReadResult String

namespace Reader

/-- Reads what the files hold: a picture by its content, whatever its name, and
a note as text. -/
def files : Reader where
  image disk path :=
    match disk.readBytes path with
    | .error e => .failure (.disk e)
    | .ok content =>
      match Png.decode content with
      | some picture => .success picture
      | none => .failure .unprocessable
  note disk path :=
    match disk.readText path with
    | .error e => .failure (.disk e)
    | .ok text => .success text

/-- Reads the same picture from every file, and a note that names its file. -/
def uniform (picture : Picture) : Reader where
  image _ _ := .success picture
  note _ path := .success ("note for " ++ path.fileName?.getD "")

/-- A reader that fails or aborts on files of certain names. -/
def withFaults (failing aborting : List String) (reader : Reader) : Reader where
  image disk path :=
    let name := path.fileName?.getD ""
    if aborting.contains name then .aborted
    else if failing.contains name then .failure .unprocessable
    else reader.image disk path
  note disk path :=
    let name := path.fileName?.getD ""
    if aborting.contains name then .aborted
    else if failing.contains name then .failure .unprocessable
    else reader.note disk path

end Reader

/-- What an operation works with besides its state: how files are read, and the
moment it runs at. -/
structure Setting where
  reader : Reader
  now : Instant

/-- A setting together with the disk as it is at the moment. -/
structure View extends Setting where
  disk : Disk

end DrawingDiary
