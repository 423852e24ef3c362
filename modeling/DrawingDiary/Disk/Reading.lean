import DrawingDiary.Disk.Resolve

/-!
# Reading a disk

Everything that can be asked about a path without changing the disk. Links are
followed, unless the name of the question says otherwise.
-/

namespace DrawingDiary.Disk

def at? (disk : Disk) (location : Location) : Option Tree := disk.root.get? location

def locate (disk : Disk) (p : Path) : Except DiskError Location := do
  match ← disk.resolve true p with
  | .found location => return location
  | .vacant _ _ => throw .notFound

def stat (disk : Disk) (p : Path) : Except DiskError Tree := do
  match disk.at? (← disk.locate p) with
  | some tree => return tree
  | none => throw .notFound

/-- What stands at a path itself, links not followed. -/
def linkStat (disk : Disk) (p : Path) : Except DiskError Tree := do
  match ← disk.resolve false p with
  | .found location =>
    match disk.at? location with
    | some tree => return tree
    | none => throw .notFound
  | .vacant _ _ => throw .notFound

def pathExists (disk : Disk) (p : Path) : Bool :=
  match disk.stat p with
  | .ok _ => true
  | .error _ => false

def isFile (disk : Disk) (p : Path) : Bool :=
  match disk.stat p with
  | .ok (.file _ _) => true
  | _ => false

def isDirectory (disk : Disk) (p : Path) : Bool :=
  match disk.stat p with
  | .ok (.directory _) => true
  | _ => false

/-- The names in a directory, in no order that counts. -/
def list (disk : Disk) (p : Path) : Except DiskError (List String) := do
  match ← disk.stat p with
  | .directory children => return children.map (·.1)
  | _ => throw .notADirectory

def modified? (disk : Disk) (p : Path) : Option Timestamp :=
  match disk.stat p with
  | .ok (.file _ modified) => some modified
  | _ => none

def readBytes (disk : Disk) (p : Path) : Except DiskError ByteArray := do
  match ← disk.stat p with
  | .file content _ => return content
  | _ => throw .isADirectory

def readText (disk : Disk) (p : Path) : Except DiskError String := do
  match String.fromUTF8? (← disk.readBytes p) with
  | some text => return text
  | none => throw .invalidText

end DrawingDiary.Disk
