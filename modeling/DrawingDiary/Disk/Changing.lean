import DrawingDiary.Disk.Reading

/-!
# Changing a disk

Each change is one step that either fails, and leaves the disk as it was, or
answers with the changed disk. Two changes consist of many steps, removing a
directory with all it holds and making all missing directories of a path; what
was done before the failing step stays, so they answer with both the disk and
the failure.
-/

namespace DrawingDiary.Disk

/-- The disk with what stands at a location replaced or removed. -/
def setAt (disk : Disk) (location : Location) (tree : Option Tree) : Disk :=
  { disk with root := disk.root.setAt location tree }

/-- The moment of a change made now. -/
def now (disk : Disk) : Timestamp := ⟨disk.clock, 0⟩

/-- The disk after a file was written at a location: the clock moves on, so a
later change is never stamped with the same moment. -/
def putFile (disk : Disk) (location : Location) (content : ByteArray) : Disk :=
  { disk.setAt location (some (.file content disk.now)) with clock := disk.clock + 1 }

/-- Writes a file, replacing the content of one that is there. -/
def writeFile (disk : Disk) (p : Path) (content : ByteArray) : Except DiskError Disk := do
  match ← disk.resolve true p with
  | .found location =>
    match disk.at? location with
    | some (.file _ _) => return disk.putFile location content
    | _ => throw .isADirectory
  | .vacant parent name =>
    if p.endsWithSlash then throw .isADirectory
    else return disk.putFile (parent ++ [name]) content

/-- Writes a file whose name must be free. -/
def writeNewFile (disk : Disk) (p : Path) (content : ByteArray) : Except DiskError Disk := do
  match ← disk.resolve false p with
  | .found _ => throw .alreadyExists
  | .vacant parent name =>
    if p.endsWithSlash then throw .isADirectory
    else return disk.putFile (parent ++ [name]) content

/-- Makes an empty directory whose name must be free; a link at this name is not
followed, whatever stands behind the name. -/
def makeDirectory (disk : Disk) (p : Path) : Except DiskError Disk := do
  match ← disk.walkAlong false p with
  | .found _ => throw .alreadyExists
  | .vacant parent name => return disk.setAt (parent ++ [name]) (some (.directory []))

/-- How making a directory ends when its name is not free: well if a directory
stands there. -/
def settleDirectory (disk : Disk) (p : Path) : Except DiskError Disk → Disk × Option DiskError
  | .ok made => (made, none)
  | .error e => (disk, if disk.isDirectory p then none else some e)

/-- Makes a directory and those above it that are missing; the number bounds how
far up to go. -/
def makeDirectoriesUpTo : Nat → Disk → Path → Disk × Option DiskError
  | 0, disk, p => disk.settleDirectory p (disk.makeDirectory p)
  | above + 1, disk, p =>
    match disk.makeDirectory p, p.parent? with
    | .error .notFound, none => (disk, some .notFound)
    | .error .notFound, some parent =>
      match makeDirectoriesUpTo above disk parent with
      | (disk, none) => disk.settleDirectory p (disk.makeDirectory p)
      | (disk, some e) => (disk, some e)
    | result, _ => disk.settleDirectory p result

/-- Makes a directory and those above it that are missing; some of them may be
made before one fails. Nothing is to be made for the empty path. -/
def makeDirectories (disk : Disk) (p : Path) : Disk × Option DiskError :=
  if p.text.isEmpty then (disk, none) else makeDirectoriesUpTo p.steps.length disk p

/-- Makes a link whose name must be free. -/
def makeLink (disk : Disk) (p target : Path) : Except DiskError Disk := do
  match ← disk.resolve false p with
  | .found _ => throw .alreadyExists
  | .vacant parent name =>
    if p.endsWithSlash then throw .notFound
    else return disk.setAt (parent ++ [name]) (some (.link target))

def removeFile (disk : Disk) (p : Path) : Except DiskError Disk := do
  match ← disk.resolve false p with
  | .found location =>
    match disk.at? location with
    | some (.directory _) => throw .isADirectory
    | _ => return disk.setAt location none
  | .vacant _ _ => throw .notFound

/-- Removes an empty directory. The last step must be a name: a directory cannot
be removed by way of `.` or `..`, nor through a link to it. -/
def removeEmptyDirectory (disk : Disk) (p : Path) : Except DiskError Disk := do
  match p.trimmed.steps.getLast? with
  | some .here => throw .invalidArgument
  | some .up =>
    let _ ← disk.resolve false p
    throw .directoryNotEmpty
  | _ =>
    match ← disk.walkAlong false p with
    | .vacant _ _ => throw .notFound
    | .found location =>
      match disk.at? location with
      | some (.directory []) => return disk.setAt location none
      | some (.directory _) => throw .directoryNotEmpty
      | _ => throw .notADirectory

/-- Removes a path and everything below it. A link is removed and not followed;
nothing is to be done when nothing stands there. -/
def removeAll (disk : Disk) (p : Path) : Disk × Option DiskError :=
  match disk.resolve false p with
  | .error .notFound => (disk, none)
  | .error e => (disk, some e)
  | .ok (.vacant _ _) => (disk, none)
  | .ok (.found location) =>
    match disk.at? location with
    | some (.directory _) =>
      let emptied := disk.setAt location (some (.directory []))
      match emptied.removeEmptyDirectory p with
      | .ok removed => (removed, none)
      | .error .notFound => (emptied, none)
      | .error e => (emptied, some e)
    | _ => (disk.setAt location none, none)

/-- Moves what stands at a path. A file or link may take the place of another,
a directory that of an empty one. -/
def rename (disk : Disk) (p target : Path) : Except DiskError Disk := do
  match ← disk.resolve false p, ← disk.resolve false target with
  | .vacant _ _, _ => throw .notFound
  | .found source, .vacant parent name =>
    let destination := parent ++ [name]
    if source.isPrefixOf destination then throw .invalidArgument
    else return (disk.setAt source none).setAt destination (disk.at? source)
  | .found source, .found destination =>
    if source = destination then return disk
    else if source.isPrefixOf destination then throw .invalidArgument
    else
      let moved := (disk.setAt source none).setAt destination (disk.at? source)
      match disk.at? source, disk.at? destination with
      | some (.directory _), some (.directory []) => return moved
      | some (.directory _), some (.directory _) => throw .directoryNotEmpty
      | some (.directory _), _ => throw .notADirectory
      | _, some (.directory _) => throw .isADirectory
      | _, _ => return moved

def setModified (disk : Disk) (p : Path) (moment : Timestamp) : Except DiskError Disk := do
  let location ← disk.locate p
  match disk.at? location with
  | some (.file content _) => return disk.setAt location (some (.file content moment))
  | _ => return disk

end DrawingDiary.Disk
