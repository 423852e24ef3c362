import DrawingDiary.CommandLine.Perform

/-!
# The program

The program brings what a command may look at from the machine into a `Disk`,
performs the command on it, and then makes the same changes on the machine. A
link is brought as a link, together with what it leads to. Where the command
makes a link, the machine gets a directory of hard links.
-/

open System (FilePath)

namespace DrawingDiary.Program

/-- The greatest depth of directories that are brought or changed. -/
def depthLimit : Nat := 256

/-- What kind of thing stands at a path of the machine, links not followed. -/
def kindAt (path : Path) : IO (Option IO.FS.Metadata) := do
  try return some (← (path.text : FilePath).symlinkMetadata)
  catch _ => return none

/-- The path that a link leads to in the end, if that exists. -/
def linkEnd? (path : Path) : IO (Option Path) := do
  try return some ⟨(← IO.FS.realPath path.text).toString⟩
  catch _ => return none

/-- What stands at a path of the machine, with the ends of all links in it. -/
def bring : Nat → Path → IO (Option Tree × List Path)
  | 0, _ => return (none, [])
  | depth + 1, path => do
    match ← kindAt path with
    | none => return (none, [])
    | some kind =>
      match kind.type with
      | .dir =>
        let mut children := []
        let mut ends := []
        for entry in ← (path.text : FilePath).readDir do
          let (child, more) ← bring depth (path.join entry.fileName)
          if let some child := child then children := (entry.fileName, child) :: children
          ends := ends ++ more
        return (some (.directory children), ends)
      | .symlink =>
        match ← linkEnd? path with
        | some target => return (some (.link target), [target])
        | none => return (some (.link (path.join "missing")), [])
      | _ =>
        let modified : Timestamp := ⟨kind.modified.sec, kind.modified.nsec.toNat⟩
        return (some (.file (← IO.FS.readBinFile path.text) modified), [])

/-- The disk with a tree at a path, if the path has a place on it. -/
def place (disk : Disk) (path : Path) (tree : Tree) : Disk :=
  match disk.resolve false path with
  | .ok (.found location) => disk.setAt location (some tree)
  | .ok (.vacant parent name) => disk.setAt (parent ++ [name]) (some tree)
  | .error _ => disk

/-- The disk with the directories and links on the way to a path. -/
def approach (disk : Disk) (path : Path) : IO Disk := do
  let mut disk := disk
  let mut reached : Path := ⟨"/"⟩
  for step in path.components.dropLast do
    reached := reached.join step.text
    if !disk.pathExists reached then
      match ← linkEnd? reached with
      | some target =>
        disk := (disk.makeDirectories target).1
        if target.text ≠ reached.text then disk := place disk reached (.link target)
      | none => pure ()
  return disk

/-- Brings paths and the ends of the links below them to a disk, and answers with
all paths that were brought. -/
def bringAll : Nat → List Path → Disk → IO (Disk × List Path)
  | 0, _, disk => return (disk, [])
  | _ + 1, [], disk => return (disk, [])
  | fuel + 1, path :: rest, disk => do
    let disk ← approach disk path
    let (tree, ends) ← bring depthLimit path
    let disk := match tree with
      | some tree => place disk path tree
      | none => disk
    let (disk, brought) ← bringAll fuel (rest ++ ends.filter fun p => !disk.pathExists p) disk
    return (disk, path :: brought)

/-- Removes what stands at a path of the machine, links not followed. -/
def remove : Nat → Path → IO Unit
  | 0, _ => return ()
  | depth + 1, path => do
    match ← kindAt path with
    | none => return ()
    | some kind =>
      if kind.type == .dir then
        for entry in ← (path.text : FilePath).readDir do
          remove depth (path.join entry.fileName)
        IO.FS.removeDir path.text
      else IO.FS.removeFile path.text

/-- Makes hard links to all files below a path of the machine. -/
def linkFiles : Nat → (source target : Path) → IO Unit
  | 0, _, _ => return ()
  | depth + 1, source, target => do
    if ← (source.text : FilePath).isDir then
      IO.FS.createDirAll target.text
      for entry in ← (source.text : FilePath).readDir do
        linkFiles depth (source.join entry.fileName) (target.join entry.fileName)
    else IO.FS.hardLink source.text target.text

/-- Turns what stands at a path of the machine from one tree into another. -/
def change : Nat → Path → (before after : Option Tree) → IO Unit
  | 0, _, _, _ => return ()
  | depth + 1, path, before, after => do
    match before, after with
    | none, none => return ()
    | some _, none => remove depthLimit path
    | some (.directory old), some (.directory new) =>
      for (name, tree) in old do
        change depth (path.join name) (some tree) (Tree.lookup name new)
      for (name, tree) in new do
        if (Tree.lookup name old).isNone then change depth (path.join name) none (some tree)
    | before, some (.directory new) =>
      if before.isSome then remove depthLimit path
      IO.FS.createDirAll path.text
      for (name, tree) in new do
        change depth (path.join name) none (some tree)
    | before, some (.file content _) =>
      let same := match before with
        | some (.file old _) => old == content
        | _ => false
      if !same then
        remove depthLimit path
        IO.FS.writeBinFile path.text content
    | before, some (.link target) =>
      let same := match before with
        | some (.link old) => old == target
        | _ => false
      if !same then
        remove depthLimit path
        linkFiles depthLimit target path

def treeAt (disk : Disk) (path : Path) : Option Tree :=
  match disk.linkStat path with
  | .ok tree => some tree
  | .error _ => none

/-- The most paths that are brought for one command. -/
def placeLimit : Nat := 4096

/-- Runs the command line and answers with the exit status. -/
def run (args : List String) : IO UInt32 := do
  let here : Path := ⟨(← IO.FS.realPath ".").toString⟩
  let empty : Disk := { root := .directory [], workingDirectory := here }
  let empty := (empty.makeDirectories here).1
  let absolute (path : Path) : Path := (path.absolute? here).getD path
  let setting : Setting := ⟨Reader.files, ← IO.monoNanosNow⟩
  let (disk, places) ← match CommandLine.Request.ofArguments args with
    | .error _ => pure (empty, [])
    | .ok request =>
      let (disk, _) ← bringAll placeLimit [absolute request.settings] empty
      match Config.load disk request.settings with
      | .error _ => pure (disk, [])
      | .ok c => bringAll placeLimit ((request.command.places c).map absolute) disk
  let answer := CommandLine.answer setting disk args
  for path in places do
    change depthLimit path (treeAt disk path) (treeAt answer.disk path)
  IO.print answer.output
  if let some complaint := answer.complaint then IO.eprintln ("Error: " ++ complaint)
  return answer.status.toUInt32

end DrawingDiary.Program

def main (args : List String) : IO UInt32 := DrawingDiary.Program.run args
