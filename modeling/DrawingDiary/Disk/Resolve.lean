import DrawingDiary.Disk.Error
import DrawingDiary.Disk.Tree

/-!
# Where a path leads

A walk along a path goes from directory to directory and follows the links it
meets, at most forty of them. It ends at something that stands there (`found`)
or at a name that is free in an existing directory (`vacant`).

The recursion is on the number of links that may still be followed and, inside,
on the steps that are left.
-/

namespace DrawingDiary

/-- The content of a disk, the directory that relative paths start from, and
the moment, in seconds, that the next change is stamped with. -/
structure Disk where
  root : Tree
  workingDirectory : Path := ⟨"/"⟩
  clock : Nat := 0

namespace Disk

/-- Where a walk ends. -/
inductive Spot where
  | found (location : Location)
  | vacant (parent : Location) (name : String)
deriving DecidableEq, Repr

def nameLimit : Nat := 255

/-- A path must have fewer bytes than this. -/
def pathLimit : Nat := 4096

/-- A walk from a directory, with a given way to go on behind a link. The last
link is followed only on request. -/
def walkWith (root : Tree) (followLast : Bool)
    (behindLink : Location → List Path.Step → Except DiskError Spot) :
    Location → List Path.Step → Except DiskError Spot
  | current, [] => .ok (.found current)
  | current, step :: rest =>
    match root.get? current with
    | some (.directory children) =>
      match step with
      | .here => walkWith root followLast behindLink current rest
      | .up => walkWith root followLast behindLink current.dropLast rest
      | .into name =>
        if nameLimit < name.utf8ByteSize then .error .nameTooLong
        else match Tree.lookup name children with
        | none => if rest.isEmpty then .ok (.vacant current name) else .error .notFound
        | some (.link target) =>
          if rest.isEmpty && !followLast then .ok (.found (current ++ [name]))
          else if target.text.isEmpty then .error .notFound
          else behindLink (if target.isAbsolute then [] else current) (target.steps ++ rest)
        | some _ => walkWith root followLast behindLink (current ++ [name]) rest
    | some _ => .error .notADirectory
    | none => .error .notFound

/-- A walk that may still follow the given number of links. -/
def walk (root : Tree) (followLast : Bool) :
    Nat → Location → List Path.Step → Except DiskError Spot
  | 0 => walkWith root followLast fun _ _ => .error .tooManyLinks
  | links + 1 => walkWith root followLast (walk root followLast links)

/-- The number of links that one walk may follow. -/
def linkLimit : Nat := 40

/-- The steps from the root to where relative paths start. -/
def startSteps (disk : Disk) (p : Path) : List Path.Step :=
  if p.isAbsolute then [] else disk.workingDirectory.steps

/-- Where a path leads when a slash at its end does not count. -/
def walkAlong (disk : Disk) (followLast : Bool) (p : Path) : Except DiskError Spot :=
  if p.text.contains '\x00' then .error .zeroInPath
  else if p.text.isEmpty then .error .notFound
  else if pathLimit ≤ p.text.utf8ByteSize then .error .nameTooLong
  else walk disk.root followLast linkLimit [] (disk.startSteps p ++ p.trimmed.steps)

/-- Where a path leads. A path with a slash at its end leads to a directory, and
the link before the slash is followed. -/
def resolve (disk : Disk) (followLast : Bool) (p : Path) : Except DiskError Spot := do
  let spot ← disk.walkAlong (followLast || p.endsWithSlash) p
  match spot with
  | .found location =>
    match disk.root.get? location with
    | some (.directory _) => return spot
    | _ => if p.endsWithSlash then throw .notADirectory else return spot
  | .vacant _ _ => return spot

end Disk

end DrawingDiary
