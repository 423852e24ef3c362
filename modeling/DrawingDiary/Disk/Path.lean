import DrawingDiary.Text.Split

/-!
# Paths

A path is kept as it was written, because paths are shown to the user. Its
`steps` are what a walk along it does: stay, go up, or go into a named entry.
Two paths are the `same` when they take the same steps, however many slashes
and `.` pieces they are written with.
-/

namespace DrawingDiary

/-- A path as it was written. -/
structure Path where
  /-- the written text -/
  text : String
deriving DecidableEq, Repr, Inhabited

namespace Path

open Text

/-- One step of a walk along a path. -/
inductive Step where
  /-- an empty piece or `.` -/
  | here
  /-- the piece `..` -/
  | up
  /-- any other piece -/
  | into (name : String)
deriving DecidableEq, Repr

/-- The step that a piece between two slashes asks for. -/
def Step.ofPiece (piece : List Char) : Step :=
  if piece = [] ∨ piece = ['.'] then .here
  else if piece = ['.', '.'] then .up
  else .into (String.ofList piece)

def Step.text : Step → String
  | .here => "."
  | .up => ".."
  | .into name => name

/-- Whether the walk starts at the root of the disk. -/
def isAbsolute (p : Path) : Bool := p.text.toList.head? == some '/'

/-- Whether the path is written with a slash at its end. -/
def endsWithSlash (p : Path) : Bool := p.text.toList.getLast? == some '/'

/-- The steps of a path, one for each piece between two slashes. -/
def steps (p : Path) : List Step := (splitAll '/' p.text.toList).map Step.ofPiece

def trimmed (p : Path) : Path :=
  ⟨String.ofList (p.text.toList.reverse.dropWhile (· == '/')).reverse⟩

/-- The steps that matter: standing still only counts as the first step of a
path that is not absolute. -/
def components (p : Path) : List Step :=
  match p.steps with
  | .here :: rest =>
    let moving := rest.filter (· ≠ .here)
    if p.isAbsolute || p.text.isEmpty then moving else .here :: moving
  | steps => steps.filter (· ≠ .here)

/-- Whether two paths take the same steps. -/
def same (p q : Path) : Bool :=
  p.isAbsolute == q.isAbsolute && p.components == q.components

/-- The path of a name below a path. An absolute name replaces the path. -/
def join (p : Path) (name : String) : Path :=
  if name.toList.head? == some '/' then ⟨name⟩
  else if p.text.isEmpty || p.endsWithSlash then ⟨p.text ++ name⟩
  else ⟨p.text ++ "/" ++ name⟩

/-- The path that takes all steps but the last; `none` when there is no step to
leave out. -/
def parent? (p : Path) : Option Path :=
  match p.components.dropLast, p.components with
  | _, [] => none
  | before, _ =>
    some <| before.foldl (fun q step => q.join step.text)
      (if p.isAbsolute then ⟨"/"⟩ else ⟨""⟩)

/-- The name of the last step, if the path ends with a name. -/
def fileName? (p : Path) : Option String :=
  match p.components.getLast? with
  | some (.into name) => some name
  | _ => none

/-- The path seen from the root of the disk when the walk starts in the given
directory: doubled slashes and `.` pieces are left out, `..`, a slash at the end
and exactly two slashes at the beginning are kept. There is no such path for an
empty one. -/
def absolute? (p workingDirectory : Path) : Option Path :=
  if p.text.isEmpty then none
  else
    let slashes := (p.text.toList.takeWhile (· == '/')).length
    let start : Path :=
      match slashes with
      | 0 => workingDirectory
      | 2 => ⟨"//"⟩
      | _ => ⟨"/"⟩
    let walked := (p.components.filter (· ≠ .here)).foldl (fun q step => q.join step.text) start
    some (if p.endsWithSlash then walked.join "" else walked)

end Path

end DrawingDiary
