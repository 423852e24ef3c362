import DrawingDiary.Text.Split

/-!
# Scanning a text from the left

A scan reads a beginning of the text and leaves the rest, or fails and leaves
the text as it was. The scans here read what separates the parts of a settings
file: blanks, comments and line ends.
-/

namespace DrawingDiary.Toml

/-- A reader of a beginning of a text. -/
abbrev Scan := StateT (List Char) Option

namespace Scan

def one (p : Char → Bool) : Scan Char
  | c :: rest => if p c then some (c, rest) else none
  | [] => none

/-- Reads the longest run of characters of a class. -/
def run (p : Char → Bool) : Scan (List Char) := fun s =>
  some (s.takeWhile p, s.dropWhile p)

def exactly (text : List Char) : Scan Unit := fun s =>
  (Text.dropPrefix? text s).map fun rest => ((), rest)

def startsWith (text : List Char) : Scan Bool := fun s =>
  some ((Text.dropPrefix? text s).isSome, s)

/-- Reads with `scan` if that succeeds, and nothing otherwise. -/
def attempt? {α : Type} (scan : Scan α) : Scan (Option α) := fun s =>
  match scan s with
  | some (a, rest) => some (some a, rest)
  | none => some (none, s)

def remaining : Scan Nat := fun s => some (s.length, s)

/-- A character of a text or a comment that may stand there as it is: a tab or
any character that is not a control character. -/
def isPlain (c : Char) : Bool :=
  c == '\t' || (0x20 ≤ c.toNat && c.toNat != 0x7F)

def isBlank (c : Char) : Bool := c == ' ' || c == '\t'

def blanks : Scan Unit := discard (run isBlank)

def newline : Scan Unit := exactly ['\n'] <|> exactly ['\r', '\n']

def comment : Scan Unit := do
  exactly ['#']
  discard (run isPlain)

/-- Reads the end of a line or finds the end of the text. -/
def lineEnd : Scan Unit := fun s =>
  match s with
  | [] => some ((), [])
  | _ => newline s

/-- Reads what may follow on a line after its statement. -/
def lineTrailing : Scan Unit := do
  blanks
  discard (attempt? comment)
  lineEnd

/-- Reads blanks, line ends and comments that end with their line. -/
def layoutWithin : Nat → Scan Unit
  | 0 => pure ()
  | n + 1 => do
    blanks
    match ← attempt? ((do comment; newline) <|> newline) with
    | some () => layoutWithin n
    | none => pure ()

/-- Reads all blanks, line ends and comments from here on. -/
def layout : Scan Unit := do
  layoutWithin ((← remaining) + 1)

end Scan

end DrawingDiary.Toml
