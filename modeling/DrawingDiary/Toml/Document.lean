import DrawingDiary.Toml.Draft
import DrawingDiary.Toml.Quoted

/-!
# Reading a settings file

A settings file is a list of lines, each a comment, a key with its value, or a
header that says to which table the next lines belong. `parse` answers the value
of the whole file, or nothing when the text is no settings file.
-/

namespace DrawingDiary.Toml

/-- Arrays and inline tables may be nested less deep than this, and a dotted key
has fewer parts than this. -/
def nestingLimit : Nat := 80

namespace Scan

def isBareKeyChar (c : Char) : Bool :=
  c.isAlphanum || c == '-' || c == '_'

def keyPart : Scan String :=
  quotedInLine <|> do
    let name ← run isBareKeyChar
    if name.isEmpty then failure else pure (String.ofList name)

def keyOfParts : Nat → Scan (List String)
  | 0 => failure
  | n + 1 => do
    blanks
    let part ← keyPart
    blanks
    if ← startsWith ['.'] then
      exactly ['.']
      (part :: ·) <$> keyOfParts n
    else pure [part]

/-- Reads a key, as the parts before its last one and the last one. -/
def key : Scan (List String × String) := do
  let parts ← keyOfParts (nestingLimit - 1)
  match parts.getLast? with
  | some last => pure (parts.dropLast, last)
  | none => failure

/-- Reads the elements of an array; a comma may follow the last one. -/
def elements {α : Type} (element : Scan α) : Nat → Scan (List α)
  | 0 => failure
  | n + 1 => do
    match ← attempt? (do layout; element) with
    | none => pure []
    | some a =>
      layout
      if ← startsWith [','] then
        exactly [',']
        (a :: ·) <$> elements element n
      else pure [a]

/-- Reads one or more things with a comma between two of them. -/
def separated {α : Type} (thing : Scan α) : Nat → Scan (List α)
  | 0 => failure
  | n + 1 => do
    let a ← thing
    if ← startsWith [','] then
      exactly [',']
      (a :: ·) <$> separated thing n
    else pure [a]

def plainValue : Scan Value :=
  (.string <$> quoted) <|>
  (.dateTime <$> dateTime .ofValue) <|>
  number <|>
  (do exactly "true".toList; pure (.boolean true)) <|>
  (do exactly "false".toList; pure (.boolean false))

def arrayRest (element : Scan Draft) : Scan Draft := do
  let items ← elements element ((← remaining) + 1)
  layout
  exactly [']']
  pure (.array items)

/-- Reads a key and its value in an inline table. -/
def inlineEntry (element : Scan Draft) : Scan ((List String × String) × Draft) := do
  let k ← key
  exactly ['=']
  blanks
  let v ← element
  blanks
  pure (k, v)

def inlineTableRest (element : Scan Draft) : Scan Draft := do
  blanks
  if ← startsWith ['\x7d'] then
    exactly ['\x7d']
    pure (.inline [])
  else
    let entries ← separated (inlineEntry element) ((← remaining) + 1)
    exactly ['\x7d']
    match entries.foldlM (fun table entry =>
        Draft.setValue entry.1.1 entry.1.2 entry.2 .stated table) [] with
    | some table => pure (.inline table)
    | none => failure

/-- Reads a value whose arrays and inline tables are nested at most so deep. -/
def valueOfDepth : Nat → Scan Draft
  | 0 => .plain <$> plainValue
  | depth + 1 => do
    if ← startsWith ['['] then
      exactly ['[']
      arrayRest (valueOfDepth depth)
    else if ← startsWith ['\x7b'] then
      exactly ['\x7b']
      inlineTableRest (valueOfDepth depth)
    else .plain <$> plainValue

def value : Scan Draft := valueOfDepth (nestingLimit - 1)

end Scan

/-- What was read so far: the table of the file and the path of the last
header. -/
structure Progress where
  entries : Draft.Entries
  header : List String

namespace Scan

/-- Reads one line or one value that goes over several lines. -/
def line (p : Progress) : Scan Progress := do
  blanks
  if ← startsWith ['#'] then
    comment
    lineEnd
    pure p
  else if ← startsWith ['[', '['] then
    exactly ['[', '[']
    let (path, last) ← key
    exactly [']', ']']
    lineTrailing
    let entries ← (Draft.openElement path last p.entries : Option Draft.Entries)
    pure ⟨entries, path ++ [last]⟩
  else if ← startsWith ['['] then
    exactly ['[']
    let (path, last) ← key
    exactly [']']
    lineTrailing
    let entries ← (Draft.openTable path last p.entries : Option Draft.Entries)
    pure ⟨entries, path ++ [last]⟩
  else
    match ← attempt? newline with
    | some () => pure p
    | none =>
      if (← remaining) = 0 then pure p
      else
        let (path, last) ← key
        exactly ['=']
        blanks
        let v ← value
        lineTrailing
        let entries ← (Draft.setUnder p.header path last v p.entries : Option Draft.Entries)
        pure { p with entries := entries }

def lines : Nat → Progress → Scan Progress
  | 0, _ => failure
  | n + 1, p => do
    if (← remaining) = 0 then pure p
    else lines n (← line p)

end Scan

/-- The value that a settings file stands for, a table but for a file that stands
for a moment; `none` if the text is no settings file. A byte order mark in front
is ignored. -/
def parse (text : String) : Option Value := do
  let chars := match text.toList with
    | '\uFEFF' :: rest => rest
    | chars => chars
  let (progress, _) ← Scan.lines (chars.length + 1) ⟨[], []⟩ chars
  Draft.finishTable progress.entries

end DrawingDiary.Toml
