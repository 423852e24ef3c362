import DrawingDiary.Toml.Value

/-!
# Tables while they are read

A table can be written in several places: under a header, by a header of a
table below it, or by keys with dots. A draft remembers for each table how it
came about, because that decides where it may still be extended: a table under
a header is complete with its own lines, a table that was only mentioned on the
way to another one may still get a header, one made by dotted keys may only
be extended by more of them, and one written as a value not at all.

A table whose first key is `momentKey` is no table when it is finished, but the
moment that this key's text describes; its other keys do not matter.
-/

namespace DrawingDiary.Toml

/-- How a table came about. -/
inductive Origin where
  /-- under a header of its own -/
  | stated
  /-- on the way to the table of a header -/
  | mentioned
  /-- on the way of a dotted key -/
  | dotted
deriving DecidableEq, Repr

/-- What a key of a table holds while the text is read. -/
inductive Draft where
  /-- a value without parts -/
  | plain (value : Value)
  | array (items : List Draft)
  /-- a table written as a value -/
  | inline (entries : List (String × Draft))
  | table (origin : Origin) (entries : List (String × Draft))
  | tables (elements : List (List (String × Draft)))
deriving Inhabited

namespace Draft

/-- The entries of a table that is being read, in the order they were met. -/
abbrev Entries := List (String × Draft)

/-- Sets the draft of a key; a new key comes last. -/
def assign (key : String) (draft : Draft) : Entries → Entries
  | [] => [(key, draft)]
  | (k, d) :: rest => if k = key then (key, draft) :: rest else (k, d) :: assign key draft rest

/-- Changes the table that a path leads to. Tables that are missing on the way
are made, of the given origin; of an array of tables the last one is entered. A
path of dotted keys leads through no table that is complete. -/
def within (origin : Origin) (change : Origin → Entries → Option Entries) :
    List String → Origin → Entries → Option Entries
  | [], own, entries => change own entries
  | key :: path, _, entries =>
    match entries.lookup key with
    | none => do
      let made ← within origin change path origin []
      pure (assign key (.table origin made) entries)
    | some (.table o inner) => do
      if origin = .dotted ∧ o = .stated then none
      else
        let changed ← within origin change path o inner
        pure (assign key (.table o changed) entries)
    | some (.tables elements) =>
      match elements.getLast? with
      | none => none
      | some last => do
        let changed ← within origin change path .stated last
        pure (assign key (.tables (elements.dropLast ++ [changed])) entries)
    | some _ => none

/-- Gives a key a value in the table that the rest of the key leads to. The key
must be new there, and a table reached by dots must have been made by dots. -/
def setValue (path : List String) (key : String) (value : Draft) :
    Origin → Entries → Option Entries :=
  within .dotted (fun origin entries =>
    if origin = .dotted ↔ path = [] then none
    else match entries.lookup key with
      | some _ => none
      | none => some (assign key value entries)) path

/-- Opens the table of a header, which must be new or only mentioned so far. From
now on it comes last among the tables beside it. -/
def openTable (path : List String) (key : String) : Entries → Option Entries :=
  within .mentioned (fun _ entries =>
    match entries.lookup key with
    | none => some (assign key (.table .stated []) entries)
    | some (.table .mentioned inner) =>
      some (entries.filter (·.1 != key) ++ [(key, .table .stated inner)])
    | some _ => none) path .stated

/-- Adds an element to the array of tables of a header. -/
def openElement (path : List String) (key : String) : Entries → Option Entries :=
  within .mentioned (fun _ entries =>
    match entries.lookup key with
    | none => some (assign key (.tables [[]]) entries)
    | some (.tables elements) => some (assign key (.tables (elements ++ [[]])) entries)
    | some _ => none) path .stated

/-- Gives a key a value in the table of the last header. -/
def setUnder (header path : List String) (key : String) (value : Draft) :
    Entries → Option Entries :=
  within .mentioned (setValue path key value) header .stated

/-- The key that makes a table stand for a moment. -/
def momentKey : String := "$__toml_private_datetime"

/-- The moment that a table with such a first key stands for, if there is one. -/
def moment? : Draft → Option Value
  | .plain (.string text) => (DateTime.ofText? text).map .dateTime
  | _ => none

mutual

/-- The finished value of a draft, unless a table in it stands for no moment
although its first key says so. -/
def finish : Draft → Option Value
  | .plain v => some v
  | .array items => (finishAll items).map .array
  | .inline entries => finishTable entries
  | .table _ entries => finishTable entries
  | .tables elements => (finishTables elements).map .array

/-- The finished value of a table with the given entries. -/
def finishTable : List (String × Draft) → Option Value
  | [] => some (.table [])
  | (key, draft) :: rest =>
    if key = momentKey then moment? draft
    else do
      let first ← finish draft
      let others ← finishEach rest
      pure (.table (Toml.Entries.ofList ((key, first) :: others)))

def finishEach : List (String × Draft) → Option (List (String × Value))
  | [] => some []
  | (key, draft) :: rest => do
    let first ← finish draft
    let others ← finishEach rest
    pure ((key, first) :: others)

def finishAll : List Draft → Option (List Value)
  | [] => some []
  | item :: rest => do
    let first ← finish item
    let others ← finishAll rest
    pure (first :: others)

def finishTables : List (List (String × Draft)) → Option (List Value)
  | [] => some []
  | entries :: rest => do
    let first ← finishTable entries
    let others ← finishTables rest
    pure (first :: others)

end

end Draft

end DrawingDiary.Toml
