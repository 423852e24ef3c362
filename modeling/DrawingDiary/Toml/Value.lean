import DrawingDiary.Toml.DateTime

/-!
# Values of a settings file

The entries of a table are kept in the order of their keys. `insert` puts an
entry at its place, and `lookup_insert` says what is found afterwards.
-/

namespace DrawingDiary.Toml

/-- A value of a settings file. -/
inductive Value where
  | string (text : String)
  | integer (value : Int)
  | float (value : Float)
  | boolean (value : Bool)
  | dateTime (value : DateTime)
  | array (items : List Value)
  | table (entries : List (String × Value))
deriving Inhabited

/-- The entries of a table. -/
abbrev Entries := List (String × Value)

namespace Entries

/-- The value of a key; the first one counts. -/
def lookup (key : String) : Entries → Option Value
  | [] => none
  | (k, v) :: rest => if k = key then some v else lookup key rest

def insert (key : String) (value : Value) : Entries → Entries
  | [] => [(key, value)]
  | (k, v) :: rest =>
    if key < k then (key, value) :: (k, v) :: rest
    else if key = k then (key, value) :: rest
    else (k, v) :: insert key value rest

/-- Entries given in any order; a later value of a key replaces an earlier one. -/
def ofList (entries : List (String × Value)) : Entries :=
  entries.foldl (fun table entry => insert entry.1 entry.2 table) []

/-- The set key shows the new value, every other key what it showed. -/
theorem lookup_insert (n key : String) (value : Value) (entries : Entries) :
    lookup n (insert key value entries) =
      if n = key then some value else lookup n entries := by
  induction entries with
  | nil => by_cases h : n = key <;> simp [insert, lookup, h, eq_comm]
  | cons entry rest ih =>
    obtain ⟨k, v⟩ := entry
    by_cases below : key < k
    · by_cases h : n = key <;> simp [insert, below, lookup, h, eq_comm]
    · by_cases same : key = k
      · subst same
        by_cases h : n = key <;> simp [insert, lookup, h, eq_comm]
      · by_cases found : k = n
        · subst found
          simp [insert, below, same, lookup, Ne.symm same]
        · simp [insert, below, same, lookup, found, ih]

end Entries

end DrawingDiary.Toml
