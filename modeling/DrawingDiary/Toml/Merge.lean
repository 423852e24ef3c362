import DrawingDiary.Toml.Value

/-!
# Laying one settings file over another

Two tables are laid over each other key by key; any other value replaces what
it is laid over. `lookup_merge` says what a key of the laid table shows.
-/

namespace DrawingDiary.Toml

/-- The entries with those of another table whose keys they lack. -/
def Entries.addMissing (entries others : Entries) : Entries :=
  others.foldl (fun table entry =>
    match table.lookup entry.1 with
    | some _ => table
    | none => table.insert entry.1 entry.2) entries

mutual

/-- The value that is left when `overlay` is laid over `base`. -/
def Value.merge : (base overlay : Value) → Value
  | .table base, .table overlay =>
    .table (Entries.addMissing (Value.mergeEach overlay base) overlay)
  | _, overlay => overlay

/-- The entries of a table, each with the entry of the same key laid over it. -/
def Value.mergeEach (overlay : Entries) : Entries → Entries
  | [] => []
  | (key, base) :: rest =>
    (key, match overlay.lookup key with
      | some value => Value.merge base value
      | none => base) :: Value.mergeEach overlay rest

end

/-- The entries of the table that is left when one is laid over another. -/
def Entries.merge (base overlay : Entries) : Entries :=
  Entries.addMissing (Value.mergeEach overlay base) overlay

theorem Entries.lookup_addMissing (key : String) (entries others : Entries) :
    (entries.addMissing others).lookup key = (entries.lookup key <|> others.lookup key) := by
  induction others generalizing entries with
  | nil => cases h : entries.lookup key <;> simp [addMissing, lookup, h]
  | cons entry rest ih =>
    obtain ⟨k, v⟩ := entry
    have step : entries.addMissing ((k, v) :: rest) =
        (match entries.lookup k with
          | some _ => entries
          | none => entries.insert k v).addMissing rest := rfl
    rw [step, ih]
    cases present : entries.lookup k with
    | some w =>
      by_cases h : k = key
      · subst h
        simp [present]
      · simp [lookup, h]
    | none =>
      by_cases h : k = key
      · subst h
        simp [lookup_insert, lookup, present]
      · simp [lookup_insert, lookup, h, Ne.symm h]

theorem Entries.lookup_mergeEach (key : String) (overlay entries : Entries) :
    (Value.mergeEach overlay entries).lookup key =
      (entries.lookup key).map fun base =>
        match overlay.lookup key with
        | some value => Value.merge base value
        | none => base := by
  induction entries with
  | nil => rfl
  | cons entry rest ih =>
    obtain ⟨k, v⟩ := entry
    by_cases h : k = key
    · subst h
      simp [Value.mergeEach, lookup]
    · simp [Value.mergeEach, lookup, h, ih]

/-- A key of only one table shows that table's value, a key of both shows one
value laid over the other. -/
theorem Entries.lookup_merge (key : String) (base overlay : Entries) :
    (base.merge overlay).lookup key =
      match base.lookup key, overlay.lookup key with
      | some v, some w => some (v.merge w)
      | some v, none => some v
      | none, found => found := by
  rw [merge, lookup_addMissing, lookup_mergeEach]
  cases base.lookup key <;> cases overlay.lookup key <;> simp

end DrawingDiary.Toml
