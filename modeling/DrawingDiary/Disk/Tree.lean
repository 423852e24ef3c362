import DrawingDiary.Disk.Path

/-!
# Files, links and directories

A tree is what stands at a place of the disk. A place is a `Location`, the names
that lead to it from the root. `get?` reads the tree at a location and `setAt`
replaces it; both recurse on the location alone.

The main lemmas say what `lookup` sees after `assign`: the changed name shows
the new tree, every other name shows what it showed before.
-/

namespace DrawingDiary

/-- A moment, in seconds and nanoseconds. -/
structure Timestamp where
  seconds : Int
  nanos : Nat
deriving DecidableEq, Repr, Inhabited

/-- What stands at a place of the disk. -/
inductive Tree where
  | file (content : ByteArray) (modified : Timestamp)
  | link (target : Path)
  | directory (children : List (String × Tree))

/-- A place of the disk: the names that lead to it from the root. -/
abbrev Location := List String

namespace Tree

/-- The child of a name; the first one counts. -/
def lookup (name : String) : List (String × Tree) → Option Tree
  | [] => none
  | (key, tree) :: rest => if key = name then some tree else lookup name rest

/-- The children with the child of one name replaced or removed. -/
def assign (name : String) (tree : Option Tree) : List (String × Tree) → List (String × Tree)
  | [] => match tree with
    | some t => [(name, t)]
    | none => []
  | (key, old) :: rest =>
    if key = name then
      match tree with
      | some t => (name, t) :: rest.filter (·.1 != name)
      | none => rest.filter (·.1 != name)
    else (key, old) :: assign name tree rest

def get? : Location → Tree → Option Tree
  | [], tree => some tree
  | name :: rest, .directory children => (lookup name children).bind (get? rest)
  | _ :: _, _ => none

/-- The tree with what stands at a location replaced or removed. A location
whose parent is no directory is left alone, and so is the whole tree's own
place when nothing is to stand there. -/
def setAt : Location → Option Tree → Tree → Tree
  | [], some tree, _ => tree
  | [], none, tree => tree
  | [name], tree, .directory children => .directory (assign name tree children)
  | name :: next :: rest, tree, .directory children =>
    match lookup name children with
    | some child => .directory (assign name (some (setAt (next :: rest) tree child)) children)
    | none => .directory children
  | _ :: _, _, tree => tree

theorem lookup_filter_ne {n m : String} (h : n ≠ m) (children : List (String × Tree)) :
    lookup n (children.filter (·.1 != m)) = lookup n children := by
  induction children with
  | nil => rfl
  | cons entry rest ih =>
    obtain ⟨key, tree⟩ := entry
    by_cases hm : key = m
    · have hn : key ≠ n := fun e => h (e ▸ hm)
      simpa [lookup, hm, Ne.symm h] using ih
    · by_cases hn : key = n <;> simp_all [lookup]

theorem lookup_filter_self (m : String) (children : List (String × Tree)) :
    lookup m (children.filter (·.1 != m)) = none := by
  induction children with
  | nil => rfl
  | cons entry rest ih =>
    obtain ⟨key, tree⟩ := entry
    by_cases hm : key = m <;> simp_all [lookup]

/-- The changed name shows the new tree, every other name what it showed. -/
theorem lookup_assign (n m : String) (tree : Option Tree) (children : List (String × Tree)) :
    lookup n (assign m tree children) = if n = m then tree else lookup n children := by
  induction children with
  | nil =>
    cases tree with
    | none => simp [assign, lookup]
    | some t => by_cases h : n = m <;> simp [assign, lookup, h, eq_comm]
  | cons entry rest ih =>
    obtain ⟨key, old⟩ := entry
    by_cases hk : key = m
    · subst hk
      by_cases h : n = key
      · subst h
        cases tree with
        | none => simpa [assign] using lookup_filter_self n rest
        | some t => simp [assign, lookup]
      · have hs : key ≠ n := Ne.symm h
        cases tree <;> simpa [assign, lookup, h, hs] using lookup_filter_ne h rest
    · by_cases h : n = m
      · subst h
        simp [assign, lookup, hk, ih]
      · by_cases hn : key = n <;> simp [assign, lookup, hk, hn, ih, h]

end Tree

end DrawingDiary
