/-!
# Replacing fixed patterns in a text

A text is a list of characters. `substitute table s` walks once over `s` from
the left: where a pattern of the table starts it writes the pattern's value and
passes over the whole occurrence, elsewhere it copies the character. The number
of characters still to be passed over is carried along explicitly, so the
recursion is on the text itself and no index arithmetic is needed.

`replaceAll` is the case of one pattern. Replacing several patterns one after
the other is a fold of `replaceAll`, and it is a different function: a value
written by one step is read again by the next.
-/

namespace DrawingDiary.Text

/-- A pattern together with the text written in its place. -/
abbrev Rule := List Char × List Char

/-- The first rule of the table whose pattern starts the text. -/
def matchRule? (table : List Rule) (s : List Char) : Option Rule :=
  table.find? fun rule => rule.1.isPrefixOf s

/-- One pass over the text; the number counts the characters of an occurrence
that are still to be passed over. -/
def substituteFrom (table : List Rule) : Nat → List Char → List Char
  | _, [] => []
  | passing + 1, _ :: s => substituteFrom table passing s
  | 0, c :: s =>
    match matchRule? table (c :: s) with
    | some rule => rule.2 ++ substituteFrom table (rule.1.length - 1) s
    | none => c :: substituteFrom table 0 s

/-- Every occurrence of a pattern of the table, found from the left and without
overlaps, is replaced by its value. -/
def substitute (table : List Rule) (s : List Char) : List Char :=
  substituteFrom table 0 s

def replaceAll (pattern value s : List Char) : List Char :=
  substitute [(pattern, value)] s

/-- The rules are applied one after the other, each to the result of the ones
before it. -/
def replaceInTurn (table : List Rule) (s : List Char) : List Char :=
  table.foldl (fun text rule => replaceAll rule.1 rule.2 text) s

@[simp] theorem substituteFrom_nil (table : List Rule) (n : Nat) :
    substituteFrom table n [] = [] := by
  cases n <;> rfl

@[simp] theorem substituteFrom_succ (table : List Rule) (n : Nat) (c : Char)
    (s : List Char) :
    substituteFrom table (n + 1) (c :: s) = substituteFrom table n s := rfl

theorem substituteFrom_zero_of_none {table : List Rule} {c : Char} {s : List Char}
    (h : matchRule? table (c :: s) = none) :
    substituteFrom table 0 (c :: s) = c :: substituteFrom table 0 s := by
  simp [substituteFrom, h]

theorem substituteFrom_zero_of_some {table : List Rule} {c : Char} {s : List Char}
    {rule : Rule} (h : matchRule? table (c :: s) = some rule) :
    substituteFrom table 0 (c :: s) =
      rule.2 ++ substituteFrom table (rule.1.length - 1) s := by
  simp [substituteFrom, h]

/-- Passing over a prefix of the given length is dropping it. -/
theorem substituteFrom_eq_drop (table : List Rule) (n : Nat) (s : List Char) :
    substituteFrom table n s = substitute table (s.drop n) := by
  induction s generalizing n with
  | nil => simp [substitute]
  | cons c s ih =>
    cases n with
    | zero => rfl
    | succ n => simp [ih]

end DrawingDiary.Text
