/-!
# Cutting a text at its ends and at a character

`splitFirst?` and `splitLast?` cut at the first and the last occurrence of a
character, `dropPrefix?` and `dropSuffix?` remove a known beginning or ending.
Each answers `none` when there is nothing to cut.
-/

namespace DrawingDiary.Text

/-- The rest of the text after a known beginning. -/
def dropPrefix? : List Char → List Char → Option (List Char)
  | [], s => some s
  | _ :: _, [] => none
  | p :: ps, c :: s => if p = c then dropPrefix? ps s else none

def dropSuffix? (ending s : List Char) : Option (List Char) :=
  (dropPrefix? ending.reverse s.reverse).map List.reverse

/-- The parts before and after the first occurrence of a character. -/
def splitFirst? (c : Char) : List Char → Option (List Char × List Char)
  | [] => none
  | x :: s =>
    if x = c then some ([], s)
    else (splitFirst? c s).map fun parts => (x :: parts.1, parts.2)

/-- The parts before and after the last occurrence of a character. -/
def splitLast? (c : Char) : List Char → Option (List Char × List Char)
  | [] => none
  | x :: s =>
    match splitLast? c s with
    | some parts => some (x :: parts.1, parts.2)
    | none => if x = c then some ([], s) else none

/-- The pieces of the text between the occurrences of a character. -/
def splitAll (c : Char) : List Char → List (List Char)
  | [] => [[]]
  | x :: s =>
    if x = c then [] :: splitAll c s
    else
      match splitAll c s with
      | [] => [[x]]
      | piece :: pieces => (x :: piece) :: pieces

theorem dropPrefix?_eq_some_iff {p s r : List Char} :
    dropPrefix? p s = some r ↔ s = p ++ r := by
  induction p generalizing s with
  | nil => simp [dropPrefix?, eq_comm]
  | cons a p ih =>
    cases s with
    | nil => simp [dropPrefix?]
    | cons c s =>
      by_cases h : a = c
      · simp [dropPrefix?, h, ih]
      · simp [dropPrefix?, h, Ne.symm h]

theorem dropSuffix?_eq_some_iff {p s r : List Char} :
    dropSuffix? p s = some r ↔ s = r ++ p := by
  simp only [dropSuffix?, Option.map_eq_some_iff, dropPrefix?_eq_some_iff]
  constructor
  · rintro ⟨t, ht, rfl⟩
    simpa using congrArg List.reverse ht
  · rintro rfl
    exact ⟨r.reverse, by simp, by simp⟩

end DrawingDiary.Text
