import DrawingDiary.Diary.Shelf

/-!
# The month of a page and its neighbours

Months are listed newest first, so a newer month has a smaller index. Without a
request the newest month is shown. A requested month that has no days still has
neighbours: the closest newer and the closest older month with days.
-/

namespace DrawingDiary

/-- The indices of the month shown, of its newer neighbour, and of the first
older month, which may be the number of months. -/
structure MonthWindow where
  current : Option Nat
  newer : Option Nat
  older : Nat
deriving DecidableEq, Repr

/-- The index of the last member with a property. -/
def lastIndex? {α : Type} (p : α → Bool) : List α → Option Nat
  | [] => none
  | x :: rest =>
    match lastIndex? p rest with
    | some i => some (i + 1)
    | none => if p x then some 0 else none

/-- The window of a request in a list of months, newest first. -/
def MonthWindow.resolve (months : List String) (requested : Option String) : MonthWindow :=
  let current := match requested with
    | none => if months.isEmpty then none else some 0
    | some month => months.findIdx? (· == month)
  let newer := match current, requested with
    | some 0, _ => none
    | some (i + 1), _ => some i
    | none, some month => lastIndex? (fun name => decide (month < name)) months
    | none, none => none
  let older := match current, newer with
    | some i, _ => i + 1
    | none, some i => i + 1
    | none, none => 0
  ⟨current, newer, older⟩

end DrawingDiary
