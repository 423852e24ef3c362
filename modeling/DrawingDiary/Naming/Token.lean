import DrawingDiary.Text.Digits
import DrawingDiary.Text.Split

/-!
# Date and month tokens

A date is written with four, two and two digits separated by dashes, a month
with four and two. Only this shape is checked: the thirteenth month and the
forty-fifth day of a month are accepted, as a directory name may carry them.
-/

namespace DrawingDiary.Naming

open Text

/-- Groups of digits of the given sizes, separated by dashes. -/
def digitGroups : List Nat → List Char → Bool
  | [], s => s.isEmpty
  | [n], s => s.length == n && s.all Char.isDigit
  | n :: m :: sizes, s =>
    (s.take n).length == n && (s.take n).all Char.isDigit && (s.drop n).head? == some '-' &&
      digitGroups (m :: sizes) (s.drop (n + 1))

def isDate (token : List Char) : Bool := digitGroups [4, 2, 2] token

def isMonth (token : List Char) : Bool := digitGroups [4, 2] token

/-- A directory holds a day when its name is exactly a date. -/
def isDayName (name : String) : Bool := isDate name.toList

/-- The month of a date is what stands before its last dash; a name without a
dash is its own month. -/
def monthOf (date : String) : String :=
  match splitLast? '-' date.toList with
  | some (month, _) => String.ofList month
  | none => date

/-- The month a reader asks for: a month token whose number is at most twelve. -/
def monthSelector? (raw : String) : Option String :=
  if isMonth raw.toList && digitsValue (raw.toList.drop 5) ≤ 12 then some raw else none

def monthName? : Nat → Option String
  | 1 => some "January"
  | 2 => some "February"
  | 3 => some "March"
  | 4 => some "April"
  | 5 => some "May"
  | 6 => some "June"
  | 7 => some "July"
  | 8 => some "August"
  | 9 => some "September"
  | 10 => some "October"
  | 11 => some "November"
  | 12 => some "December"
  | _ => none

/-- A month in words: the name of its number, then what stands before the first
dash. A number that is no month, or none below 256, is written `???`. -/
def monthDisplayName (month : String) : String :=
  let (year, number) := match splitFirst? '-' month.toList with
    | some parts => parts
    | none => (month.toList, [])
  let name := ((readBounded? 256 number).bind monthName?).getD "???"
  name ++ " " ++ String.ofList year

end DrawingDiary.Naming
