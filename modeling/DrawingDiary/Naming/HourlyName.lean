import DrawingDiary.Naming.Hour
import DrawingDiary.Naming.Token

/-!
# Names of hourly files

A drawing is named `<anything>-YYYY-MM-DD-H.png` with a non-empty beginning, a
note `event-YYYY-MM-DD-H.txt`. The hour has one or two digits and is below
twenty-four; `5` and `05` name the same hour.
-/

namespace DrawingDiary.Naming

open Text

/-- The two kinds of hourly files of a day. -/
inductive HourlyKind where
  | image
  | event
deriving DecidableEq, Repr

/-- What the name of an hourly file says. -/
structure HourlyName where
  /-- the date, `YYYY-MM-DD` -/
  date : String
  /-- the hour -/
  hour : Hour
deriving DecidableEq, Repr

namespace HourlyKind

def ending : HourlyKind → List Char
  | .image => ".png".toList
  | .event => ".txt".toList

/-- What may stand before the date, its dash included. -/
def allowsHead : HourlyKind → List Char → Bool
  | .image, head => 1 < head.length && head.getLast? == some '-'
  | .event, head => head == "event-".toList

end HourlyKind

/-- An hour written with one or two digits. -/
def readHour? (token : List Char) : Option Hour :=
  if isDigits token && token.length ≤ 2 then
    if h : digitsValue token < hoursPerDay then some ⟨digitsValue token, h⟩ else none
  else none

/-- The date and hour in the name of an hourly file. -/
def hourlyName? (kind : HourlyKind) (name : String) : Option HourlyName := do
  let stem ← dropSuffix? kind.ending name.toList
  let (head, hourToken) ← splitLast? '-' stem
  let hour ← readHour? hourToken
  let start := head.length - 10
  if isDate (head.drop start) && kind.allowsHead (head.take start) then
    some ⟨String.ofList (head.drop start), hour⟩
  else none

def eventFileName (date : String) (hour : Nat) : String :=
  "event-" ++ date ++ "-" ++ hour.repr ++ ".txt"

/-- The name of the strip of tiles beside the hourly files. -/
def thumbnailFile : String := "thumbnail.png"

end DrawingDiary.Naming
