import DrawingDiary.Diary.Access
import DrawingDiary.Text.Digits

/-!
# Listing the days of a diary

A row says how many drawings and notes a day has. The listing shows the rows
under the names of their months and ends with the totals.
-/

namespace DrawingDiary.Report

open Text

/-- One day of the listing. -/
structure DayRow where
  date : String
  images : UInt32
  events : UInt32
deriving DecidableEq, Repr

/-- The row of a day; its notes are counted after a refresh. -/
def dayRow (view : View) : Run Day DayRow := do
  let images := (← Run.state).imageCount view.disk
  let mask ← Day.eventMask view
  return ⟨(← Run.state).date, images, mask.count⟩

def dayRows (view : View) (days : List DayId) : Run Shelf (List DayRow) :=
  Run.forEach days fun id => Shelf.onDay id (dayRow view)

def monthRows (view : View) (months : List Month) : Run Shelf (List (String × List DayRow)) :=
  Run.forEach months fun month => do return (month.name, ← dayRows view month.days)

def eventsLabel (n : UInt32) : String := if n = 0 then "no events" else counted n "event" "events"

def rowLine (row : DayRow) : String :=
  "    " ++ row.date ++ "  " ++ padRight 9 (counted row.images "image" "images") ++ " " ++
    eventsLabel row.events

/-- The lines of a month: its name and its days. -/
def monthLines (name : String) (rows : List DayRow) : List String := name :: rows.map rowLine

/-- The line of the totals, after an empty one; nothing is totalled without days. -/
def totalLines (rows : List DayRow) : List String :=
  if rows.isEmpty then ["No diary days found"]
  else
    let days := (rows.map fun _ => (1 : UInt32)).foldr (· + ·) 0
    let images := (rows.map (·.images)).foldr (· + ·) 0
    ["", counted days "day" "days" ++ ", " ++ counted images "image" "images"]

def listingOf (months : List (String × List DayRow)) : List String :=
  (months.flatMap fun month => monthLines month.1 month.2) ++ totalLines (months.flatMap (·.2))

def listing (view : View) (months : List Month) : Run Shelf (List String) := do
  return listingOf (← monthRows view months)

/-- The rows as JSON text, indented by two blanks; a date holds no character
that JSON would write differently. -/
def rowsJson (rows : List DayRow) : String :=
  if rows.isEmpty then "[]"
  else
    let entry (row : DayRow) : String :=
      "  \x7b\n    \"date\": \"" ++ row.date ++ "\",\n    \"images\": " ++ row.images.toNat.repr ++
        ",\n    \"events\": " ++ row.events.toNat.repr ++ "\n  \x7d"
    "[\n" ++ String.intercalate ",\n" (rows.map entry) ++ "\n]"

end DrawingDiary.Report
