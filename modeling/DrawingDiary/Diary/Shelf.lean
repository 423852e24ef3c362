import DrawingDiary.Day.Access

/-!
# Days and their identity

A day that is looked up twice is the same day: what one caller makes it remember
the other one sees. A `Shelf` keeps every day that was ever made under a number
of its own, and whoever holds on to a day holds on to that number.
-/

namespace DrawingDiary

/-- The number under which a day stands on its shelf. -/
abbrev DayId := Nat

/-- Every day that was made, by its number. -/
abbrev Shelf := Array Day

namespace Shelf

def day (shelf : Shelf) (id : DayId) : Day := shelf.getD id default

def replace (shelf : Shelf) (id : DayId) (day : Day) : Shelf := shelf.setIfInBounds id day

def onDay {α : Type} (id : DayId) (run : Run Day α) : Run Shelf α :=
  Run.onPart (fun shelf => shelf.day id) (fun shelf day => shelf.replace id day) run

end Shelf

/-- The days of a month, newest first. -/
structure Month where
  /-- the month, `YYYY-MM` -/
  name : String
  days : List DayId
deriving DecidableEq, Repr

/-- How many drawings the days of a month have now. -/
def Month.imageCount (month : Month) (shelf : Shelf) (disk : Disk) : UInt32 :=
  (month.days.map fun id => (shelf.day id).imageCount disk).foldr (· + ·) 0

/-- Dated things grouped by month: months newest first, and newest first in each. -/
def groupByMonth (dated : List (String × DayId)) : List Month :=
  let names := (dated.map fun entry => Naming.monthOf entry.1).eraseDups
  (names.mergeSort fun a b => b ≤ a).map fun name =>
    let members := dated.filter fun entry => Naming.monthOf entry.1 == name
    ⟨name, (members.mergeSort fun a b => b.1 ≤ a.1).map (·.2)⟩

end DrawingDiary
