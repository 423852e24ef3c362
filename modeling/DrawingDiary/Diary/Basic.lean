import DrawingDiary.Diary.Shelf

/-!
# A diary and its refresh

A diary is a list of roots, each holding day directories. When a date stands
under several roots the first of them counts. `claims` says which directory each
date has on a disk; a refresh brings the cached days in line with it. A day
whose directory is the same as before is kept with all it remembers, any other
is made anew, and days that are gone are forgotten. The months are grouped again
only when some day was added, moved or removed.
-/

namespace DrawingDiary

/-- A diary and what is remembered of it. -/
structure Diary where
  roots : List Path
  settings : DaySettings
  shelf : Shelf
  /-- the cached days by date -/
  days : List (String × DayId)
  /-- the cached days grouped by month, newest first -/
  months : List Month
  gate : Cooldown

namespace Diary

/-- A diary of which nothing has been read yet; the cooldown is in seconds. -/
def new (roots : List Path) (settings : DaySettings) (cooldown : Nat) : Diary where
  roots := roots
  settings := settings
  shelf := #[]
  days := []
  months := []
  gate := Cooldown.ofSeconds cooldown

/-- The dates and directories that one root adds to those already claimed. -/
def claimsOfRoot (isDirectory : Path → Bool) (claimed : List (String × Path)) (root : Path)
    (names : List String) : List (String × Path) :=
  names.foldl (fun claimed name =>
    if Naming.isDayName name && isDirectory (root.join name) &&
        !(claimed.map (·.1)).contains name then
      claimed ++ [(name, root.join name)]
    else claimed) claimed

/-- Each date with the directory that it has under the first root that has one.
Roots that cannot be listed are passed over. -/
def claims (list : Path → Option (List String)) (isDirectory : Path → Bool) (roots : List Path) :
    List (String × Path) :=
  roots.foldl (fun claimed root =>
    match list root with
    | some names => claimsOfRoot isDirectory claimed root names
    | none => claimed) []

/-- The claims on a disk, by date. -/
def claimsOn (disk : Disk) (roots : List Path) : List (String × Path) :=
  (claims (fun root => (disk.list root).toOption) disk.isDirectory roots).mergeSort
    fun a b => a.1 ≤ b.1

/-- The cached day of a date, if its directory is still the claimed one. -/
def kept? (diary : Diary) (claim : String × Path) : Option DayId :=
  match diary.days.lookup claim.1 with
  | some id => if (diary.shelf.day id).directory.same claim.2 then some id else none
  | none => none

/-- The claimed days in order, with a new day on the shelf for each that is not
kept. -/
def settleClaims (diary : Diary) (shelf : Shelf) :
    List (String × Path) → Shelf × List (String × DayId)
  | [] => (shelf, [])
  | claim :: rest =>
    match diary.kept? claim with
    | some id =>
      let (shelf, days) := settleClaims diary shelf rest
      (shelf, (claim.1, id) :: days)
    | none =>
      let made := shelf.push (Day.new claim.1 claim.2 diary.settings)
      let (settled, days) := settleClaims diary made rest
      (settled, (claim.1, shelf.size) :: days)

/-- Whether the claims add, move or remove a day. -/
def changedBy (diary : Diary) (claims : List (String × Path)) : Bool :=
  claims.any (fun claim => (diary.kept? claim).isNone) ||
    diary.days.any fun entry => !(claims.map (·.1)).contains entry.1

def adopt (diary : Diary) (claims : List (String × Path)) : Diary :=
  let (shelf, days) := settleClaims diary diary.shelf claims
  { diary with
    shelf := shelf
    days := days
    months := if diary.changedBy claims then groupByMonth days else diary.months }

/-- Brings the cached days in line with the disk, unless the gate is closed. -/
def refresh (view : View) (diary : Diary) : Diary :=
  let (opened, gate) := diary.gate.tryOpen view.now
  if opened then { diary.adopt (claimsOn view.disk diary.roots) with gate := gate } else diary

theorem refresh_eq (view : View) (diary : Diary) :
    diary.refresh view =
      if diary.gate.isOpen view.now then
        { diary.adopt (claimsOn view.disk diary.roots) with gate := diary.gate.stamp view.now }
      else diary := by
  unfold refresh Cooldown.tryOpen
  by_cases isOpen : diary.gate.isOpen view.now = true
  · rw [if_pos isOpen, if_pos isOpen]
    rfl
  · rw [if_neg isOpen, if_neg isOpen]
    rfl

def newestFirst (diary : Diary) : List DayId :=
  (diary.days.mergeSort fun a b => b.1 ≤ a.1).map (·.2)

/-- An estimate of the memory held for all cached days, in bytes. -/
def size (diary : Diary) : Nat :=
  (diary.days.map fun entry => (diary.shelf.day entry.2).size).foldr (· + ·) 0

end Diary

end DrawingDiary
