import DrawingDiary.Page.Target
import DrawingDiary.Page.Window

/-!
# The values of a page's placeholders

A page has eleven placeholders, some in brackets and some bare. Their values
name the month shown and its neighbours, count the drawings before, in and after
it, and link to the neighbours.
-/

namespace DrawingDiary

/-- What a page of months says in place of its placeholders. -/
structure PageFacts where
  months : List String
  window : MonthWindow
  target : PageTarget
  /-- the drawings in all older months -/
  olderCount : UInt32
  /-- the drawings in the month shown -/
  currentCount : UInt32
  /-- the drawings in all newer months -/
  newerCount : UInt32

namespace PageFacts

def countImages (months : List Month) (shelf : Shelf) (disk : Disk) : UInt32 :=
  (months.map fun month => month.imageCount shelf disk).foldr (· + ·) 0

/-- The facts about a window of some months, with the drawings counted now. -/
def gather (months : List Month) (window : MonthWindow) (target : PageTarget) (shelf : Shelf)
    (disk : Disk) : PageFacts where
  months := months.map (·.name)
  window := window
  target := target
  olderCount := countImages (months.drop window.older) shelf disk
  currentCount := countImages (window.current.bind (months[·]?)).toList shelf disk
  newerCount :=
    match window.newer with
    | some i => countImages (months.take (i + 1)) shelf disk
    | none => 0

/-- The name of the month at an index, or what is said when there is none. -/
def monthName (facts : PageFacts) (index : Option Nat) (none : String) : String :=
  match index.bind (facts.months[·]?) with
  | some month => Naming.monthDisplayName month
  | Option.none => none

/-- The link to the closest older month, or to the root page. -/
def olderLink (facts : PageFacts) : String :=
  match facts.months[facts.window.older]? with
  | some month => facts.target.monthLink month
  | none => facts.target.rootLink

/-- The link to the closest newer month; the newest month is the root page. -/
def newerLink (facts : PageFacts) : String :=
  match facts.window.newer with
  | some (i + 1) =>
    match facts.months[i + 1]? with
    | some month => facts.target.monthLink month
    | none => facts.target.rootLink
  | _ => facts.target.rootLink

/-- The element that a neighbour is written with: a link if it has drawings. -/
def tag (count : UInt32) : String := if count = 0 then "span" else "a"

/-- The placeholders with their values, in the order of replacement. -/
def values (facts : PageFacts) : List (String × String) :=
  [("[PATH_TO_RABBIT_ROOT]", facts.target.pathToRoot),
    ("[NEXT_MONTH_NAME]", facts.monthName facts.window.newer "No newer rabbits"),
    ("[CURRENT_MONTH_NAME]", facts.monthName facts.window.current "No rabbits"),
    ("[PREVIOUS_MONTH_NAME]", facts.monthName (some facts.window.older) "No older rabbits"),
    ("[PREVIOUS_RABBITS_COUNT]", facts.olderCount.toNat.repr),
    ("[CURRENT_RABBITS_COUNT]", facts.currentCount.toNat.repr),
    ("[NEXT_RABBITS_COUNT]", facts.newerCount.toNat.repr),
    ("PREVIOUS_RABBITS_TAG", tag facts.olderCount),
    ("NEXT_RABBITS_TAG", tag facts.newerCount),
    ("[PREVIOUS_RABBITS_MONTH]", facts.olderLink),
    ("[NEXT_RABBITS_MONTH]", facts.newerLink)]

end PageFacts

end DrawingDiary
