import DrawingDiary.Naming.HourlyName

/-!
# Where the links of a page point

A page is either served on request, with drawings behind an endpoint and months
chosen by a query, or it is a file of a static site, where every link is a path
relative to the page.
-/

namespace DrawingDiary

/-- Where the links of a page point. -/
inductive PageTarget where
  /-- served on request, with drawings behind an endpoint -/
  | live (endpoint : String)
  /-- a file of a static site, with the path from it to the site's root -/
  | static (pathToRoot : String)
deriving DecidableEq, Repr

namespace PageTarget

/-- The name under which a static site shows the diary. -/
def drawingsDirectory : String := "rabbit-drawings"

/-- The target of a page of the static site: the root page, or a month's page
one level below. -/
def staticPage (month : Option String) : PageTarget :=
  .static (if month.isSome then ".." else ".")

/-- The path from the page to the root of the site. -/
def pathToRoot : PageTarget → String
  | .live _ => "."
  | .static path => path

def rootLink : PageTarget → String
  | .live _ => ""
  | .static path => path

def monthLink (month : String) : PageTarget → String
  | .live _ => "?month=" ++ month
  | .static path => path ++ "/" ++ month ++ "/"

def dayUrl (date : String) : PageTarget → String
  | .live endpoint => endpoint ++ "/" ++ date
  | .static path => path ++ "/" ++ drawingsDirectory ++ "/" ++ date

end PageTarget

end DrawingDiary
