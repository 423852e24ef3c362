import DrawingDiary.Page.Target
import DrawingDiary.Text.Attribute

/-!
# The hour cells of a day

A day is shown as twenty-four cells, one for each hour. On a live page a cell is
a link to the drawing of the hour, or empty. On a static page it holds a link to
the drawing's file and one to the note's file, whose title is the text of the
note. Links cannot be nested, so a note stands between two links to the drawing.
-/

namespace DrawingDiary.Cells

def liveCell (dayUrl : String) (hour : Hour) (present : Bool) : String :=
  if present then
    "<a class=\"rabbit-link\" href=\"" ++ dayUrl ++ "/" ++ hour.val.repr ++
      "\" target=\"_blank\"></a>"
  else "<div class=\"rabbit-link\"></div>"

def live (mask : HourMask) (dayUrl : String) : List String :=
  allHours.map fun hour => liveCell dayUrl hour (mask.has hour)

def imageLink (dayUrl fileName : String) : String :=
  "<a href=\"" ++ dayUrl ++ "/" ++ fileName ++ "\"></a>"

/-- The link to a note's file, with the text of the note as its title. -/
def noteLink (dayUrl date : String) (hour : Hour) (text : String) : String :=
  "<a href=\"" ++ dayUrl ++ "/" ++ Naming.eventFileName date hour.val ++
    "\" class=\"event-link\" title=\"" ++ Text.escapeAttribute text ++ "\">Note</a>"

def staticCell (dayUrl date : String) (hour : Hour) (image note : Option String) : String :=
  match image, note with
  | none, none => "<div class=\"inactive\"></div>"
  | some file, none => "<div>" ++ imageLink dayUrl file ++ "</div>"
  | none, some text => "<div>" ++ noteLink dayUrl date hour text ++ "</div>"
  | some file, some text =>
    "<div>" ++ imageLink dayUrl file ++ noteLink dayUrl date hour text ++
      imageLink dayUrl file ++ "</div>"

def static (dayUrl date : String) (images notes : Slots String) : List String :=
  allHours.map fun hour => staticCell dayUrl date hour (images.at? hour) (notes.at? hour)

end DrawingDiary.Cells
