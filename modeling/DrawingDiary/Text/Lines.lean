/-!
# Lines of a text

A line ends with a line feed, and a carriage return right before the line feed
belongs to the ending. A last line without a line feed is a line too, unless it
is empty; its carriage return, if it ends with one, is kept.
-/

namespace DrawingDiary.Text

/-- The line whose characters were read in reverse, without the carriage return
of its ending. -/
def endLine : List Char → List Char
  | '\r' :: line => line.reverse
  | line => line.reverse

/-- The lines of the text when `line` holds, in reverse, what has been read of
the current line. -/
def linesFrom (line : List Char) : List Char → List (List Char)
  | [] => if line.isEmpty then [] else [line.reverse]
  | '\n' :: s => endLine line :: linesFrom [] s
  | c :: s => linesFrom (c :: line) s

def splitLines (text : String) : List String :=
  (linesFrom [] text.toList).map String.ofList

/-- The text that holds the given lines, each followed by a line feed. -/
def unlines (lines : List String) : String :=
  lines.foldr (fun line rest => line ++ "\n" ++ rest) ""

end DrawingDiary.Text
