/-!
# Numbers written in decimal digits

Only the ten ASCII digits count as digits, whatever the alphabet of the text
around them.
-/

namespace DrawingDiary.Text

def digitsValue (digits : List Char) : Nat :=
  digits.foldl (fun value d => 10 * value + (d.toNat - '0'.toNat)) 0

/-- A text that consists of digits and has at least one. -/
def isDigits (s : List Char) : Bool :=
  !s.isEmpty && s.all Char.isDigit

/-- A natural number below the bound, with an optional plus sign and any number
of leading zeros. -/
def readBounded? (bound : Nat) (s : List Char) : Option Nat :=
  let digits := match s with
    | '+' :: rest => rest
    | _ => s
  if isDigits digits && digitsValue digits < bound then some (digitsValue digits) else none

/-- The count of a thing with its singular or plural name. -/
def counted (n : UInt32) (one many : String) : String :=
  if n = 1 then n.toNat.repr ++ " " ++ one else n.toNat.repr ++ " " ++ many

/-- The text filled up with blanks on the right to the given width. -/
def padRight (width : Nat) (text : String) : String :=
  text ++ String.ofList (List.replicate (width - text.length) ' ')

end DrawingDiary.Text
