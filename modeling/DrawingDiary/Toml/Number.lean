import DrawingDiary.Decimal.Nearest
import DrawingDiary.Toml.Value

/-!
# Numbers of a settings file

A number is decimal, or a whole number in base 16, 8 or 2. A single underscore
may stand between two digits. Whole numbers are those of 64 bits with a sign;
a decimal too large for a float is refused when it is positive.
-/

namespace DrawingDiary.Toml

namespace Scan

/-- Reads digits of a class after a first one, each with an underscore before it
or not. An underscore that no digit follows makes the number invalid. -/
def moreDigits (p : Char → Bool) : List Char → Option (List Char × List Char)
  | [] => some ([], [])
  | '_' :: d :: rest =>
    if p d then (moreDigits p rest).map fun (digits, left) => (d :: digits, left) else none
  | c :: rest =>
    if p c then (moreDigits p rest).map fun (digits, left) => (c :: digits, left)
    else if c = '_' then none
    else some ([], c :: rest)

def digits (p : Char → Bool) : Scan (List Char) := do
  let first ← one p
  let more ← (moreDigits p : Scan (List Char))
  pure (first :: more)

/-- Reads the whole part of a decimal number, without leading zeros. -/
def wholePart : Scan (List Char) := do
  if ← startsWith ['0'] then
    exactly ['0']
    pure ['0']
  else digits Char.isDigit

/-- Reads a sign, which may be left out; true means minus. -/
def sign : Scan Bool := do
  match ← attempt? (one fun c => c == '+' || c == '-') with
  | some c => pure (c == '-')
  | none => pure false

def exponent : Scan Int := do
  discard (one fun c => c == 'e' || c == 'E')
  let minus ← sign
  let size : Int := (Text.digitsValue (← digits Char.isDigit) : Nat)
  pure (if minus then -size else size)

def digitValue (c : Char) : Nat :=
  if c.isDigit then c.toNat - '0'.toNat
  else if c.isUpper then c.toNat - 'A'.toNat + 10
  else c.toNat - 'a'.toNat + 10

def isHexDigit (c : Char) : Bool :=
  c.isDigit || ('a' ≤ c && c ≤ 'f') || ('A' ≤ c && c ≤ 'F')

def isBaseDigit (base : Nat) (c : Char) : Bool := isHexDigit c && digitValue c < base

def baseValue (base : Nat) (digits : List Char) : Nat :=
  digits.foldl (fun value d => base * value + digitValue d) 0

def word (n : Int) : Scan Value :=
  if -(Int.pow 2 63) ≤ n ∧ n < Int.pow 2 63 then pure (.integer n) else failure

/-- Reads a whole number in another base than ten. -/
def inBase (mark : Char) (base : Nat) : Scan Value := do
  exactly ['0', mark]
  word (baseValue base (← digits (isBaseDigit base)))

/-- Reads a decimal number; it is a float if it has places or an exponent. -/
def decimal : Scan Value := do
  let minus ← sign
  let whole ← wholePart
  let places ← if ← startsWith ['.'] then
      do exactly ['.']; some <$> digits Char.isDigit
    else pure none
  let power ← if (← startsWith ['e']) || (← startsWith ['E']) then some <$> exponent
    else pure none
  match places, power with
  | none, none =>
    let size : Int := (Text.digitsValue whole : Nat)
    word (if minus then -size else size)
  | _, _ =>
    let places := places.getD []
    let x := Decimal.nearest (Text.digitsValue (whole ++ places)) (power.getD 0 - places.length)
    if minus then pure (.float (-x))
    else if x.isInf then failure
    else pure (.float x)

/-- Reads an infinity or a value that is no number. -/
def unbounded : Scan Value := do
  let minus ← sign
  (do exactly "inf".toList
      pure (.float (if minus then -(1.0 / 0.0) else 1.0 / 0.0))) <|>
  (do exactly "nan".toList
      pure (.float (0.0 / 0.0)))

def number : Scan Value :=
  inBase 'x' 16 <|> inBase 'o' 8 <|> inBase 'b' 2 <|> decimal <|> unbounded

end Scan

end DrawingDiary.Toml
