/-!
# The shortest text of a float

A float is shown with the fewest digits that read back as the same float, of
these the nearest to it. The digits are written out in full, without an
exponent, and a whole number keeps one place after the point.
-/

namespace DrawingDiary.Decimal

/-- The numbers that read back as a float, in units of `2 ^ unit`: those around
`centre` between `low` and `high`. -/
structure Interval where
  unit : Int
  low : Nat
  centre : Nat
  high : Nat
  /-- whether the ends read back as the float too -/
  closed : Bool

/-- The interval of a positive finite float, given by its bits. The neighbour
below a power of two is only half as far away as the one above. -/
def Interval.ofBits (bits : Nat) : Interval :=
  let fraction := bits % Nat.pow 2 52
  let exponent := bits / Nat.pow 2 52 % Nat.pow 2 11
  let mantissa := if exponent = 0 then fraction else fraction + Nat.pow 2 52
  let below := if fraction = 0 ∧ 1 < exponent then 1 else 2
  { unit := (max exponent 1 : Nat) - 1077
    low := 4 * mantissa - below
    centre := 4 * mantissa
    high := 4 * mantissa + 2
    closed := mantissa % 2 == 0 }

/-- The multiple of `10 ^ power` in the interval that is nearest to its centre,
the larger of two equally near. -/
def Interval.onGrid (i : Interval) (power : Int) : Option Nat :=
  let up (n : Nat) : Nat := n * Nat.pow 2 i.unit.toNat * Nat.pow 10 (-power).toNat
  let step := Nat.pow 2 (-i.unit).toNat * Nat.pow 10 power.toNat
  let inside (k : Nat) : Bool :=
    if i.closed then up i.low ≤ k * step && k * step ≤ up i.high
    else up i.low < k * step && k * step < up i.high
  let floor := up i.centre / step
  let nearLower := 2 * (up i.centre % step) < step
  match inside floor, inside (floor + 1) with
  | true, true => some (if nearLower then floor else floor + 1)
  | true, false => some floor
  | false, true => some (floor + 1)
  | false, false => none

/-- The first of the grids below `10 ^ power` that meets the interval, as digits
and power. -/
def Interval.firstGrid (i : Interval) : Nat → Int → Nat × Int
  | 0, power => (0, power)
  | n + 1, power =>
    match i.onGrid power with
    | some digits => (digits, power)
    | none => i.firstGrid n (power - 1)

/-- The fewest digits, with their power of ten, that read back as a positive
finite float. -/
def shortest (bits : Nat) : Nat × Int := (Interval.ofBits bits).firstGrid 640 309

/-- Digits written out in full around the point. -/
def positional (digits : Nat) (power : Int) : String :=
  let written := Nat.toDigits 10 digits
  if 0 ≤ power then String.ofList (written ++ List.replicate power.toNat '0' ++ ['.', '0'])
  else
    let places := (-power).toNat
    let filled := List.replicate (places + 1 - written.length) '0' ++ written
    let whole := filled.length - places
    String.ofList (filled.take whole ++ '.' :: filled.drop whole)

def text (x : Float) : String :=
  if x.isNaN then "NaN"
  else
    let bits := x.toBits.toNat
    let sign := if bits / Nat.pow 2 63 = 0 then "" else "-"
    let size := bits % Nat.pow 2 63
    if x.isInf then sign ++ "inf"
    else if size = 0 then sign ++ "0.0"
    else sign ++ positional (shortest size).1 (shortest size).2

end DrawingDiary.Decimal
