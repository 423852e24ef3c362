import DrawingDiary.Text.Digits
import DrawingDiary.Toml.Scan

/-!
# Dates and times

A moment of a settings file is a date, a time of day, both, or both with an
offset from universal time. It is shown in one form however it was written:
with a `T` between date and time, and with the fraction of a second as short as
possible.
-/

namespace DrawingDiary.Toml

/-- A day of the calendar. -/
structure Date where
  year : Nat
  month : Nat
  day : Nat
deriving DecidableEq, Repr

/-- A time of day. -/
structure Time where
  hour : Nat
  minute : Nat
  second : Nat
  nanosecond : Nat
deriving DecidableEq, Repr

/-- How far local time is from universal time. -/
inductive Offset where
  | universal
  | minutes (count : Int)
deriving DecidableEq, Repr

/-- A date, a time or both. -/
inductive DateTime where
  | date (date : Date)
  | time (time : Time)
  | localTime (date : Date) (time : Time)
  | offsetTime (date : Date) (time : Time) (offset : Offset)
deriving DecidableEq, Repr

/-- A number with at least the given count of digits. -/
def padded (width n : Nat) : String :=
  let digits := Nat.toDigits 10 n
  String.ofList (List.replicate (width - digits.length) '0' ++ digits)

namespace Date

def text (d : Date) : String :=
  padded 4 d.year ++ "-" ++ padded 2 d.month ++ "-" ++ padded 2 d.day

def isLeapYear (year : Nat) : Bool :=
  year % 4 = 0 && year % 100 ≠ 0 || year % 400 = 0

def daysInMonth (year month : Nat) : Nat :=
  if month = 2 then (if isLeapYear year then 29 else 28)
  else if month = 4 ∨ month = 6 ∨ month = 9 ∨ month = 11 then 30
  else 31

def exists? (d : Date) : Bool :=
  1 ≤ d.month && d.month ≤ 12 && 1 ≤ d.day && d.day ≤ daysInMonth d.year d.month

end Date

namespace Time

/-- The fraction of a second without its trailing zeros. -/
def fractionText (nanosecond : Nat) : String :=
  if nanosecond = 0 then ""
  else
    let digits := (padded 9 nanosecond).toList
    "." ++ String.ofList (digits.reverse.dropWhile (· == '0')).reverse

def text (t : Time) : String :=
  padded 2 t.hour ++ ":" ++ padded 2 t.minute ++ ":" ++ padded 2 t.second ++
    fractionText t.nanosecond

/-- Whether a day whose last hour is given has the time; a minute may have a leap
second. -/
def exists? (lastHour : Nat) (t : Time) : Bool :=
  t.hour ≤ lastHour && t.minute ≤ 59 && t.second ≤ 60

end Time

namespace Offset

def text : Offset → String
  | .universal => "Z"
  | .minutes count =>
    let size := count.natAbs
    (if count < 0 then "-" else "+") ++ padded 2 (size / 60) ++ ":" ++ padded 2 (size % 60)

end Offset

namespace DateTime

def text : DateTime → String
  | .date d => d.text
  | .time t => t.text
  | .localTime d t => d.text ++ "T" ++ t.text
  | .offsetTime d t o => d.text ++ "T" ++ t.text ++ o.text

end DateTime

/-- What is taken for a moment where it is read. -/
structure MomentBounds where
  lastHour : Nat
  /-- whether an offset may be so many hours and minutes -/
  hasOffset : Nat → Nat → Bool

namespace MomentBounds

/-- A moment among the values of a file: offsets of less than a day. -/
def ofValue : MomentBounds := ⟨23, fun hours minutes => hours ≤ 23 && minutes ≤ 59⟩

/-- A moment that a text describes: the hour may be the one after the last, and an
offset up to a whole day, however it is shared out. -/
def ofText : MomentBounds := ⟨24, fun hours minutes => 60 * hours + minutes ≤ 24 * 60⟩

end MomentBounds

namespace Scan

def fixedDigits (count : Nat) : Scan Nat := fun s =>
  let digits := s.take count
  if digits.length = count ∧ digits.all Char.isDigit then
    some (Text.digitsValue digits, s.drop count)
  else none

def date : Scan Date := do
  let year ← fixedDigits 4
  exactly ['-']
  let month ← fixedDigits 2
  exactly ['-']
  let day ← fixedDigits 2
  let date : Date := ⟨year, month, day⟩
  if date.exists? then pure date else failure

/-- Reads a fraction of a second; its digits after the ninth are left out. -/
def secondFraction : Scan Nat := do
  exactly ['.']
  let digits ← run Char.isDigit
  if digits.isEmpty then failure
  else pure (Text.digitsValue ((digits ++ List.replicate 9 '0').take 9))

/-- Reads a time of day. Its seconds cannot be left out. -/
def time (bounds : MomentBounds) : Scan Time := do
  let hour ← fixedDigits 2
  exactly [':']
  let minute ← fixedDigits 2
  exactly [':']
  let second ← fixedDigits 2
  let nanosecond ← if ← startsWith ['.'] then secondFraction else pure 0
  let time : Time := ⟨hour, minute, second, nanosecond⟩
  if time.exists? bounds.lastHour then pure time else failure

/-- Reads an offset: a letter for none, or a sign with hours and minutes. -/
def offset (bounds : MomentBounds) : Scan Offset :=
  (do discard (one fun c => c == 'Z' || c == 'z'); pure .universal) <|>
  (do
    let sign ← one fun c => c == '+' || c == '-'
    let hours ← fixedDigits 2
    exactly [':']
    let minutes ← fixedDigits 2
    let size : Int := (60 * hours + minutes : Nat)
    if bounds.hasOffset hours minutes then pure (.minutes (if sign == '-' then -size else size))
    else failure)

def dateTime (bounds : MomentBounds) : Scan DateTime :=
  (do
    let d ← date
    let t ← attempt? do
      discard (one fun c => c == 'T' || c == 't' || c == ' ')
      time bounds
    match t with
    | none => pure (.date d)
    | some t =>
      match ← attempt? (offset bounds) with
      | none => pure (.localTime d t)
      | some o => pure (.offsetTime d t o)) <|>
  (.time <$> time bounds)

end Scan

def DateTime.ofText? (text : String) : Option DateTime :=
  match Scan.dateTime .ofText text.toList with
  | some (moment, []) => some moment
  | _ => none

end DrawingDiary.Toml
