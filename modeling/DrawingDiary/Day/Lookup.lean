import DrawingDiary.Naming.Hour

/-!
# Failed lookups

A lookup fails because the hour does not exist on any clock, because there is no
such day, or because the day has nothing at that hour.
-/

namespace DrawingDiary

/-- Why a lookup has no answer. -/
inductive LookupError where
  | invalidHour (hour : UInt32)
  | noSuchDay (date : String)
  | noSuchHour (date : String) (hour : UInt32)
deriving DecidableEq, Repr

namespace LookupError

def message : LookupError → String
  | .invalidHour hour =>
    "The hour " ++ hour.toNat.repr ++ " is outside of the allowed range: 0-23"
  | .noSuchDay date => "There is no day with date '" ++ date ++ "'"
  | .noSuchHour date hour =>
    "Day '" ++ date ++ "' does not have an hour " ++ hour.toNat.repr

/-- Whether the thing is missing; otherwise the question was rejected. -/
def isNotFound : LookupError → Bool
  | .invalidHour _ => false
  | .noSuchDay _ => true
  | .noSuchHour _ _ => true

end LookupError

def checkHour (hour : UInt32) : Except LookupError Hour :=
  if h : hour.toNat < hoursPerDay then .ok ⟨hour.toNat, h⟩ else .error (.invalidHour hour)

end DrawingDiary
