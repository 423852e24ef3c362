/-!
# The hours of a day

A day has twenty-four hours. `Slots` keeps at most one thing for each of them,
and `HourMask` one bit: hour `0` is the least significant bit.
-/

namespace DrawingDiary

/-- Number of hours in a day. -/
abbrev hoursPerDay : Nat := 24

/-- An hour of a day, from `0` to `23`. -/
abbrev Hour := Fin hoursPerDay

def allHours : List Hour := List.finRange hoursPerDay

/-- At most one thing for each hour. -/
abbrev Slots (α : Type) := Vector (Option α) hoursPerDay

namespace Slots

/-- No hour holds anything. -/
def empty {α : Type} : Slots α := Vector.replicate hoursPerDay none

def at? {α : Type} (slots : Slots α) (hour : Hour) : Option α := slots[hour.val]

def put {α : Type} (slots : Slots α) (hour : Hour) (content : Option α) : Slots α :=
  slots.set hour.val content

/-- The slots whose content is given hour by hour. -/
def ofFn {α : Type} (f : Hour → Option α) : Slots α := Vector.ofFn f

@[simp] theorem at?_empty {α : Type} (hour : Hour) : (empty : Slots α).at? hour = none := by
  simp [at?, empty]

@[simp] theorem at?_ofFn {α : Type} (f : Hour → Option α) (hour : Hour) :
    (ofFn f).at? hour = f hour := by
  simp [at?, ofFn]

theorem at?_put {α : Type} (slots : Slots α) (h k : Hour) (content : Option α) :
    (slots.put h content).at? k = if h = k then content else slots.at? k := by
  simp [at?, put, Vector.getElem_set, Fin.ext_iff]

@[simp] theorem at?_put_self {α : Type} (slots : Slots α) (h : Hour) (content : Option α) :
    (slots.put h content).at? h = content := by
  simp [at?_put]

/-- Slots that agree at every hour are equal. -/
theorem ext {α : Type} {s t : Slots α} (h : ∀ hour, s.at? hour = t.at? hour) : s = t :=
  Vector.ext fun i hi => h ⟨i, hi⟩

end Slots

/-- One bit for each hour; the bit is set when the hour is present. -/
abbrev HourMask := BitVec hoursPerDay

namespace HourMask

def ofPred (p : Hour → Bool) : HourMask :=
  allHours.foldl (fun mask h => if p h then mask ||| BitVec.twoPow hoursPerDay h.val else mask) 0

def ofList (hours : List Hour) : HourMask :=
  hours.foldl (fun mask h => mask ||| BitVec.twoPow hoursPerDay h.val) 0

def has (mask : HourMask) (hour : Hour) : Bool := mask.getLsbD hour.val

def count (mask : HourMask) : UInt32 :=
  (allHours.countP mask.has).toUInt32

end HourMask

end DrawingDiary
