/-!
# Cooldowns

A cooldown is a gate in front of an expensive look at the disk. It opens when it
is tried for the first time and from then on whenever its period has passed
since it opened last. Whoever finds it open stamps it, so the next one to try
finds it closed.
-/

namespace DrawingDiary

/-- A moment of a running program, in nanoseconds from some fixed start. -/
abbrev Instant := Nat

/-- A gate that opens once per period. -/
structure Cooldown where
  /-- the period, in seconds -/
  period : Nat
  /-- when the gate opened last -/
  lastOpened : Option Instant := none
deriving DecidableEq, Repr

namespace Cooldown

def ofSeconds (period : Nat) : Cooldown := { period := period }

def isOpen (gate : Cooldown) (now : Instant) : Bool :=
  match gate.lastOpened with
  | none => true
  | some last => gate.period * 1000000000 ≤ now - last

/-- The gate after somebody went through at a moment. -/
def stamp (gate : Cooldown) (now : Instant) : Cooldown := { gate with lastOpened := some now }

/-- Tries the gate: whether it was open, and the gate afterwards. -/
def tryOpen (gate : Cooldown) (now : Instant) : Bool × Cooldown :=
  if gate.isOpen now then (true, gate.stamp now) else (false, gate)

/-- A gate without a period is always open. -/
theorem isOpen_of_period_zero {gate : Cooldown} (h : gate.period = 0) (now : Instant) :
    gate.isOpen now = true := by
  unfold isOpen
  split <;> simp [h]

end Cooldown

end DrawingDiary
