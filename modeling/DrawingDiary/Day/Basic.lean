import DrawingDiary.Cooldown
import DrawingDiary.Day.Listing
import DrawingDiary.Day.Lookup
import DrawingDiary.Picture.Strip
import DrawingDiary.Reader
import DrawingDiary.Run

/-!
# A day and what is remembered of it

A `Day` is a day directory together with what has been read from it: the
drawings and the strip composed of them, and the notes. Each of the two kinds has
its own gate, and neither changes when the other is refreshed.
-/

namespace DrawingDiary

/-- How days are refreshed and how large their tiles are. -/
structure DaySettings where
  /-- least time between two looks at the drawings, in seconds -/
  imageCooldown : Nat := 60
  /-- least time between two looks at the notes, in seconds -/
  eventCooldown : Nat := 60
  tileWidth : UInt32 := 96
  tileHeight : UInt32 := 128
deriving DecidableEq, Repr

/-- A drawing as it is remembered: its file in encoded form, and when the file
that it was read from had last been changed. -/
structure HourImage where
  data : ByteArray
  modified : Timestamp

/-- What is remembered of the drawings of a day. -/
structure ImageState where
  slots : Slots HourImage
  mask : HourMask
  strip : Strip
  /-- the encoded strip; empty as long as no strip was encoded -/
  thumbnail : ByteArray
  gate : Cooldown

/-- What is remembered of the notes of a day. -/
structure NoteState where
  slots : Slots String
  mask : HourMask
  gate : Cooldown

/-- A day directory and what is remembered of it. -/
structure Day where
  date : String
  directory : Path
  settings : DaySettings
  images : ImageState
  notes : NoteState

namespace Day

def new (date : String) (directory : Path) (settings : DaySettings) : Day where
  date := date
  directory := directory
  settings := settings
  images :=
    { slots := Slots.empty
      mask := 0
      strip := Strip.blank settings.tileWidth settings.tileHeight
      thumbnail := ByteArray.empty
      gate := Cooldown.ofSeconds settings.imageCooldown }
  notes :=
    { slots := Slots.empty
      mask := 0
      gate := Cooldown.ofSeconds settings.eventCooldown }

instance : Inhabited Day := ⟨new "" ⟨""⟩ {}⟩

def month (day : Day) : String := Naming.monthOf day.date

/-- The hourly files of one kind in the day directory, as it is now. -/
def files (day : Day) (kind : Naming.HourlyKind) (disk : Disk) : List HourlyFile :=
  hourlyFiles kind day.date day.directory disk

/-- The hours that have a drawing in the directory, as it is now. -/
def imageMask (day : Day) (disk : Disk) : HourMask :=
  HourMask.ofList ((day.files .image disk).map (·.hour))

/-- How many hours have a drawing in the directory, as it is now. -/
def imageCount (day : Day) (disk : Disk) : UInt32 := (day.imageMask disk).count

/-- The file name of the drawing of each hour, as the directory is now. -/
def imageFileNames (day : Day) (disk : Disk) : Slots String :=
  (day.files .image disk).foldl (fun names file => names.put file.hour (some file.name)) Slots.empty

/-- An estimate of the memory held for a day, in bytes. -/
def size (day : Day) : Nat :=
  let images := (allHours.filterMap day.images.slots.at?).map (·.data.size)
  let strip := day.settings.tileWidth.toNat * day.settings.tileHeight.toNat * 4 * 2
  images.foldr (· + ·) 0 + strip + 2 * day.date.utf8ByteSize + 100

end Day

end DrawingDiary
