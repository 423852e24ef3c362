import DrawingDiary.Day.Basic
import DrawingDiary.Disk.Path

/-!
# Settings of a diary

The settings come in five sections. Each setting has a stock value, which holds
where nothing else is said.
-/

namespace DrawingDiary

namespace Config

/-- Where the days are. -/
structure LocationSettings where
  /-- directories that hold a directory for each day -/
  roots : List String := ["rabbits"]
  /-- the archive in each root; there is none if the name is empty -/
  archive : String := "old"
deriving DecidableEq, Repr

/-- Least times between two looks at the disk, in seconds. -/
structure CooldownSettings where
  images : Nat := 60
  events : Nat := 60
  diary : Nat := 5
deriving DecidableEq, Repr

/-- The size of one hour of a strip. -/
structure ThumbnailSettings where
  tileWidth : UInt32 := 96
  tileHeight : UInt32 := 128
deriving DecidableEq, Repr

/-- The template of the pages and the links on them. -/
structure PageSettings where
  /-- searched in order for the template -/
  templateDirectories : List String := ["."]
  templateFile : String := "index.html"
  /-- what links to drawings start with on the live page -/
  endpoint : String := "/api/rabbits"
deriving DecidableEq, Repr

/-- How much work is done at once. -/
structure ProcessingSettings where
  /-- most workers; one for each processor if nothing is said -/
  maxProcesses : Option Nat := none
deriving DecidableEq, Repr

end Config

open Config in
/-- The settings of a diary. -/
structure Config where
  location : LocationSettings := {}
  cooldown : CooldownSettings := {}
  thumbnail : ThumbnailSettings := {}
  page : PageSettings := {}
  processing : ProcessingSettings := {}
deriving DecidableEq, Repr

namespace Config

/-- The directories to scan: each root, followed by its archive. -/
def roots (c : Config) : List Path :=
  c.location.roots.flatMap fun root =>
    if c.location.archive.isEmpty then [⟨root⟩]
    else [⟨root⟩, (⟨root⟩ : Path).join c.location.archive]

def templateDirectories (c : Config) : List Path :=
  c.page.templateDirectories.map fun directory => ⟨directory⟩

def daySettings (c : Config) : DaySettings where
  imageCooldown := c.cooldown.images
  eventCooldown := c.cooldown.events
  tileWidth := c.thumbnail.tileWidth
  tileHeight := c.thumbnail.tileHeight

/-- How many workers there are on a machine with so many processors. -/
def ProcessingSettings.workers (p : ProcessingSettings) (processors : Nat) : Nat :=
  match p.maxProcesses with
  | some most => min most processors
  | none => processors

end Config

end DrawingDiary
