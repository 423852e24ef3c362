import DrawingDiary.Config.Sections
import DrawingDiary.Disk.Reading
import DrawingDiary.Toml.Document
import DrawingDiary.Toml.Merge

/-!
# Loading the settings

The settings file is laid over the stock settings, so it needs to say only what
is different. Settings that are of no use are refused with the first flaw found.
-/

namespace DrawingDiary.Config

open Toml

/-- Whether a side of a tile has pixels, and not too many. -/
def isTileSide (side : UInt32) : Bool := side ≠ 0 && side ≤ maxTileSide

/-- The first thing that makes the settings useless. -/
def flaw? (c : Config) : Option Flaw :=
  if c.location.roots.isEmpty then some .noRoots
  else if !isTileSide c.thumbnail.tileWidth then some (.tileWidth c.thumbnail.tileWidth)
  else if !isTileSide c.thumbnail.tileHeight then some (.tileHeight c.thumbnail.tileHeight)
  else if c.page.templateFile.isEmpty then some .noTemplateFile
  else if c.page.templateDirectories.isEmpty then some .noTemplateDirectories
  else none

def validated (c : Config) : Except ConfigError Config :=
  match c.flaw? with
  | some flaw => .error (.invalid flaw)
  | none => .ok c

/-- The settings of a value with another one laid over it. -/
def resolve (base : Value) (overlay : Option Value) : Except ConfigError Config :=
  match ofValue (match overlay with
    | some overlay => base.merge overlay
    | none => base) with
  | .error refusal => .error (.refused refusal)
  | .ok c => validated c

/-- The value of a settings file; `none` if there is no such file. -/
def readValue (disk : Disk) (path : Path) : Except ConfigError (Option Value) :=
  if !disk.pathExists path then .ok none
  else
    match disk.readText path with
    | .error cause => .error (.disk cause)
    | .ok text =>
      match parse text with
      | some value => .ok (some value)
      | none => .error .malformed

/-- The settings of a file laid over the stock settings. -/
def load (disk : Disk) (path : Path) : Except ConfigError Config :=
  match readValue disk path with
  | .error e => .error e
  | .ok overlay => resolve stockValue overlay

end DrawingDiary.Config
