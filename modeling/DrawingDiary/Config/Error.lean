import DrawingDiary.Decimal.Shortest
import DrawingDiary.Disk.Error
import DrawingDiary.Picture.Strip
import DrawingDiary.Text.Quoted
import DrawingDiary.Toml.Value

/-!
# What can be wrong with the settings

A settings file may be unreadable or no settings file at all, a value in it may
be refused because of its key or its type, or the settings as a whole may be of
no use.
-/

namespace DrawingDiary

namespace Config

/-- Why a value was refused. -/
inductive Complaint where
  /-- no setting has this name; the known names are given -/
  | unknownName (name : String) (known : List String)
  /-- the value, described, is of another type than the setting -/
  | wrongType (found expected : String)
  /-- the number is out of the range of the setting -/
  | outOfRange (number : Int) (expected : String)
  /-- a section given as an array has so many values, more than settings -/
  | tooManyValues (count : Nat)
deriving DecidableEq, Repr

/-- A refused value: the keys that lead to it and why it was refused. -/
structure Refusal where
  path : List String
  complaint : Complaint
deriving DecidableEq, Repr

/-- Why settings that were read are of no use. -/
inductive Flaw where
  | noRoots
  | tileWidth (found : UInt32)
  | tileHeight (found : UInt32)
  | noTemplateFile
  | noTemplateDirectories
deriving DecidableEq, Repr

end Config

open Config in
/-- Why there are no settings. -/
inductive ConfigError where
  /-- the file could not be read -/
  | disk (cause : DiskError)
  /-- the text is no settings file -/
  | malformed
  | refused (refusal : Refusal)
  | invalid (flaw : Flaw)
deriving DecidableEq, Repr

def Toml.Value.description : Toml.Value → String
  | .string text => "string " ++ Text.quoted text
  | .integer n => "integer `" ++ toString n ++ "`"
  | .float x => "floating point `" ++ Decimal.text x ++ "`"
  | .boolean b => "boolean `" ++ (if b then "true" else "false") ++ "`"
  | .dateTime t => "string " ++ Text.quoted t.text
  | .array _ => "sequence"
  | .table _ => "map"

namespace Config

def ticked (name : String) : String := "`" ++ name ++ "`"

def expectedNames : List String → String
  | [] => "there are no fields"
  | [name] => "expected " ++ ticked name
  | [first, second] => "expected " ++ ticked first ++ " or " ++ ticked second
  | names => "expected one of " ++ ", ".intercalate (names.map ticked)

def Complaint.text : Complaint → String
  | .unknownName name known => "unknown field " ++ ticked name ++ ", " ++ expectedNames known
  | .wrongType found expected => "invalid type: " ++ found ++ ", expected " ++ expected
  | .outOfRange n expected =>
    "invalid value: integer " ++ ticked (toString n) ++ ", expected " ++ expected
  | .tooManyValues count =>
    "invalid length " ++ count.repr ++ ", expected fewer elements in array"

/-- The complaint, and on a line of its own the keys that lead to the value. -/
def Refusal.text (r : Refusal) : String :=
  r.complaint.text ++ "\n" ++
    (if r.path.isEmpty then "" else "in " ++ ticked (".".intercalate r.path) ++ "\n")

def Refusal.under (key : String) (r : Refusal) : Refusal :=
  { r with path := key :: r.path }

/-- What is said about a tile side that is out of range. -/
def sideText (name : String) (found : UInt32) : String :=
  name ++ " must be 1-" ++ maxTileSide.toNat.repr ++ ", got " ++ found.toNat.repr

/-- What is said about settings that are of no use. -/
def Flaw.text : Flaw → String
  | .noRoots => "diary.roots must not be empty"
  | .tileWidth found => sideText "thumbnail.tile_width" found
  | .tileHeight found => sideText "thumbnail.tile_height" found
  | .noTemplateFile => "page.template_file must not be empty"
  | .noTemplateDirectories => "page.template_dirs must not be empty"

end Config

/-- The text shown when there are no settings. Nothing exact is said about a text
that is no settings file. -/
def ConfigError.message : ConfigError → String
  | .disk cause => "IO error: " ++ cause.message
  | .malformed => "TOML parse error"
  | .refused refusal => "TOML parse error: " ++ refusal.text
  | .invalid flaw => "Config validation error: " ++ flaw.text

end DrawingDiary
