import DrawingDiary.CommandLine.Given
import DrawingDiary.Disk.Path

/-!
# Requests

A request is a command to be run with a settings file. Options that every
command shares may stand before and after its name; the later one counts.
-/

namespace DrawingDiary.CommandLine

/-- What can be done with a diary. -/
inductive Command where
  /-- makes the static site of a diary directory -/
  | generate (diary template target : Path)
  /-- shows the page of a month -/
  | render (month : Option String) (staticLinks : Bool)
  /-- lists the days -/
  | list (json : Bool)
  /-- makes the strips that are missing -/
  | thumbnails
  /-- shows the stock settings file -/
  | showSettings
deriving DecidableEq, Repr

/-- A command and the settings file to run it with. -/
structure Request where
  settings : Path
  command : Command
deriving DecidableEq, Repr

/-- The settings file that is used when none is named. -/
def defaultSettings : String := "diary.toml"

def settingsOption : String := "--config"

/-- The form of what follows a name, with the options that all commands share. -/
def sharedForm : Form where
  pathOptions := [settingsOption]
  textOptions := ["--log-level"]

/-- The form of what follows the name of a command. -/
def form? : String → Option Form
  | "generate" => some { sharedForm with words := 3 }
  | "render" => some { sharedForm with flags := ["--static"]
                                       textOptions := "--month" :: sharedForm.textOptions }
  | "list" => some { sharedForm with flags := ["--json"] }
  | "thumbnails" => some sharedForm
  | "gen-config" => some sharedForm
  | _ => none

/-- The command of a name with what was given after it. -/
def commandOf (name : String) (given : Given) : Except Interruption Command :=
  match name, given.words with
  | "generate", [diary, template, target] => .ok (.generate ⟨diary⟩ ⟨template⟩ ⟨target⟩)
  | "generate", _ => refuse .missingWords
  | "render", _ => .ok (.render (given.option? "--month") (given.has "--static"))
  | "list", _ => .ok (.list (given.has "--json"))
  | "thumbnails", _ => .ok .thumbnails
  | "gen-config", _ => .ok .showSettings
  | name, _ => refuse (.unknownCommand name)

/-- The settings file named before or after the name of the command. -/
def settingsPath (before after : Given) : Path :=
  ⟨((after.option? settingsOption).or (before.option? settingsOption)).getD defaultSettings⟩

/-- What comes of asking for help by name, about the program or one command. -/
def helpOn : List String → Interruption
  | [] => .helpAsked
  | [name] =>
    if name = "help" || (form? name).isSome then .helpAsked
    else .refused (.unknownCommand name)
  | _ :: word :: _ => .refused (.unknownCommand word)

def Request.ofArguments (args : List String) : Except Interruption Request := do
  let (before, rest) ← readPart { sharedForm with hasVersion := true } true args {}
  match rest with
  | [] => refuse .noCommand
  | "help" :: rest => .error (helpOn rest)
  | name :: rest =>
    match form? name with
    | none => refuse (.unknownCommand name)
    | some form =>
      let (after, _) ← readPart form false rest {}
      return ⟨settingsPath before after, ← commandOf name after⟩

end DrawingDiary.CommandLine
