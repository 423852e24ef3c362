import DrawingDiary.Text.Split

/-!
# What is given on a command line

A command line consists of words and of options that start with a hyphen. An
option takes a value or stands alone as a flag, and no option is given twice.
The value of an option follows it as a word of its own or after an equals sign.
After `--` everything is a word. Asking for help or for the version ends the
reading at once.
-/

namespace DrawingDiary.CommandLine

/-- Why a command line is refused. -/
inductive UsageError where
  | unknownOption (option : String)
  | repeatedOption (option : String)
  | missingValue (option : String)
  | unexpectedValue (option value : String)
  | unexpectedWord (word : String)
  | emptyWord
  | missingWords
  | unknownCommand (word : String)
  | noCommand
deriving DecidableEq, Repr

def UsageError.message : UsageError → String
  | .unknownOption option => "unexpected argument '" ++ option ++ "' found"
  | .repeatedOption option => "the argument '" ++ option ++ "' cannot be used multiple times"
  | .missingValue option => "a value is required for '" ++ option ++ "' but none was supplied"
  | .unexpectedValue option value =>
    "unexpected value '" ++ value ++ "' for '" ++ option ++ "' found; no more were expected"
  | .unexpectedWord word => "unexpected argument '" ++ word ++ "' found"
  | .emptyWord => "a path must not be empty"
  | .missingWords => "required arguments were not provided"
  | .unknownCommand word => "unrecognized subcommand '" ++ word ++ "'"
  | .noCommand => "a subcommand is required but one was not provided"

/-- Why the reading of a command line ends before its end. -/
inductive Interruption where
  | refused (cause : UsageError)
  | helpAsked
  | versionAsked
deriving DecidableEq, Repr

/-- What a part of the command line may consist of. -/
structure Form where
  /-- options without a value -/
  flags : List String := []
  /-- options with a path for a value, which is not empty -/
  pathOptions : List String := []
  /-- options with any text for a value -/
  textOptions : List String := []
  /-- the greatest number of words, each a path that is not empty -/
  words : Nat := 0
  /-- whether the version can be asked for -/
  hasVersion : Bool := false
deriving DecidableEq, Repr

/-- What a part of the command line consists of. -/
structure Given where
  flags : List String := []
  options : List (String × String) := []
  words : List String := []
deriving DecidableEq, Repr

/-- Ends the reading because the command line is wrong. -/
def refuse {α : Type} (cause : UsageError) : Except Interruption α := .error (.refused cause)

namespace Given

def option? (given : Given) (name : String) : Option String := given.options.lookup name

def has (given : Given) (name : String) : Bool := given.flags.contains name

def addFlag (given : Given) (name : String) : Except Interruption Given :=
  if given.has name then refuse (.repeatedOption name)
  else .ok { given with flags := given.flags ++ [name] }

def addOption (form : Form) (given : Given) (name value : String) : Except Interruption Given :=
  if (given.option? name).isSome then refuse (.repeatedOption name)
  else if value.isEmpty && form.pathOptions.contains name then refuse (.missingValue name)
  else .ok { given with options := given.options ++ [(name, value)] }

def addWord (form : Form) (given : Given) (word : String) : Except Interruption Given :=
  if form.words ≤ given.words.length then refuse (.unexpectedWord word)
  else if word.isEmpty then refuse .emptyWord
  else .ok { given with words := given.words ++ [word] }

/-- Adds words up to the end of the command line. -/
def addWords (form : Form) : List String → Given → Except Interruption Given
  | [], given => .ok given
  | word :: rest, given =>
    match given.addWord form word with
    | .error e => .error e
    | .ok given => addWords form rest given

end Given

/-- Whether an argument is an option; a lone hyphen is a word. -/
def isOption (arg : String) : Bool :=
  match arg.toList with
  | '-' :: _ :: _ => true
  | _ => false

/-- An option and the value after its equals sign, if it has one. -/
def optionParts (arg : String) : String × Option String :=
  match Text.splitFirst? '=' arg.toList with
  | some (name, value) => (String.ofList name, some (String.ofList value))
  | none => (arg, none)

def Form.interruption? (form : Form) (option : String) : Option Interruption :=
  match option.toList with
  | '-' :: 'h' :: _ => some .helpAsked
  | '-' :: 'V' :: _ => if form.hasVersion then some .versionAsked else none
  | _ =>
    if option = "--help" then some .helpAsked
    else if option = "--version" && form.hasVersion then some .versionAsked
    else none

/-- Reads a part of the command line. It goes to the end of the line, or up to
the first word where that word is the name of a command. -/
def readPart (form : Form) (stopAtWord : Bool) :
    List String → Given → Except Interruption (Given × List String)
  | [], given => .ok (given, [])
  | arg :: rest, given =>
    if arg = "--" then (given.addWords form rest).map fun given => (given, [])
    else if !isOption arg then
      if stopAtWord then .ok (given, arg :: rest)
      else
        match given.addWord form arg with
        | .error e => .error e
        | .ok given => readPart form stopAtWord rest given
    else
      match form.interruption? arg with
      | some interruption => .error interruption
      | none =>
        let (name, attached) := optionParts arg
        if form.flags.contains name then
          match attached, given.addFlag name with
          | some value, _ => refuse (.unexpectedValue name value)
          | none, .error e => .error e
          | none, .ok given => readPart form stopAtWord rest given
        else if form.pathOptions.contains name || form.textOptions.contains name then
          match attached, rest with
          | some value, rest =>
            match given.addOption form name value with
            | .error e => .error e
            | .ok given => readPart form stopAtWord rest given
          | none, [] => refuse (.missingValue name)
          | none, value :: rest =>
            if isOption value then refuse (.missingValue name)
            else
              match given.addOption form name value with
              | .error e => .error e
              | .ok given => readPart form stopAtWord rest given
        else refuse (.unknownOption name)

end DrawingDiary.CommandLine
