import DrawingDiary.Config.Error

/-!
# Reading a record by its settings

A schema lists the settings of a record, in order and with their names. A record
is written as a table, whose keys are visited in their order, or as an array of
values in the order of the settings. What is not given keeps its stock value,
and the first refusal ends the reading.
-/

namespace DrawingDiary.Config

open Toml

/-- A setting of a record: its name, and how a value is put in its place. -/
structure Setting (α : Type) where
  name : String
  put : Value → α → Except Refusal α

/-- The settings of a record. -/
structure Schema (α : Type) where
  /-- what is said to be expected where the record should stand -/
  title : String
  stock : α
  settings : List (Setting α)

/-- A refusal at the place where the value stands. -/
def refuse {α : Type} (complaint : Complaint) : Except Refusal α := .error ⟨[], complaint⟩

def mismatch {α : Type} (value : Value) (expected : String) : Except Refusal α :=
  refuse (.wrongType value.description expected)

namespace Schema

variable {α : Type} (schema : Schema α)

def names : List String := schema.settings.map (·.name)

def setting? (name : String) : Option (Setting α) :=
  schema.settings.find? fun setting => setting.name = name

/-- Puts the entries of a table in their places, one after the other. -/
def putEntries : Entries → α → Except Refusal α
  | [], record => .ok record
  | (key, value) :: rest, record =>
    match schema.setting? key with
    | none => refuse (.unknownName key schema.names)
    | some setting =>
      match setting.put value record with
      | .error refusal => .error (refusal.under key)
      | .ok record => putEntries rest record

/-- Puts values in the places of settings, in order, as long as there are both. -/
def putInOrder : List (Setting α) → List Value → α → Except Refusal α
  | setting :: settings, value :: values, record =>
    match setting.put value record with
    | .error refusal => .error refusal
    | .ok record => putInOrder settings values record
  | _, _, record => .ok record

def read (value : Value) : Except Refusal α :=
  match value with
  | .table entries => schema.putEntries entries schema.stock
  | .array items =>
    match putInOrder schema.settings items schema.stock with
    | .error refusal => .error refusal
    | .ok record =>
      if schema.settings.length < items.length then refuse (.tooManyValues items.length)
      else .ok record
  | value => mismatch value schema.title

end Schema

def readText : Value → Except Refusal String
  | .string text => .ok text
  | .dateTime t => .ok t.text
  | value => mismatch value "a string"

/-- Reads each of several values; the first refusal ends the reading. -/
def readEach {α : Type} (read : Value → Except Refusal α) : List Value → Except Refusal (List α)
  | [] => .ok []
  | value :: rest =>
    match read value with
    | .error refusal => .error refusal
    | .ok a => (readEach read rest).map (a :: ·)

def readTexts : Value → Except Refusal (List String)
  | .array items => readEach readText items
  | value => mismatch value "a sequence"

/-- The number below a bound that a value stands for. -/
def readNumber (bound : Nat) (expected : String) : Value → Except Refusal Nat
  | .integer n =>
    if 0 ≤ n ∧ n < bound then .ok n.toNat else refuse (.outOfRange n expected)
  | value => mismatch value expected

/-- The number of pixels that a value stands for. -/
def readPixels (value : Value) : Except Refusal UInt32 :=
  (readNumber (Nat.pow 2 32) "u32" value).map UInt32.ofNat

/-- The number of seconds that a value stands for. -/
def readSeconds : Value → Except Refusal Nat := readNumber (Nat.pow 2 64) "u64"

def readCount : Value → Except Refusal Nat := readNumber (Nat.pow 2 64) "usize"

/-- A setting that is read on its own and then put in its place. -/
def Setting.of {α β : Type} (name : String) (read : Value → Except Refusal β)
    (place : β → α → α) : Setting α where
  name := name
  put value record := (read value).map fun b => place b record

end DrawingDiary.Config
