import DrawingDiary.Config.Basic
import DrawingDiary.Config.Schema

/-!
# The names of the settings

The names and types of all settings, in the order in which they are documented,
and the value that settings are written as.
-/

namespace DrawingDiary.Config

open Toml

def locationSchema : Schema LocationSettings where
  title := "struct LocationConfig"
  stock := {}
  settings := [
    .of "roots" readTexts fun roots s => { s with roots },
    .of "archive_subdir" readText fun archive s => { s with archive }]

def cooldownSchema : Schema CooldownSettings where
  title := "struct CacheConfig"
  stock := {}
  settings := [
    .of "image_cooldown_secs" readSeconds fun images s => { s with images },
    .of "event_cooldown_secs" readSeconds fun events s => { s with events },
    .of "diary_cooldown_secs" readSeconds fun diary s => { s with diary }]

def thumbnailSchema : Schema ThumbnailSettings where
  title := "struct ThumbnailConfig"
  stock := {}
  settings := [
    .of "tile_width" readPixels fun tileWidth s => { s with tileWidth },
    .of "tile_height" readPixels fun tileHeight s => { s with tileHeight }]

def pageSchema : Schema PageSettings where
  title := "struct PageConfig"
  stock := {}
  settings := [
    .of "template_dirs" readTexts fun templateDirectories s => { s with templateDirectories },
    .of "template_file" readText fun templateFile s => { s with templateFile },
    .of "api_endpoint" readText fun endpoint s => { s with endpoint }]

def processingSchema : Schema ProcessingSettings where
  title := "struct ProcessingConfig"
  stock := {}
  settings := [
    .of "max_processes" readCount fun count s => { s with maxProcesses := some count }]

def schema : Schema Config where
  title := "struct DiaryConfig"
  stock := {}
  settings := [
    .of "diary" locationSchema.read fun location c => { c with location },
    .of "cache" cooldownSchema.read fun cooldown c => { c with cooldown },
    .of "thumbnail" thumbnailSchema.read fun thumbnail c => { c with thumbnail },
    .of "page" pageSchema.read fun page c => { c with page },
    .of "processing" processingSchema.read fun processing c => { c with processing }]

def ofValue : Value → Except Refusal Config := schema.read

def numberValue (n : Nat) : Value := .integer n

def textsValue (texts : List String) : Value := .array (texts.map .string)

/-- The value that settings are written as. What is not set is left out. -/
def toValue (c : Config) : Value :=
  .table <| Entries.ofList [
    ("diary", .table <| Entries.ofList [
      ("roots", textsValue c.location.roots),
      ("archive_subdir", .string c.location.archive)]),
    ("cache", .table <| Entries.ofList [
      ("image_cooldown_secs", numberValue c.cooldown.images),
      ("event_cooldown_secs", numberValue c.cooldown.events),
      ("diary_cooldown_secs", numberValue c.cooldown.diary)]),
    ("thumbnail", .table <| Entries.ofList [
      ("tile_width", numberValue c.thumbnail.tileWidth.toNat),
      ("tile_height", numberValue c.thumbnail.tileHeight.toNat)]),
    ("page", .table <| Entries.ofList [
      ("template_dirs", textsValue c.page.templateDirectories),
      ("template_file", .string c.page.templateFile),
      ("api_endpoint", .string c.page.endpoint)]),
    ("processing", .table <| match c.processing.maxProcesses with
      | some count => [("max_processes", numberValue count)]
      | none => [])]

def stockValue : Value := toValue {}

end DrawingDiary.Config
