import DrawingDiary.Proofs.Config.Fields
import DrawingDiary.Proofs.Toml.Parsed

/-!
# Settings laid over the stock

Stock values come from two places: the stock record of each schema, and the value that stock
settings are written as. The main statement, `resolve_stockValue`, is that it does not matter
which of them fills the gaps: settings laid over the stock value give what they give alone, the
same configuration or the same error. Section by section this is `HasFields.read_merge`, and
since a section is a field of the whole, it is the same statement once more for the five
sections together. Every settings file gives a value of which this can be said
(`proper_of_readValue`).
-/

namespace DrawingDiary.Config

open Toml

/-! ### The fields of each section -/

def locationFields : List (Field LocationSettings) := [
  { name := "roots", Content := List String, read := readTexts
    get := fun s => s.roots, place := fun roots s => { s with roots } },
  { name := "archive_subdir", Content := String, read := readText
    get := fun s => s.archive, place := fun archive s => { s with archive } }]

def cooldownFields : List (Field CooldownSettings) := [
  { name := "image_cooldown_secs", Content := Nat, read := readSeconds
    get := fun s => s.images, place := fun images s => { s with images } },
  { name := "event_cooldown_secs", Content := Nat, read := readSeconds
    get := fun s => s.events, place := fun events s => { s with events } },
  { name := "diary_cooldown_secs", Content := Nat, read := readSeconds
    get := fun s => s.diary, place := fun diary s => { s with diary } }]

def thumbnailFields : List (Field ThumbnailSettings) := [
  { name := "tile_width", Content := UInt32, read := readPixels
    get := fun s => s.tileWidth, place := fun tileWidth s => { s with tileWidth } },
  { name := "tile_height", Content := UInt32, read := readPixels
    get := fun s => s.tileHeight, place := fun tileHeight s => { s with tileHeight } }]

def pageFields : List (Field PageSettings) := [
  { name := "template_dirs", Content := List String, read := readTexts
    get := fun s => s.templateDirectories
    place := fun templateDirectories s => { s with templateDirectories } },
  { name := "template_file", Content := String, read := readText
    get := fun s => s.templateFile, place := fun templateFile s => { s with templateFile } },
  { name := "api_endpoint", Content := String, read := readText
    get := fun s => s.endpoint, place := fun endpoint s => { s with endpoint } }]

def processingFields : List (Field ProcessingSettings) := [
  { name := "max_processes", Content := Option Nat, read := fun value => (readCount value).map some
    get := fun s => s.maxProcesses, place := fun maxProcesses s => { s with maxProcesses } }]

def sectionFields : List (Field Config) := [
  { name := "diary", Content := LocationSettings, read := locationSchema.read
    get := fun c => c.location, place := fun location c => { c with location } },
  { name := "cache", Content := CooldownSettings, read := cooldownSchema.read
    get := fun c => c.cooldown, place := fun cooldown c => { c with cooldown } },
  { name := "thumbnail", Content := ThumbnailSettings, read := thumbnailSchema.read
    get := fun c => c.thumbnail, place := fun thumbnail c => { c with thumbnail } },
  { name := "page", Content := PageSettings, read := pageSchema.read
    get := fun c => c.page, place := fun page c => { c with page } },
  { name := "processing", Content := ProcessingSettings, read := processingSchema.read
    get := fun c => c.processing, place := fun processing c => { c with processing } }]

theorem hasFields_location : locationSchema.HasFields locationFields where
  settings_eq := rfl
  nodup := by decide
  spares := by simp [locationFields, Field.Spares]
  ext {r s} h := by
    cases r
    cases s
    simpa [locationFields] using h

theorem hasFields_cooldown : cooldownSchema.HasFields cooldownFields where
  settings_eq := rfl
  nodup := by decide
  spares := by simp [cooldownFields, Field.Spares]
  ext {r s} h := by
    cases r
    cases s
    simpa [cooldownFields] using h

theorem hasFields_thumbnail : thumbnailSchema.HasFields thumbnailFields where
  settings_eq := rfl
  nodup := by decide
  spares := by simp [thumbnailFields, Field.Spares]
  ext {r s} h := by
    cases r
    cases s
    simpa [thumbnailFields] using h

theorem hasFields_page : pageSchema.HasFields pageFields where
  settings_eq := rfl
  nodup := by decide
  spares := by simp [pageFields, Field.Spares]
  ext {r s} h := by
    cases r
    cases s
    simpa [pageFields] using h

theorem hasFields_processing : processingSchema.HasFields processingFields where
  settings_eq := by
    simp only [processingSchema, processingFields, Field.setting, List.map, Setting.of]
    congr
    funext value record
    cases readCount value <;> rfl
  nodup := by decide
  spares := by simp [processingFields]
  ext {r s} h := by
    cases r
    cases s
    simpa [processingFields] using h

theorem hasFields_sections : schema.HasFields sectionFields where
  settings_eq := rfl
  nodup := by decide
  spares := by simp [sectionFields, Field.Spares]
  ext {r s} h := by
    cases r
    cases s
    simpa [sectionFields] using h

/-! ### The stock value -/

/-- Anything that is laid over a value which is no table takes its place. -/
theorem readAsStock_of_not_table {β : Type} {read : Value → Except Refusal β} {stock : β}
    {value : Value} (h : ∀ entries, value ≠ .table entries) (hread : read value = .ok stock) :
    ReadAsStock read stock value :=
  ⟨hread, fun {upper} _ => by rw [Value.merge_of_not_table h]⟩

theorem readEach_readText (texts : List String) :
    readEach readText (texts.map .string) = .ok texts := by
  induction texts with
  | nil => rfl
  | cons text rest ih =>
      rw [List.map_cons, readEach, ih]
      rfl

theorem readAsStock_texts (texts : List String) :
    ReadAsStock readTexts texts (textsValue texts) :=
  readAsStock_of_not_table (fun _ => Value.noConfusion) (readEach_readText texts)

theorem readAsStock_text (text : String) : ReadAsStock readText text (.string text) :=
  readAsStock_of_not_table (fun _ => Value.noConfusion) rfl

theorem readNumber_numberValue {bound n : Nat} (expected : String) (h : n < bound) :
    readNumber bound expected (numberValue n) = .ok n := by
  rw [numberValue, readNumber, if_pos ⟨Int.natCast_nonneg n, Int.ofNat_lt.mpr h⟩]
  rfl

theorem readAsStock_seconds {n : Nat} (h : n < Nat.pow 2 64) :
    ReadAsStock readSeconds n (numberValue n) :=
  readAsStock_of_not_table (fun _ => Value.noConfusion) (readNumber_numberValue "u64" h)

theorem readAsStock_pixels (side : UInt32) :
    ReadAsStock readPixels side (numberValue side.toNat) := by
  refine readAsStock_of_not_table (fun _ => Value.noConfusion) ?_
  rw [readPixels, readNumber_numberValue "u32" side.toNat_lt]
  exact congrArg Except.ok UInt32.ofNat_toNat

theorem isStock_location : locationSchema.IsStock locationFields (Entries.ofList [
    ("roots", textsValue ["rabbits"]), ("archive_subdir", .string "old")]) := by
  refine Schema.isStock_ofList ?_
  simpa [locationFields] using ⟨readAsStock_texts _, readAsStock_text _⟩

theorem isStock_cooldown : cooldownSchema.IsStock cooldownFields (Entries.ofList [
    ("image_cooldown_secs", numberValue 60), ("event_cooldown_secs", numberValue 60),
    ("diary_cooldown_secs", numberValue 5)]) := by
  refine Schema.isStock_ofList ?_
  simpa [cooldownFields] using ⟨readAsStock_seconds (by decide), readAsStock_seconds (by decide),
    readAsStock_seconds (by decide)⟩

theorem isStock_thumbnail : thumbnailSchema.IsStock thumbnailFields (Entries.ofList [
    ("tile_width", numberValue (96 : UInt32).toNat),
    ("tile_height", numberValue (128 : UInt32).toNat)]) := by
  refine Schema.isStock_ofList ?_
  simpa [thumbnailFields, -UInt32.reduceToNat] using ⟨readAsStock_pixels _, readAsStock_pixels _⟩

theorem isStock_page : pageSchema.IsStock pageFields (Entries.ofList [
    ("template_dirs", textsValue ["."]), ("template_file", .string "index.html"),
    ("api_endpoint", .string "/api/rabbits")]) := by
  refine Schema.isStock_ofList ?_
  simpa [pageFields] using ⟨readAsStock_texts _, readAsStock_text _, readAsStock_text _⟩

theorem isStock_processing : processingSchema.IsStock processingFields [] := by
  change processingSchema.IsStock processingFields (Entries.ofList [])
  exact Schema.isStock_ofList (List.forall_mem_nil _)

def stockEntries : Entries := match stockValue with
  | .table entries => entries
  | _ => []

theorem isStock_sections : schema.IsStock sectionFields stockEntries := by
  refine Schema.isStock_ofList ?_
  simpa [sectionFields] using ⟨hasFields_location.readAsStock_table isStock_location,
    hasFields_cooldown.readAsStock_table isStock_cooldown,
    hasFields_thumbnail.readAsStock_table isStock_thumbnail,
    hasFields_page.readAsStock_table isStock_page,
    hasFields_processing.readAsStock_table isStock_processing⟩

/-- What is laid over the stock value is read as if it stood alone. -/
theorem ofValue_merge_stockValue {overlay : Value} (proper : overlay.Proper) :
    ofValue (stockValue.merge overlay) = ofValue overlay :=
  hasFields_sections.read_merge isStock_sections proper

/-- What is read from a settings file is proper. -/
theorem proper_of_readValue {disk : Disk} {path : Path} {overlay : Value}
    (h : readValue disk path = .ok (some overlay)) : overlay.Proper := by
  unfold readValue at h
  split at h
  · cases h
  · split at h
    · cases h
    · split at h
      next value hparse =>
        cases h
        exact parse_proper hparse
      next => cases h

/-- What a settings file gives is loaded as if it stood alone. -/
theorem load_of_readValue {disk : Disk} {path : Path} {overlay : Value}
    (h : readValue disk path = .ok (some overlay)) :
    load disk path = match ofValue overlay with
      | .error refusal => .error (.refused refusal)
      | .ok c => validated c := by
  rw [← ofValue_merge_stockValue (proper_of_readValue h), load, h]
  rfl

/-- Settings laid over the stock value are read like settings alone, whose gaps are filled with
the stock of each record: they give the same configuration, or the same refusal at the same
key, or are of no use for the same reason. -/
theorem resolve_stockValue {overlay : Value} (proper : overlay.Proper) :
    resolve stockValue (some overlay) =
      match ofValue overlay with
      | .error refusal => .error (.refused refusal)
      | .ok c => validated c := by
  rw [← ofValue_merge_stockValue proper]
  rfl

theorem resolve_stockValue_sectionAsArray :
    let overlay := Value.table [("cache", .array [.integer 1, .integer (-1)]),
      ("unheard", .boolean true)]
    overlay.Proper ∧ resolve stockValue (some overlay) =
      .error (.refused ⟨["cache"], .outOfRange (-1) "u64"⟩) := by
  intro overlay
  have numbers : Value.Proper (.array [.integer 1, .integer (-1)]) := by
    refine .array fun item hitem => ?_
    simp only [List.mem_cons, List.not_mem_nil, or_false] at hitem
    rcases hitem with rfl | rfl
    · exact .integer (by decide) (by decide)
    · exact .integer (by decide) (by decide)
  have proper : overlay.Proper := by
    refine .table (List.pairwise_pair.mpr (by decide)) ?_
    simpa [overlay] using ⟨numbers, Value.Proper.boolean true⟩
  exact ⟨proper, (resolve_stockValue proper).trans rfl⟩

end DrawingDiary.Config
