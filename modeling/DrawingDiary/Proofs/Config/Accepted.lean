import DrawingDiary.Proofs.Config.StockLayer

/-!
# Which settings are accepted

What a settings file may say is listed in `declared`: the sections, the settings of each and
their kinds. `Fills` says, setting by setting, which configuration belongs to a settings file:
what it gives, and the stock value where it gives nothing. The main statement is
`resolve_accepts`: a settings file is accepted exactly when all its keys are declared, all its
values are of their kinds and the configuration that belongs to it is of use, and then this
configuration is the answer. A file with other keys or values is refused.
-/

namespace DrawingDiary.Config

open Toml

/-! ### Values and what they stand for -/

inductive Kind where
  | text
  | texts
  | number
  | pixels

/-- The values that settings of a kind take. A moment counts as its text. -/
inductive Kind.Takes : Kind → Value → Prop where
  | text (text : String) : Takes .text (.string text)
  | moment (moment : DateTime) : Takes .text (.dateTime moment)
  | texts {items : List Value} : (∀ item ∈ items, Takes .text item) → Takes .texts (.array items)
  | number {n : Int} : 0 ≤ n → Takes .number (.integer n)
  | pixels {n : Int} : 0 ≤ n → n < 2 ^ 32 → Takes .pixels (.integer n)

inductive IsText : Value → String → Prop where
  | string (text : String) : IsText (.string text) text
  | moment (moment : DateTime) : IsText (.dateTime moment) moment.text

def IsTexts (value : Value) (texts : List String) : Prop :=
  ∃ items, value = .array items ∧ List.Forall₂ IsText items texts

def IsNumber (value : Value) (n : Nat) : Prop := value = .integer n

def IsPixels (value : Value) (side : UInt32) : Prop := value = .integer side.toNat

theorem readText_eq_ok_iff {value : Value} {text : String} :
    readText value = .ok text ↔ IsText value text := by
  constructor
  · intro h
    cases value with
    | string t =>
        obtain rfl : t = text := Except.ok.inj h
        exact .string t
    | dateTime moment =>
        obtain rfl : moment.text = text := Except.ok.inj h
        exact .moment moment
    | _ => cases h
  · rintro (_ | _) <;> rfl

theorem readEach_eq_ok_iff {α : Type} {read : Value → Except Refusal α} {stands : Value → α → Prop}
    (h : ∀ {value a}, read value = .ok a ↔ stands value a) {items : List Value} {as : List α} :
    readEach read items = .ok as ↔ List.Forall₂ stands items as := by
  induction items generalizing as with
  | nil => cases as <;> simp [readEach]
  | cons item rest ih =>
      rw [readEach]
      cases hread : read item with
      | error refusal =>
          refine iff_of_false (by rintro ⟨⟩) fun hall => ?_
          cases hall with
          | cons hitem _ =>
              rw [h.mpr hitem] at hread
              cases hread
      | ok a =>
          cases hrest : readEach read rest with
          | error refusal =>
              refine iff_of_false (by rintro ⟨⟩) fun hall => ?_
              cases hall with
              | cons _ hothers =>
                  rw [ih.mpr hothers] at hrest
                  cases hrest
          | ok others =>
              have hitem := h.mp hread
              have hothers := ih.mp hrest
              constructor
              · intro heq
                obtain rfl : a :: others = as := Except.ok.inj heq
                exact .cons hitem hothers
              · intro hall
                cases hall with
                | cons hb hbs =>
                    obtain rfl := Except.ok.inj (hread.symm.trans (h.mpr hb))
                    obtain rfl := Except.ok.inj (hrest.symm.trans (ih.mpr hbs))
                    rfl

theorem readTexts_eq_ok_iff {value : Value} {texts : List String} :
    readTexts value = .ok texts ↔ IsTexts value texts := by
  cases value with
  | array items =>
      refine (readEach_eq_ok_iff readText_eq_ok_iff).trans ⟨fun h => ⟨items, rfl, h⟩, ?_⟩
      rintro ⟨_, heq, h⟩
      obtain rfl := Value.array.inj heq
      exact h
  | _ => exact iff_of_false (by rintro ⟨⟩) (by rintro ⟨_, ⟨⟩, _⟩)

theorem readNumber_eq_ok_iff {bound : Nat} {expected : String} {value : Value} {n : Nat} :
    readNumber bound expected value = .ok n ↔ IsNumber value n ∧ n < bound := by
  cases value with
  | integer m =>
      rw [readNumber, IsNumber, Value.integer.injEq]
      by_cases h : 0 ≤ m ∧ m < bound
      · rw [if_pos h, Except.ok.injEq]
        omega
      · rw [if_neg h]
        exact iff_of_false (by rintro ⟨⟩) (by omega)
  | _ => exact iff_of_false (by rintro ⟨⟩) (by rintro ⟨⟨⟩, _⟩)

/-- Whole numbers of a settings file are always in the range of a count or of seconds. -/
theorem readNumber_eq_ok_iff_of_proper {expected : String} {value : Value} (proper : value.Proper)
    {n : Nat} : readNumber (Nat.pow 2 64) expected value = .ok n ↔ IsNumber value n := by
  refine readNumber_eq_ok_iff.trans (and_iff_left_of_imp fun h => ?_)
  cases h
  cases proper with
  | integer _ hupper =>
      have hpow : Nat.pow 2 64 = 18446744073709551616 := rfl
      omega

theorem readPixels_eq_ok_iff {value : Value} {side : UInt32} :
    readPixels value = .ok side ↔ IsPixels value side := by
  have hbound : Nat.pow 2 32 = 4294967296 := rfl
  rw [readPixels]
  cases hread : readNumber (Nat.pow 2 32) "u32" value with
  | error refusal =>
      refine iff_of_false (by rintro ⟨⟩) fun h => ?_
      rw [readNumber_eq_ok_iff.mpr ⟨h, side.toNat_lt⟩] at hread
      cases hread
  | ok n =>
      obtain ⟨hvalue, hn⟩ := readNumber_eq_ok_iff.mp hread
      rw [IsPixels, hvalue]
      constructor
      · intro h
        obtain rfl : UInt32.ofNat n = side := Except.ok.inj h
        rw [UInt32.toNat_ofNat_of_lt' (hn.trans_eq hbound)]
      · intro h
        have heq : n = side.toNat := Int.natCast_inj.mp (Value.integer.inj h)
        exact congrArg Except.ok (heq ▸ UInt32.ofNat_toNat)

/-! ### What a settings file gives -/

/-- The settings of each section, and their kinds. -/
def declared : List (String × List (String × Kind)) := [
  ("diary", [("roots", .texts), ("archive_subdir", .text)]),
  ("cache", [("image_cooldown_secs", .number), ("event_cooldown_secs", .number),
    ("diary_cooldown_secs", .number)]),
  ("thumbnail", [("tile_width", .pixels), ("tile_height", .pixels)]),
  ("page", [("template_dirs", .texts), ("template_file", .text), ("api_endpoint", .text)]),
  ("processing", [("max_processes", .number)])]

/-- The value of a key in a table. -/
def valueAt? (key : String) : Value → Option Value
  | .table entries => Entries.lookup key entries
  | _ => none

/-- The value that is given for a setting of a section. -/
def given? (overlay : Entries) (part setting : String) : Option Value :=
  (overlay.lookup part).bind (valueAt? setting)

def HasTables (overlay : Entries) : Prop :=
  ∀ part ∈ declared, ∀ value, overlay.lookup part.1 = some value →
    ∃ entries, value = .table entries

/-- The keys of a section are among the given ones. -/
def HasKeys (overlay : Entries) (part : String) (keys : List String) : Prop :=
  ∀ entries, overlay.lookup part = some (.table entries) → ∀ entry ∈ entries, entry.1 ∈ keys

/-- The keys are those of sections, and in each section those of its settings. -/
def HasDeclaredKeys (overlay : Entries) : Prop :=
  (∀ entry ∈ overlay, entry.1 ∈ declared.map (·.1)) ∧
    ∀ part ∈ declared, HasKeys overlay part.1 (part.2.map (·.1))

/-- Each setting is given a value of its kind, if any. -/
def HasDeclaredKinds (overlay : Entries) : Prop :=
  ∀ part ∈ declared, ∀ setting ∈ part.2, ∀ value,
    given? overlay part.1 setting.1 = some value → setting.2.Takes value

section Fills

variable (given : String → Option Value)

@[mk_iff]
structure FillsLocation (s : LocationSettings) : Prop where
  roots : IsGivenOr IsTexts ["rabbits"] (given "roots") s.roots
  archive : IsGivenOr IsText "old" (given "archive_subdir") s.archive

@[mk_iff]
structure FillsCooldown (s : CooldownSettings) : Prop where
  images : IsGivenOr IsNumber 60 (given "image_cooldown_secs") s.images
  events : IsGivenOr IsNumber 60 (given "event_cooldown_secs") s.events
  diary : IsGivenOr IsNumber 5 (given "diary_cooldown_secs") s.diary

@[mk_iff]
structure FillsThumbnail (s : ThumbnailSettings) : Prop where
  tileWidth : IsGivenOr IsPixels 96 (given "tile_width") s.tileWidth
  tileHeight : IsGivenOr IsPixels 128 (given "tile_height") s.tileHeight

@[mk_iff]
structure FillsPage (s : PageSettings) : Prop where
  templateDirectories : IsGivenOr IsTexts ["."] (given "template_dirs") s.templateDirectories
  templateFile : IsGivenOr IsText "index.html" (given "template_file") s.templateFile
  endpoint : IsGivenOr IsText "/api/rabbits" (given "api_endpoint") s.endpoint

@[mk_iff]
structure FillsProcessing (s : ProcessingSettings) : Prop where
  maxProcesses : IsGivenOr (fun value count => ∃ n, IsNumber value n ∧ count = some n) none
    (given "max_processes") s.maxProcesses

end Fills

/-- The configuration has in each place what the settings file gives, and the stock where it
gives nothing. -/
structure Fills (overlay : Entries) (c : Config) : Prop where
  location : FillsLocation (given? overlay "diary") c.location
  cooldown : FillsCooldown (given? overlay "cache") c.cooldown
  thumbnail : FillsThumbnail (given? overlay "thumbnail") c.thumbnail
  page : FillsPage (given? overlay "page") c.page
  processing : FillsProcessing (given? overlay "processing") c.processing

/-- What a configuration must have to be of use. -/
structure IsUseful (c : Config) : Prop where
  roots : c.location.roots ≠ []
  tileWidth : 1 ≤ c.thumbnail.tileWidth.toNat ∧ c.thumbnail.tileWidth.toNat ≤ 4096
  tileHeight : 1 ≤ c.thumbnail.tileHeight.toNat ∧ c.thumbnail.tileHeight.toNat ≤ 4096
  templateFile : c.page.templateFile ≠ ""
  templateDirectories : c.page.templateDirectories ≠ []

theorem isTileSide_iff {side : UInt32} :
    isTileSide side = true ↔ 1 ≤ side.toNat ∧ side.toNat ≤ 4096 := by
  have hzero : side ≠ 0 ↔ 1 ≤ side.toNat := by
    rw [Nat.one_le_iff_ne_zero, ne_eq, ne_eq, ← UInt32.toNat_inj]
    rfl
  rw [isTileSide, Bool.and_eq_true, decide_eq_true_eq, decide_eq_true_eq, hzero,
    UInt32.le_iff_toNat_le]
  rfl

theorem ite_some_eq_none_iff {α : Type} {p : Prop} [Decidable p] {a : α} {rest : Option α} :
    (if p then some a else rest) = none ↔ ¬ p ∧ rest = none := by
  by_cases h : p <;> simp [h]

theorem flaw?_eq_none_iff {c : Config} : c.flaw? = none ↔ IsUseful c := by
  simp only [flaw?, ite_some_eq_none_iff, List.isEmpty_iff, String.isEmpty_iff,
    Bool.not_eq_true', Bool.not_eq_false, isTileSide_iff, and_true]
  constructor
  · rintro ⟨hroots, hwidth, hheight, hfile, hdirectories⟩
    exact ⟨hroots, hwidth, hheight, hfile, hdirectories⟩
  · intro useful
    exact ⟨useful.roots, useful.tileWidth, useful.tileHeight, useful.templateFile,
      useful.templateDirectories⟩

/-! ### Sections and settings -/

/-- There is a table of proper values in the section, or nothing. -/
def HasTable (overlay : Entries) (part : String) : Prop :=
  ∀ value, overlay.lookup part = some value →
    ∃ entries, value = .table entries ∧ (Value.table entries).Proper

section Sections

variable {overlay : Entries} {part : String}

/-- The value that is given for a setting is one that a settings file can hold. -/
theorem HasTable.proper (table : HasTable overlay part) {setting : String} {value : Value}
    (h : given? overlay part setting = some value) : value.Proper := by
  obtain ⟨body, hbody, hvalue⟩ := Option.bind_eq_some_iff.mp h
  obtain ⟨entries, rfl, proper⟩ := table body hbody
  cases proper with
  | table _ hentries => exact hentries _ (Entries.mem_of_lookup hvalue)

/-- A section is read as the record that has its settings, and the stock where there are none;
if there is no such section, the record is the stock. -/
theorem isGivenOr_read_iff {α : Type} {schema : Schema α} {fields : List (Field α)}
    (h : schema.HasFields fields) (table : HasTable overlay part) {record : α} :
    IsGivenOr (fun value record => schema.read value = .ok record) schema.stock
        (overlay.lookup part) record ↔
      HasKeys overlay part (fields.map (·.name)) ∧
        ∀ f ∈ fields, f.Shows schema.stock (given? overlay part f.name) record := by
  unfold HasKeys given?
  cases hfound : overlay.lookup part with
  | none =>
      refine ⟨?_, fun hshows => h.ext fun f hf => hshows.2 f hf⟩
      rintro rfl
      exact ⟨nofun, fun _ _ => rfl⟩
  | some value =>
      obtain ⟨entries, rfl, proper⟩ := table value hfound
      cases proper with
      | table inOrder _ =>
          simp only [Option.some.injEq, Value.table.injEq, forall_eq']
          exact h.read_eq_ok_iff inOrder

theorem readCount_eq_ok_iff {value : Value} (proper : value.Proper) {count : Option Nat} :
    (readCount value).map some = .ok count ↔ ∃ n, IsNumber value n ∧ count = some n := by
  have hnumber := @readNumber_eq_ok_iff_of_proper "usize" value proper
  rw [readCount]
  cases hread : readNumber (Nat.pow 2 64) "usize" value with
  | error refusal =>
      refine iff_of_false (by rintro ⟨⟩) ?_
      rintro ⟨n, hn, -⟩
      rw [hnumber.mpr hn] at hread
      cases hread
  | ok n =>
      constructor
      · intro heq
        exact ⟨n, hnumber.mp hread, (Except.ok.inj heq).symm⟩
      · rintro ⟨m, hm, rfl⟩
        rw [hnumber.mpr hm] at hread
        exact congrArg (fun m => Except.ok (some m)) (Except.ok.inj hread).symm

theorem isGivenOr_location_iff (table : HasTable overlay "diary") {s : LocationSettings} :
    IsGivenOr (fun value s => locationSchema.read value = .ok s) {} (overlay.lookup "diary") s ↔
      HasKeys overlay "diary" ["roots", "archive_subdir"] ∧
        FillsLocation (given? overlay "diary") s := by
  refine (isGivenOr_read_iff hasFields_location table).trans (and_congr_right fun _ => ?_)
  simp only [locationFields, List.forall_mem_cons, List.not_mem_nil, IsEmpty.forall_iff,
    implies_true, and_true, Field.Shows, fillsLocation_iff]
  exact and_congr (IsGivenOr.congr fun _ _ => readTexts_eq_ok_iff)
    (IsGivenOr.congr fun _ _ => readText_eq_ok_iff)

theorem isGivenOr_cooldown_iff (table : HasTable overlay "cache") {s : CooldownSettings} :
    IsGivenOr (fun value s => cooldownSchema.read value = .ok s) {} (overlay.lookup "cache") s ↔
      HasKeys overlay "cache" ["image_cooldown_secs", "event_cooldown_secs",
          "diary_cooldown_secs"] ∧
        FillsCooldown (given? overlay "cache") s := by
  refine (isGivenOr_read_iff hasFields_cooldown table).trans (and_congr_right fun _ => ?_)
  simp only [cooldownFields, List.forall_mem_cons, List.not_mem_nil, IsEmpty.forall_iff,
    implies_true, and_true, Field.Shows, fillsCooldown_iff]
  exact and_congr (IsGivenOr.congr fun _ h => readNumber_eq_ok_iff_of_proper (table.proper h))
    (and_congr (IsGivenOr.congr fun _ h => readNumber_eq_ok_iff_of_proper (table.proper h))
      (IsGivenOr.congr fun _ h => readNumber_eq_ok_iff_of_proper (table.proper h)))

theorem isGivenOr_thumbnail_iff (table : HasTable overlay "thumbnail") {s : ThumbnailSettings} :
    IsGivenOr (fun value s => thumbnailSchema.read value = .ok s) {}
        (overlay.lookup "thumbnail") s ↔
      HasKeys overlay "thumbnail" ["tile_width", "tile_height"] ∧
        FillsThumbnail (given? overlay "thumbnail") s := by
  refine (isGivenOr_read_iff hasFields_thumbnail table).trans (and_congr_right fun _ => ?_)
  simp only [thumbnailFields, List.forall_mem_cons, List.not_mem_nil, IsEmpty.forall_iff,
    implies_true, and_true, Field.Shows, fillsThumbnail_iff]
  exact and_congr (IsGivenOr.congr fun _ _ => readPixels_eq_ok_iff)
    (IsGivenOr.congr fun _ _ => readPixels_eq_ok_iff)

theorem isGivenOr_page_iff (table : HasTable overlay "page") {s : PageSettings} :
    IsGivenOr (fun value s => pageSchema.read value = .ok s) {} (overlay.lookup "page") s ↔
      HasKeys overlay "page" ["template_dirs", "template_file", "api_endpoint"] ∧
        FillsPage (given? overlay "page") s := by
  refine (isGivenOr_read_iff hasFields_page table).trans (and_congr_right fun _ => ?_)
  simp only [pageFields, List.forall_mem_cons, List.not_mem_nil, IsEmpty.forall_iff,
    implies_true, and_true, Field.Shows, fillsPage_iff]
  exact and_congr (IsGivenOr.congr fun _ _ => readTexts_eq_ok_iff)
    (and_congr (IsGivenOr.congr fun _ _ => readText_eq_ok_iff)
      (IsGivenOr.congr fun _ _ => readText_eq_ok_iff))

theorem isGivenOr_processing_iff (table : HasTable overlay "processing")
    {s : ProcessingSettings} :
    IsGivenOr (fun value s => processingSchema.read value = .ok s) {}
        (overlay.lookup "processing") s ↔
      HasKeys overlay "processing" ["max_processes"] ∧
        FillsProcessing (given? overlay "processing") s := by
  refine (isGivenOr_read_iff hasFields_processing table).trans (and_congr_right fun _ => ?_)
  simp only [processingFields, List.forall_mem_cons, List.not_mem_nil, IsEmpty.forall_iff,
    implies_true, and_true, Field.Shows, fillsProcessing_iff]
  exact IsGivenOr.congr fun _ h => readCount_eq_ok_iff (table.proper h)

theorem ofValue_eq_ok_iff (proper : (Value.table overlay).Proper) (tables : HasTables overlay)
    {c : Config} :
    ofValue (.table overlay) = .ok c ↔ HasDeclaredKeys overlay ∧ Fills overlay c := by
  cases proper with
  | table inOrder hproper =>
    have htables : ∀ part ∈ declared, HasTable overlay part.1 := by
      intro part hpart value hfound
      obtain ⟨entries, rfl⟩ := tables part hpart value hfound
      exact ⟨entries, rfl, hproper _ (Entries.mem_of_lookup hfound)⟩
    simp only [declared, List.forall_mem_cons] at htables
    obtain ⟨hlocation, hcooldown, hthumbnail, hpage, hprocessing, -⟩ := htables
    refine (hasFields_sections.read_eq_ok_iff inOrder).trans ?_
    simp only [sectionFields, List.forall_mem_cons, List.not_mem_nil, IsEmpty.forall_iff,
      implies_true, and_true, Field.Shows]
    refine (and_congr Iff.rfl (and_congr (isGivenOr_location_iff hlocation)
      (and_congr (isGivenOr_cooldown_iff hcooldown) (and_congr (isGivenOr_thumbnail_iff hthumbnail)
        (and_congr (isGivenOr_page_iff hpage) (isGivenOr_processing_iff hprocessing)))))).trans ?_
    constructor
    · rintro ⟨hkeys, ⟨klocation, location⟩, ⟨kcooldown, cooldown⟩, ⟨kthumbnail, thumbnail⟩,
        ⟨kpage, page⟩, ⟨kprocessing, processing⟩⟩
      refine ⟨⟨hkeys, ?_⟩, location, cooldown, thumbnail, page, processing⟩
      simp only [declared, List.forall_mem_cons]
      exact ⟨klocation, kcooldown, kthumbnail, kpage, kprocessing, List.forall_mem_nil _⟩
    · rintro ⟨⟨hkeys, hparts⟩, filled⟩
      simp only [declared, List.forall_mem_cons] at hparts
      obtain ⟨klocation, kcooldown, kthumbnail, kpage, kprocessing, -⟩ := hparts
      exact ⟨hkeys, ⟨klocation, filled.location⟩, ⟨kcooldown, filled.cooldown⟩,
        ⟨kthumbnail, filled.thumbnail⟩, ⟨kpage, filled.page⟩, kprocessing, filled.processing⟩

end Sections

/-! ### Kinds -/

theorem takes_text_iff {value : Value} : Kind.text.Takes value ↔ ∃ text, IsText value text := by
  constructor
  · rintro (_ | _)
    · exact ⟨_, .string _⟩
    · exact ⟨_, .moment _⟩
  · rintro ⟨_, _ | _⟩
    · exact .text _
    · exact .moment _

theorem takes_texts_iff {value : Value} :
    Kind.texts.Takes value ↔ ∃ texts, IsTexts value texts := by
  constructor
  · rintro (_ | _ | @⟨items, htakes⟩)
    suffices ∃ texts, List.Forall₂ IsText items texts from
      this.imp fun _ h => ⟨items, rfl, h⟩
    induction items with
    | nil => exact ⟨[], .nil⟩
    | cons item rest ih =>
        obtain ⟨hitem, hrest⟩ := List.forall_mem_cons.mp htakes
        obtain ⟨text, htext⟩ := takes_text_iff.mp hitem
        obtain ⟨texts, htexts⟩ := ih hrest
        exact ⟨text :: texts, .cons htext htexts⟩
  · rintro ⟨texts, items, rfl, hall⟩
    refine .texts fun item hitem => ?_
    induction hall with
    | nil => cases hitem
    | cons htext _ ih =>
        rcases List.mem_cons.mp hitem with rfl | hitem
        · exact takes_text_iff.mpr ⟨_, htext⟩
        · exact ih hitem

theorem takes_number_iff {value : Value} : Kind.number.Takes value ↔ ∃ n, IsNumber value n := by
  constructor
  · rintro (_ | _ | _ | @⟨n, hn⟩)
    exact ⟨n.toNat, by rw [IsNumber, Int.toNat_of_nonneg hn]⟩
  · rintro ⟨n, rfl⟩
    exact .number (Int.natCast_nonneg n)

theorem takes_pixels_iff {value : Value} :
    Kind.pixels.Takes value ↔ ∃ side, IsPixels value side := by
  constructor
  · rintro (_ | _ | _ | _ | @⟨n, hn, hbound⟩)
    have hlt : n.toNat < 2 ^ 32 := by omega
    exact ⟨UInt32.ofNat n.toNat, by
      rw [IsPixels, UInt32.toNat_ofNat_of_lt' hlt, Int.toNat_of_nonneg hn]⟩
  · rintro ⟨side, rfl⟩
    exact .pixels (Int.natCast_nonneg _) (by exact_mod_cast side.toNat_lt)

theorem exists_isGivenOr {α : Type} {stands : Value → α → Prop} (stock : α)
    {given : Option Value} (h : ∀ value, given = some value → ∃ a, stands value a) :
    ∃ a, IsGivenOr stands stock given a := by
  cases given with
  | none => exact ⟨stock, rfl⟩
  | some value => exact h value rfl

theorem IsGivenOr.stands {α : Type} {stands : Value → α → Prop} {stock actual : α}
    {given : Option Value} (h : IsGivenOr stands stock given actual) (value : Value)
    (hgiven : given = some value) : ∃ a, stands value a := by
  subst hgiven
  exact ⟨actual, h⟩

/-- A settings file fills a configuration exactly if its values are of the declared kinds. -/
theorem exists_fills_iff {overlay : Entries} :
    (∃ c, Fills overlay c) ↔ HasDeclaredKinds overlay := by
  simp only [HasDeclaredKinds, declared, List.forall_mem_cons, List.not_mem_nil,
    IsEmpty.forall_iff, implies_true, and_true, takes_text_iff, takes_texts_iff,
    takes_number_iff, takes_pixels_iff]
  constructor
  · rintro ⟨c, location, cooldown, thumbnail, page, processing⟩
    refine ⟨⟨location.roots.stands, location.archive.stands⟩, ⟨cooldown.images.stands,
      cooldown.events.stands, cooldown.diary.stands⟩, ⟨thumbnail.tileWidth.stands,
      thumbnail.tileHeight.stands⟩, ⟨page.templateDirectories.stands, page.templateFile.stands,
      page.endpoint.stands⟩, fun value h => ?_⟩
    obtain ⟨_, n, hn, -⟩ := processing.maxProcesses.stands value h
    exact ⟨n, hn⟩
  · rintro ⟨⟨hroots, harchive⟩, ⟨himages, hevents, hdiary⟩, ⟨hwidth, hheight⟩,
      ⟨hdirectories, hfile, hendpoint⟩, hcount⟩
    obtain ⟨roots, hroots⟩ := exists_isGivenOr ["rabbits"] hroots
    obtain ⟨archive, harchive⟩ := exists_isGivenOr "old" harchive
    obtain ⟨images, himages⟩ := exists_isGivenOr 60 himages
    obtain ⟨events, hevents⟩ := exists_isGivenOr 60 hevents
    obtain ⟨diary, hdiary⟩ := exists_isGivenOr 5 hdiary
    obtain ⟨tileWidth, hwidth⟩ := exists_isGivenOr 96 hwidth
    obtain ⟨tileHeight, hheight⟩ := exists_isGivenOr 128 hheight
    obtain ⟨templateDirectories, hdirectories⟩ := exists_isGivenOr ["."] hdirectories
    obtain ⟨templateFile, hfile⟩ := exists_isGivenOr "index.html" hfile
    obtain ⟨endpoint, hendpoint⟩ := exists_isGivenOr "/api/rabbits" hendpoint
    have hcount : ∀ value, given? overlay "processing" "max_processes" = some value →
        ∃ count, ∃ n, IsNumber value n ∧ count = some n := by
      intro value h
      obtain ⟨n, hn⟩ := hcount value h
      exact ⟨some n, n, hn, rfl⟩
    obtain ⟨maxProcesses, hcount⟩ := exists_isGivenOr none hcount
    exact ⟨{ location := ⟨roots, archive⟩
             cooldown := ⟨images, events, diary⟩
             thumbnail := ⟨tileWidth, tileHeight⟩
             page := ⟨templateDirectories, templateFile, endpoint⟩
             processing := ⟨maxProcesses⟩ },
      ⟨hroots, harchive⟩, ⟨himages, hevents, hdiary⟩, ⟨hwidth, hheight⟩,
      ⟨hdirectories, hfile, hendpoint⟩, ⟨hcount⟩⟩

/-! ### Acceptance -/

section Acceptance

variable {base overlay : Value} {c : Config}

/-- Settings are accepted if what they are laid to can be read and is of use. -/
theorem resolve_eq_ok_iff :
    resolve base (some overlay) = .ok c ↔ ofValue (base.merge overlay) = .ok c ∧ IsUseful c := by
  rw [← flaw?_eq_none_iff, resolve]
  cases ofValue (base.merge overlay) with
  | error refusal => exact iff_of_false (by rintro ⟨⟩) (by rintro ⟨⟨⟩, -⟩)
  | ok d =>
      simp only [validated, Except.ok.injEq]
      cases hflaw : d.flaw? with
      | none =>
          constructor
          · intro h
            obtain rfl : d = c := Except.ok.inj h
            exact ⟨rfl, hflaw⟩
          · rintro ⟨rfl, -⟩
            rfl
      | some flaw =>
          refine iff_of_false (by rintro ⟨⟩) ?_
          rintro ⟨rfl, hnone⟩
          rw [hflaw] at hnone
          cases hnone

theorem exists_flaw_of_resolve (hread : ofValue (base.merge overlay) = .ok c)
    (useless : ¬ IsUseful c) : ∃ flaw, resolve base (some overlay) = .error (.invalid flaw) := by
  rw [← flaw?_eq_none_iff, ← ne_eq, Option.ne_none_iff_exists'] at useless
  obtain ⟨flaw, hflaw⟩ := useless
  refine ⟨flaw, ?_⟩
  simp only [resolve, hread, validated, hflaw]

theorem exists_refusal_of_resolve (hread : ∀ c, ofValue (base.merge overlay) ≠ .ok c) :
    ∃ refusal, resolve base (some overlay) = .error (.refused refusal) := by
  cases h : ofValue (base.merge overlay) with
  | error refusal =>
      refine ⟨refusal, ?_⟩
      simp only [resolve, h]
  | ok c => exact absurd h (hread c)

end Acceptance

/-- A settings file whose sections are tables is accepted exactly if its keys are declared, its
values are of the declared kinds and the configuration that it fills is of use; then that is the
answer, with each setting as given, and stock where none is given. If the keys and kinds are
right, there is just one configuration that it fills, and if this is of no use, it is called
invalid. If they are not, the settings file is refused. -/
theorem resolve_accepts {overlay : Entries} (proper : (Value.table overlay).Proper)
    (tables : HasTables overlay) :
    ((∃ c, resolve stockValue (some (.table overlay)) = .ok c) ↔
      HasDeclaredKeys overlay ∧ HasDeclaredKinds overlay ∧ ∃ c, Fills overlay c ∧ IsUseful c) ∧
    (∀ c, resolve stockValue (some (.table overlay)) = .ok c → Fills overlay c) ∧
    (HasDeclaredKeys overlay ∧ HasDeclaredKinds overlay →
      ∃ c, Fills overlay c ∧ (∀ other, Fills overlay other → other = c) ∧
        (¬ IsUseful c →
          ∃ flaw, resolve stockValue (some (.table overlay)) = .error (.invalid flaw))) ∧
    (¬ (HasDeclaredKeys overlay ∧ HasDeclaredKinds overlay) →
      ∃ refusal, resolve stockValue (some (.table overlay)) = .error (.refused refusal)) := by
  have hread : ∀ c, ofValue (stockValue.merge (.table overlay)) = .ok c ↔
      HasDeclaredKeys overlay ∧ Fills overlay c := fun c => by
    rw [ofValue_merge_stockValue proper]
    exact ofValue_eq_ok_iff proper tables
  refine ⟨?_, fun c h => ((hread c).mp (resolve_eq_ok_iff.mp h).1).2, ?_, ?_⟩
  · constructor
    · rintro ⟨c, h⟩
      obtain ⟨hok, useful⟩ := resolve_eq_ok_iff.mp h
      obtain ⟨hkeys, fills⟩ := (hread c).mp hok
      exact ⟨hkeys, exists_fills_iff.mp ⟨c, fills⟩, c, fills, useful⟩
    · rintro ⟨hkeys, -, c, fills, useful⟩
      exact ⟨c, resolve_eq_ok_iff.mpr ⟨(hread c).mpr ⟨hkeys, fills⟩, useful⟩⟩
  · rintro ⟨hkeys, hkinds⟩
    obtain ⟨c, fills⟩ := exists_fills_iff.mpr hkinds
    have hok := (hread c).mpr ⟨hkeys, fills⟩
    refine ⟨c, fills, fun other hother => ?_, exists_flaw_of_resolve hok⟩
    exact Except.ok.inj (((hread other).mpr ⟨hkeys, hother⟩).symm.trans hok)
  · intro hwrong
    refine exists_refusal_of_resolve fun c hok => hwrong ?_
    obtain ⟨hkeys, fills⟩ := (hread c).mp hok
    exact ⟨hkeys, exists_fills_iff.mp ⟨c, fills⟩⟩

/-- A settings file that gives a moment for the name of the template. -/
def momentOverlay : Entries :=
  [("page", .table [("template_file", .dateTime (.time ⟨7, 32, 0, 0⟩))])]

/-- Settings are accepted although a setting that is a text is given something that is none. -/
theorem resolve_momentOverlay :
    (∃ c, resolve stockValue (some (.table momentOverlay)) = .ok c) ∧
      ∃ value, given? momentOverlay "page" "template_file" = some value ∧
        ∀ text, value ≠ .string text :=
  ⟨⟨{ page := { templateFile := "07:32:00" } }, rfl⟩, _, rfl, nofun⟩

theorem resolve_accepts_moment :
    (Value.table momentOverlay).Proper ∧ HasTables momentOverlay ∧
      HasDeclaredKeys momentOverlay ∧ HasDeclaredKinds momentOverlay ∧
      ∃ c, resolve stockValue (some (.table momentOverlay)) = .ok c ∧ Fills momentOverlay c := by
  have proper : (Value.table momentOverlay).Proper := by
    refine .table (List.pairwise_singleton _ _) (List.forall_mem_singleton.mpr ?_)
    refine .table (List.pairwise_singleton _ _) (List.forall_mem_singleton.mpr ?_)
    exact .dateTime _
  have tables : HasTables momentOverlay := by
    intro part hpart value hfound
    have hmem := Entries.mem_of_lookup hfound
    obtain ⟨-, rfl⟩ := Prod.mk.inj (List.mem_singleton.mp hmem)
    exact ⟨_, rfl⟩
  have hok : resolve stockValue (some (.table momentOverlay)) =
    .ok { page := { templateFile := "07:32:00" } } := rfl
  obtain ⟨haccepts, hfills, -⟩ := resolve_accepts proper tables
  obtain ⟨hkeys, hkinds, -⟩ := haccepts.mp ⟨_, hok⟩
  exact ⟨proper, tables, hkeys, hkinds, _, hok, hfills _ hok⟩

end DrawingDiary.Config
