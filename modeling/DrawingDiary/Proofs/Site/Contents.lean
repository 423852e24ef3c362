import DrawingDiary.Proofs.Diary.Index
import DrawingDiary.Proofs.Disk.Renewed
import DrawingDiary.Proofs.Site.Answered

/-!
# What each step puts into the site

Once the target was made anew it is an empty directory, and each step of making the site
adds children to it: the links to the assets of the template (`stands_linkAssets`), a
directory for each month whose name is free (`wrote_monthPages`), and the page of the newest
month (`stands_rootPage`). Beside the target no step changes anything (`Disk.GrownIn`). The
pages are rendered one after the other, each from what is remembered of the days after the
one before (`Renders`).
-/

namespace DrawingDiary

theorem Naming.IsWrittenMonth.plainName {name : String} (written : IsWrittenMonth name) :
    Path.PlainName name := by
  refine Path.plainName_of_mem (c := '-') (fun hslash => ?_) ?_ (by decide)
  · rcases written.isDigit hslash with h | h <;> exact absurd h (by decide)
  · obtain ⟨year, month, htext, -⟩ := written
    simp [htext]

theorem Naming.IsWrittenMonth.no_zero {name : String} (written : IsWrittenMonth name) :
    '\x00' ∉ name.toList := by
  intro hzero
  rcases written.isDigit hzero with h | h <;> exact absurd h (by decide)

theorem Naming.IsWrittenMonth.le_nameLimit {name : String} (written : IsWrittenMonth name) :
    name.utf8ByteSize ≤ Disk.nameLimit := by
  rw [written.utf8ByteSize]
  decide

namespace Site

open Attempt
open Disk (Stands GrownIn Speakable)
open Naming (IsWrittenMonth)
open DrawingDiary.Path (PlainName)

section Rendering

/-- The run that renders a page of the site on a disk. -/
abbrev pageRun (setting : Setting) (template : List String) (months : List Month)
    (month : Option String) (disk : Disk) : Run Shelf (List String) :=
  Page.renderLines { toSetting := setting, disk := disk } template months month
    (.staticPage month)

/-- Pages with the lines that rendering them one after the other gives, each on some allowed
disk, and what is remembered of the days before and after that. -/
inductive Renders (setting : Setting) (allowed : Disk → Prop) (template : List String)
    (months : List Month) : Shelf → List (Option String × List String) → Shelf → Prop where
  | nil {shelf : Shelf} : Renders setting allowed template months shelf [] shelf
  | cons {shelf final : Shelf} {disk : Disk} {month : Option String} {lines : List String}
      {pages : List (Option String × List String)} :
      allowed disk →
      (pageRun setting template months month disk shelf).result = some lines →
      Renders setting allowed template months
        (pageRun setting template months month disk shelf).state pages final →
      Renders setting allowed template months shelf ((month, lines) :: pages) final

variable {setting : Setting} {allowed : Disk → Prop} {template : List String}
  {months : List Month} {shelf between final : Shelf}
  {pages more : List (Option String × List String)}

theorem Renders.append (first : Renders setting allowed template months shelf pages between)
    (second : Renders setting allowed template months between more final) :
    Renders setting allowed template months shelf (pages ++ more) final := by
  induction first with
  | nil => exact second
  | cons hdisk hlines _ ih => exact .cons hdisk hlines (ih second)

theorem Renders.mono {wider : Disk → Prop}
    (h : Renders setting allowed template months shelf pages final)
    (sub : ∀ disk, allowed disk → wider disk) :
    Renders setting wider template months shelf pages final := by
  induction h with
  | nil => exact .nil
  | cons hdisk hlines _ ih => exact .cons (sub _ hdisk) hlines ih

end Rendering

variable {setting : Setting} {source target : Path} {template : List String}
  {months : List Month} {disk : Disk} {place : Location} {children : List (String × Tree)}
  {s t : Disk × Diary}

/-- The link to an asset of a template. -/
def assetEntry (source : Path) (name : String) : String × Tree := (name, .link (source.join name))

theorem map_assetEntry (source : Path) (names : List String) :
    (names.map (assetEntry source)).map (·.1) = names := by
  rw [List.map_map]
  exact List.map_id names

/-- When all assets could be linked, the links are the last children of the target. -/
theorem stands_linkAssets {names : List String} (plain : ∀ name ∈ names, PlainName name)
    (stands : Stands disk target place children) (distinct : (children.map (·.1)).Nodup)
    (h : (linkAssets source target names disk).2 = none) :
    Stands (linkAssets source target names disk).1 target place
        (children ++ names.map (assetEntry source)) ∧
      (children.map (·.1) ++ names).Nodup ∧
      GrownIn place disk (linkAssets source target names disk).1 := by
  induction names generalizing disk children with
  | nil => simpa [linkAssets, distinct] using ⟨stands, .refl place disk⟩
  | cons name rest ih =>
      obtain ⟨hname, hrest⟩ := List.forall_mem_cons.mp plain
      unfold linkAssets at h ⊢
      cases hlink : disk.makeLink (target.join name) (source.join name) with
      | error e =>
          rw [hlink] at h
          cases h
      | ok linked =>
          rw [hlink] at h
          obtain ⟨free, standsLinked, grown⟩ := stands.makeLink hname hlink
          obtain ⟨standsAll, distinctAll, grownAll⟩ :=
            ih hrest standsLinked (Tree.nodup_names_append distinct free _) h
          refine ⟨?_, ?_, grown.trans grownAll⟩
          · simpa [assetEntry] using standsAll
          · simpa [assetEntry] using distinctAll

theorem linkAssets_eq_none {names : List String} (plain : ∀ name ∈ names, PlainName name)
    (speakable : ∀ name ∈ names, Speakable (target.join name))
    (short : ∀ name ∈ names, name.utf8ByteSize ≤ Disk.nameLimit)
    (stands : Stands disk target place children) (distinct : (children.map (·.1) ++ names).Nodup) :
    (linkAssets source target names disk).2 = none := by
  induction names generalizing disk children with
  | nil => rfl
  | cons name rest ih =>
      obtain ⟨hplain, plain⟩ := List.forall_mem_cons.mp plain
      obtain ⟨hspeakable, speakable⟩ := List.forall_mem_cons.mp speakable
      obtain ⟨hshort, short⟩ := List.forall_mem_cons.mp short
      have free : Tree.lookup name children = none := by
        rw [Tree.lookup_eq_none_iff]
        exact fun hname => (List.nodup_append.mp distinct).2.2 name hname name
          List.mem_cons_self rfl
      obtain ⟨linked, hlink⟩ :=
        stands.exists_makeLink hplain hspeakable free hshort (source.join name)
      obtain ⟨-, standsLinked, -⟩ := stands.makeLink hplain hlink
      unfold linkAssets
      rw [hlink]
      exact ih plain speakable short standsLinked (by simpa using distinct)

theorem contains_eq_isSome_lookup (source : Path) (names : List String) (name : String) :
    names.contains name = (Tree.lookup name (names.map (assetEntry source))).isSome := by
  rw [Bool.eq_iff_iff, List.contains_iff_mem, Option.isSome_iff_ne_none, Ne,
    Tree.lookup_eq_none_iff, map_assetEntry, not_not]

theorem indexFile_not_mem_assetNames (names : List String) : indexFile ∉ assetNames names := by
  intro hmem
  have hasset := (List.mem_filter.mp hmem).2
  simp [isAsset] at hasset

theorem answers_linkTemplate_iff {assets : List String} :
    Answers (linkTemplate source target) s assets t ↔
      ∃ names, s.1.list source = .ok names ∧ assets = assetNames names ∧
        (linkAssets source target (assetNames names) s.1).2 = none ∧
        t = ((linkAssets source target (assetNames names) s.1).1, s.2) := by
  constructor
  · intro h
    obtain ⟨seen, u, hstate, hrest⟩ := answers_bind_iff.mp h
    obtain ⟨rfl, rfl⟩ := answers_state_iff.mp hstate
    simp only at hrest
    split at hrest
    · exact absurd hrest not_answers_throw
    next names hlist =>
      obtain ⟨⟨⟩, v, hlinks, hpure⟩ := answers_bind_iff.mp hrest
      obtain ⟨hnone, rfl⟩ := answers_onDiskWith_iff.mp hlinks
      obtain ⟨rfl, rfl⟩ := answers_pure_iff.mp hpure
      exact ⟨names, hlist, rfl, hnone, rfl⟩
  · rintro ⟨names, hlist, rfl, hnone, rfl⟩
    refine answers_bind_iff.mpr ⟨s, s, answers_state_iff.mpr ⟨rfl, rfl⟩, ?_⟩
    simp only [hlist]
    exact answers_bind_iff.mpr ⟨(), _, answers_onDiskWith_iff.mpr ⟨hnone, rfl⟩,
      answers_pure_iff.mpr ⟨rfl, rfl⟩⟩

/-- The links to the assets are all that is in the target after the template was linked. -/
theorem stands_linkTemplate {assets : List String} (plain : ∀ name ∈ assets, PlainName name)
    (stands : Stands s.1 target place []) (h : Answers (linkTemplate source target) s assets t) :
    Stands t.1 target place (assets.map (assetEntry source)) ∧ assets.Nodup ∧
      GrownIn place s.1 t.1 ∧ t.2 = s.2 ∧
      ∃ names, s.1.list source = .ok names ∧ assets = assetNames names := by
  obtain ⟨names, hlist, rfl, hlinks, rfl⟩ := answers_linkTemplate_iff.mp h
  obtain ⟨standsLinked, distinct, grown⟩ :=
    stands_linkAssets plain stands List.nodup_nil hlinks
  rw [List.nil_append] at standsLinked
  exact ⟨standsLinked, distinct, grown, rfl, names, hlist, rfl⟩

section MonthPages

/-- The directory of a month holds nothing but the page of this month. -/
def IsMonthDirectory (pages : List (Option String × List String)) (entry : String × Tree) :
    Prop :=
  ∃ lines modified, (some entry.1, lines) ∈ pages ∧
    entry.2 = .directory [(indexFile, .file (pageBytes lines) modified)]

theorem writeMonthPage_of_taken {month : String} (plain : PlainName month)
    (stands : Stands disk target place children) (taken : Tree.lookup month children ≠ none)
    (lines : List String) : writeMonthPage (target.join month) lines disk = (disk, false) := by
  unfold writeMonthPage
  cases hmade : disk.makeDirectory (target.join month) with
  | error e => rfl
  | ok made => exact absurd (stands.makeDirectory plain hmade).1 taken

theorem speakable_monthPage {month : String} (hmonth : IsWrittenMonth month)
    (speakable : Speakable target) (short : target.text.utf8ByteSize + 20 ≤ Disk.pathLimit) :
    Speakable (target.join month) ∧ Speakable ((target.join month).join indexFile) := by
  have hsize : (target.join month).text.utf8ByteSize ≤ target.text.utf8ByteSize + 8 := by
    have habsolute : ¬ (month.toList.head? == some '/') = true := by
      rw [beq_iff_eq]
      exact fun h => hmonth.plainName.no_slash (List.mem_of_head? h)
    rw [Path.join, if_neg habsolute]
    have hslash : ("/" : String).utf8ByteSize = 1 := rfl
    split <;> simp only [String.utf8ByteSize_append, hmonth.utf8ByteSize, hslash] <;> omega
  have hindex : indexFile.utf8ByteSize = 10 := rfl
  have hjoined : Speakable (target.join month) := by
    refine speakable.join hmonth.plainName hmonth.no_zero ?_
    rw [hmonth.utf8ByteSize]
    omega
  refine ⟨hjoined, hjoined.join plainName_indexFile (by decide) ?_⟩
  rw [hindex]
  omega

/-- A directory that was made for a month is empty, and nothing else has changed. -/
theorem stands_of_madeMonth {month : String} (hmonth : IsWrittenMonth month)
    (stands : Stands disk target place children) {made : Disk}
    (hmade : disk.makeDirectory (target.join month) = .ok made) :
    Tree.lookup month children = none ∧
      Stands made target place (children ++ [(month, .directory [])]) ∧
      Stands made (target.join month) (place ++ [month]) [] ∧ GrownIn place disk made := by
  obtain ⟨free, standsMade, grown⟩ := stands.makeDirectory hmonth.plainName hmade
  obtain ⟨parent, last, hwalk, -⟩ := Disk.makeDirectory_eq_ok_iff.mp hmade
  refine ⟨free, standsMade, ?_, grown⟩
  refine standsMade.child hmonth.plainName (Disk.walkAlong_eq_ok_iff.mp hwalk).1
    hmonth.le_nameLimit ?_
  rw [Tree.lookup_append, free]
  simp [Tree.lookup]

theorem stands_of_writeMonthPage {month : String} (hmonth : IsWrittenMonth month)
    (stands : Stands disk target place children) {lines : List String} {written : Disk}
    (h : writeMonthPage (target.join month) lines disk = (written, true)) :
    ∃ modified, Stands written target place (children ++
        [(month, .directory [(indexFile, .file (pageBytes lines) modified)])]) ∧
      GrownIn place disk written := by
  unfold writeMonthPage at h
  split at h
  · cases h
  next made hmade =>
    obtain ⟨free, standsMade, child, grownMade⟩ := stands_of_madeMonth hmonth stands hmade
    split at h
    · cases h
    next file hfile =>
      obtain rfl : file = written := congrArg Prod.fst h
      obtain ⟨-, heq⟩ := child.eq_of_writeNewFile plainName_indexFile hfile
      have hroot : file.root = made.root.setAt (place ++ month :: [indexFile])
          (some (.file (pageBytes lines) made.now)) := by
        rw [heq]
        simp [Disk.putFile, Disk.setAt]
      obtain ⟨standsWritten, grownWritten⟩ := standsMade.putBelow free
        (List.cons_ne_nil indexFile []) (Disk.grown_of_writeNewFile hfile) hroot
      exact ⟨made.now, standsWritten, grownMade.trans grownWritten⟩

theorem exists_writeMonthPage {month : String} (hmonth : IsWrittenMonth month)
    (short : target.text.utf8ByteSize + 20 ≤ Disk.pathLimit)
    (stands : Stands disk target place children) (free : Tree.lookup month children = none)
    (lines : List String) :
    ∃ written, writeMonthPage (target.join month) lines disk = (written, true) := by
  obtain ⟨speakable, speakablePage⟩ := speakable_monthPage hmonth stands.speakable short
  obtain ⟨made, hmade⟩ :=
    stands.exists_makeDirectory hmonth.plainName speakable free hmonth.le_nameLimit
  obtain ⟨-, -, child, -⟩ := stands_of_madeMonth hmonth stands hmade
  obtain ⟨written, hwritten⟩ := child.exists_writeNewFile plainName_indexFile speakablePage rfl
    (by decide) (pageBytes lines)
  exact ⟨written, by simp only [writeMonthPage, hmade, hwritten]⟩

/-- What has become of the pages of some months: every page was rendered, and the months whose
names were free among the children of the target have got their directories. -/
structure Wrote (setting : Setting) (target : Path) (template : List String)
    (months : List Month) (place : Location) (children : List (String × Tree))
    (names : List String) (s t : Disk × Diary) (failed : List String)
    (pages : List (Option String × List String)) (written : List (String × Tree)) : Prop where
  renders : Renders setting (GrownIn place · t.1) template months s.2.shelf pages t.2.shelf
  pages_eq : pages.map (·.1) = names.map some
  stands : Stands t.1 target place (children ++ written)
  written_eq : written.map (·.1) = names.filter fun name => (Tree.lookup name children).isNone
  failed_eq : failed = names.filter fun name => (Tree.lookup name children).isSome
  directory : ∀ entry ∈ written, IsMonthDirectory pages entry
  grown : GrownIn place s.1 t.1
  diary_eq : t.2 = { s.2 with shelf := t.2.shelf }

theorem wrote_monthPage {month : String} (hmonth : IsWrittenMonth month)
    (stands : Stands s.1 target place children) {failed : Option String}
    (sure : failed = none ∨ target.text.utf8ByteSize + 20 ≤ Disk.pathLimit)
    (h : Answers (monthPage setting target template months month) s failed t) :
    ∃ pages written, Wrote setting target template months place children [month] s t
      failed.toList pages written := by
  obtain ⟨lines, u, hrender, hresult, rfl⟩ := answers_bind_iff.mp h
  obtain ⟨hlines, rfl⟩ := answers_onShelf_iff.mp hrender
  simp only [ExceptT.mk] at hresult ⊢
  refine ⟨[(some month, lines)], ?_⟩
  cases hlookup : Tree.lookup month children with
  | some taken =>
      have heq := writeMonthPage_of_taken hmonth.plainName stands (by simp [hlookup]) lines
      rw [heq] at hresult ⊢
      cases hresult
      refine ⟨[], .cons (.refl place s.1) hlines .nil, rfl, ?_, ?_, ?_, ?_, .refl place s.1, rfl⟩
      · rwa [List.append_nil]
      · simp [hlookup]
      · simp [hlookup]
      · exact fun _ hmem => absurd hmem List.not_mem_nil
  | none =>
      obtain ⟨written, heq⟩ :
          ∃ written, writeMonthPage (target.join month) lines s.1 = (written, true) := by
        rcases sure with rfl | short
        · refine ⟨(writeMonthPage (target.join month) lines s.1).1, Prod.ext rfl ?_⟩
          by_contra hfalse
          simp [hfalse] at hresult
        · exact exists_writeMonthPage hmonth short stands hlookup lines
      obtain ⟨modified, standsWritten, grown⟩ := stands_of_writeMonthPage hmonth stands heq
      rw [heq] at hresult ⊢
      cases hresult
      refine ⟨[(month, .directory [(indexFile, .file (pageBytes lines) modified)])],
        .cons grown hlines .nil, rfl, standsWritten, ?_, ?_, ?_, grown, rfl⟩
      · simp [hlookup]
      · simp [hlookup]
      · intro entry hmem
        obtain rfl := List.mem_singleton.mp hmem
        exact ⟨lines, modified, List.mem_singleton_self _, rfl⟩

theorem Wrote.isWrittenMonth {names failed : List String}
    {pages : List (Option String × List String)} {written : List (String × Tree)}
    (wrote : Wrote setting target template months place children names s t failed pages written)
    (hnames : ∀ name ∈ names, IsWrittenMonth name) : ∀ entry ∈ written, IsWrittenMonth entry.1 := by
  intro entry hentry
  have hname := List.mem_map_of_mem (f := (·.1)) hentry
  rw [wrote.written_eq] at hname
  exact hnames _ (List.mem_of_mem_filter hname)

theorem Wrote.append {names others failed failed' : List String} {u : Disk × Diary}
    {pages pages' : List (Option String × List String)} {written written' : List (String × Tree)}
    (first : Wrote setting target template months place children names s t failed pages written)
    (second : Wrote setting target template months place (children ++ written) others t u
      failed' pages' written')
    (apart : ∀ name ∈ others, name ∉ names) :
    Wrote setting target template months place children (names ++ others) s u
      (failed ++ failed') (pages ++ pages') (written ++ written') := by
  have hlookup : ∀ name ∈ others,
      Tree.lookup name (children ++ written) = Tree.lookup name children := by
    intro name hmem
    have hfree : Tree.lookup name written = none := by
      rw [Tree.lookup_eq_none_iff, first.written_eq]
      exact fun hname => apart name hmem (List.mem_of_mem_filter hname)
    rw [Tree.lookup_append, hfree, Option.or_none]
  have hwritten : written'.map (·.1) =
      others.filter fun name => (Tree.lookup name children).isNone :=
    second.written_eq.trans (List.filter_congr fun name hmem => by rw [hlookup name hmem])
  have hfailed : failed' = others.filter fun name => (Tree.lookup name children).isSome :=
    second.failed_eq.trans (List.filter_congr fun name hmem => by rw [hlookup name hmem])
  refine ⟨?_, ?_, ?_, ?_, ?_, ?_, first.grown.trans second.grown, ?_⟩
  · exact (first.renders.mono fun _ grown => grown.trans second.grown).append second.renders
  · rw [List.map_append, first.pages_eq, second.pages_eq, List.map_append]
  · rw [← List.append_assoc]
    exact second.stands
  · rw [List.map_append, first.written_eq, hwritten, List.filter_append]
  · rw [first.failed_eq, hfailed, List.filter_append]
  · intro entry hmem
    rcases List.mem_append.mp hmem with hfirst | hsecond
    · obtain ⟨lines, modified, hpage, htree⟩ := first.directory entry hfirst
      exact ⟨lines, modified, List.mem_append_left _ hpage, htree⟩
    · obtain ⟨lines, modified, hpage, htree⟩ := second.directory entry hsecond
      exact ⟨lines, modified, List.mem_append_right _ hpage, htree⟩
  · rw [second.diary_eq, first.diary_eq]

theorem wrote_monthPages {names : List String} (hnames : ∀ name ∈ names, IsWrittenMonth name)
    (distinct : names.Nodup) (stands : Stands s.1 target place children) {failed : List String}
    (sure : failed = [] ∨ target.text.utf8ByteSize + 20 ≤ Disk.pathLimit)
    (h : Answers (monthPages setting target template months names) s failed t) :
    ∃ pages written,
      Wrote setting target template months place children names s t failed pages written := by
  induction names generalizing s children failed with
  | nil =>
      obtain ⟨rfl, rfl⟩ := answers_pure_iff.mp h
      refine ⟨[], [], .nil, rfl, ?_, rfl, rfl, ?_, .refl place t.1, rfl⟩
      · rwa [List.append_nil]
      · exact fun _ hmem => absurd hmem List.not_mem_nil
  | cons month rest ih =>
      obtain ⟨hmonth, hrest⟩ := List.forall_mem_cons.mp hnames
      rw [List.nodup_cons] at distinct
      obtain ⟨first, u, hfirst, hothers⟩ := answers_bind_iff.mp h
      obtain ⟨others, v, hothers, hpure⟩ := answers_bind_iff.mp hothers
      obtain ⟨rfl, rfl⟩ := answers_pure_iff.mp hpure
      obtain ⟨sureFirst, sureOthers⟩ : (first = none ∨ _) ∧ (others = [] ∨ _) := by
        rcases sure with hnone | short
        · rw [List.append_eq_nil_iff, Option.toList_eq_nil_iff] at hnone
          exact ⟨.inl hnone.1, .inl hnone.2⟩
        · exact ⟨.inr short, .inr short⟩
      obtain ⟨pages, written, wrote⟩ := wrote_monthPage hmonth stands sureFirst hfirst
      obtain ⟨pages', written', wrote'⟩ := ih hrest distinct.2 wrote.stands sureOthers hothers
      refine ⟨_, _, wrote.append wrote' fun name hmem hname => ?_⟩
      obtain rfl := List.mem_singleton.mp hname
      exact distinct.1 hmem

end MonthPages

/-- A name of no asset that has not the length of a month is free beside assets and months. -/
theorem lookup_of_apart {name : String} {assets : List String} {written : List (String × Tree)}
    (hassets : name ∉ assets) (hlength : name.toList.length ≠ 7)
    (hwritten : ∀ entry ∈ written, IsWrittenMonth entry.1) (source : Path) :
    Tree.lookup name (assets.map (assetEntry source) ++ written) = none := by
  rw [Tree.lookup_eq_none_iff, List.map_append, map_assetEntry, List.mem_append, not_or]
  refine ⟨hassets, fun hmem => ?_⟩
  obtain ⟨entry, hentry, rfl⟩ := List.mem_map.mp hmem
  exact hlength (hwritten entry hentry).length

/-- The page of the newest month is rendered and is the last child of the target. -/
theorem stands_rootPage (stands : Stands s.1 target place children)
    (free : Tree.lookup indexFile children = none) {answer : Unit}
    (h : Answers (rootPage setting target template months) s answer t) :
    ∃ lines modified, (pageRun setting template months none s.1 s.2.shelf).result = some lines ∧
      t.2 = { s.2 with shelf := (pageRun setting template months none s.1 s.2.shelf).state } ∧
      Stands t.1 target place (children ++ [(indexFile, .file (pageBytes lines) modified)]) ∧
      GrownIn place s.1 t.1 := by
  obtain ⟨⟨⟩, u, hold, hrest⟩ := answers_bind_iff.mp h
  obtain ⟨lines, v, hrender, hwrite⟩ := answers_bind_iff.mp hrest
  obtain ⟨disk, hdisk, rfl⟩ := answers_onDisk_iff.mp hold
  rw [stands.not_pathExists_join plainName_indexFile free] at hdisk
  cases hdisk
  obtain ⟨hlines, rfl⟩ := answers_onShelf_iff.mp hrender
  obtain ⟨written, hwritten, rfl⟩ := answers_onDisk_iff.mp hwrite
  obtain ⟨-, standsWritten, grown⟩ := stands.writeNewFile plainName_indexFile hwritten
  exact ⟨lines, _, hlines, rfl, standsWritten, grown⟩

theorem plainName_drawingsDirectory : PlainName PageTarget.drawingsDirectory where
  no_slash := by decide
  step := by decide

theorem loadTemplate_eq_ok_iff {p : Path} {lines : List String} :
    loadTemplate disk p = .ok lines ↔
      ∃ text, disk.readText p = .ok text ∧ lines = Text.splitLines text := by
  unfold loadTemplate
  cases disk.readText p with
  | error e => simp [Except.map]
  | ok text => simp [Except.map, eq_comm]

end Site

end DrawingDiary
