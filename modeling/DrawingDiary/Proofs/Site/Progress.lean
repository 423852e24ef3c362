import DrawingDiary.Proofs.Disk.Grown
import DrawingDiary.Proofs.Page.Shown
import DrawingDiary.Proofs.Site.Contents

/-!
# When a site is made

A run that makes a site answers just when its steps do, one after the other: `Course` names the
states between them. So it answers when its target could be made anew, the template can be
linked and read, and no read of a note is aborted (`exists_answers_generate`): the names of the
pages and of the link to the diary are free in the new directory then, and nothing else can fail.
-/

namespace DrawingDiary.Site

open Attempt
open Disk (Stands GrownIn Speakable)
open Naming (IsWrittenMonth)
open DrawingDiary.Path (PlainName)

variable {setting : Setting} {layout : SiteLayout} {source target : Path} {place : Location}
  {template : List String} {months : List Month} {children : List (String × Tree)}
  {s t : Disk × Diary} {summary : Summary}

/-- The course of a run that answers, with the states between its steps. -/
structure Course (setting : Setting) (layout : SiteLayout) (s : Disk × Diary)
    (summary : Summary) (t shown made linked paged rooted : Disk × Diary)
    (template : List String) : Prop where
  shown_eq : (Diary.materializeThumbnails setting s).state = shown
  deleted : (shown.1.removeAll layout.targetDirectory).2 = none
  created :
    ((shown.1.removeAll layout.targetDirectory).1.makeDirectories layout.targetDirectory).2 = none
  made_eq : made =
    (((shown.1.removeAll layout.targetDirectory).1.makeDirectories layout.targetDirectory).1,
      shown.2)
  links : Answers (linkTemplate layout.templateDirectory layout.targetDirectory) made
    summary.linkedAssets linked
  template_eq : loadTemplate linked.1 (layout.templateDirectory.join indexFile) = .ok template
  pages : Answers (monthPages setting layout.targetDirectory template shown.2.months
    summary.months) linked summary.failedMonths paged
  root : Answers (rootPage setting layout.targetDirectory template shown.2.months) paged () rooted
  drawings : rooted.1.makeLink (layout.targetDirectory.join PageTarget.drawingsDirectory)
    layout.diaryDirectory = .ok t.1
  diary_eq : t.2 = rooted.2
  months_eq : summary.months = shown.2.months.map (·.name)

theorem exists_course (h : Answers (generate setting layout) s summary t) :
    ∃ shown made linked paged rooted template,
      Course setting layout s summary t shown made linked paged rooted template := by
  obtain ⟨⟨days, created⟩, shown, hstrips, rest₁⟩ := answers_bind_iff.mp h
  obtain ⟨-, hshown⟩ := answers_lift_iff.mp hstrips
  obtain ⟨seen, _, hseen, rest₂⟩ := answers_bind_iff.mp rest₁
  obtain ⟨rfl, rfl⟩ := answers_state_iff.mp hseen
  obtain ⟨⟨⟩, _, hdelete, rest₃⟩ := answers_bind_iff.mp rest₂
  obtain ⟨hdeleted, rfl⟩ := answers_onDiskWith_iff.mp hdelete
  obtain ⟨⟨⟩, made, hcreate, rest₄⟩ := answers_bind_iff.mp rest₃
  obtain ⟨hcreated, hmade⟩ := answers_onDiskWith_iff.mp hcreate
  obtain ⟨assets, linked, hlinks, rest₅⟩ := answers_bind_iff.mp rest₄
  obtain ⟨seen', _, hseen', rest₆⟩ := answers_bind_iff.mp rest₅
  obtain ⟨rfl, rfl⟩ := answers_state_iff.mp hseen'
  simp only at rest₆
  split at rest₆
  next template htemplate =>
    obtain ⟨_, _, hpure, rest₇⟩ := answers_bind_iff.mp rest₆
    obtain ⟨rfl, rfl⟩ := answers_pure_iff.mp hpure
    obtain ⟨failed, paged, hpages, rest₈⟩ := answers_bind_iff.mp rest₇
    obtain ⟨⟨⟩, rooted, hroot, rest₉⟩ := answers_bind_iff.mp rest₈
    obtain ⟨⟨⟩, _, hdiary, rest₁₀⟩ := answers_bind_iff.mp rest₉
    obtain ⟨final, hfinal, rfl⟩ := answers_onDisk_iff.mp hdiary
    obtain ⟨rfl, rfl⟩ := answers_pure_iff.mp rest₁₀
    exact ⟨_, made, _, paged, rooted, _, hshown, hdeleted, hcreated, hmade, hlinks,
      htemplate, hpages, hroot, hfinal, rfl, rfl⟩
  · obtain ⟨_, _, hthrow, -⟩ := answers_bind_iff.mp rest₆
    exact absurd hthrow not_answers_throw

theorem Course.answers {shown made linked paged rooted : Disk × Diary}
    (course : Course setting layout s summary t shown made linked paged rooted template)
    (strips : (Diary.materializeThumbnails setting s).result =
      some (summary.days, summary.thumbnailsCreated))
    (size : summary.diarySize = shown.2.size) : Answers (generate setting layout) s summary t := by
  obtain ⟨days, stripsMade, diarySize, assets, names, failed⟩ := summary
  obtain ⟨final, diary⟩ := t
  obtain rfl : diarySize = shown.2.size := size
  obtain rfl : diary = rooted.2 := course.diary_eq
  obtain rfl : names = shown.2.months.map (·.name) := course.months_eq
  refine answers_bind_iff.mpr ⟨_, _, answers_lift_iff.mpr ⟨strips, course.shown_eq⟩, ?_⟩
  refine answers_bind_iff.mpr ⟨_, _, answers_state_iff.mpr ⟨rfl, rfl⟩, ?_⟩
  refine answers_bind_iff.mpr ⟨(), _, answers_onDiskWith_iff.mpr ⟨course.deleted, rfl⟩, ?_⟩
  refine answers_bind_iff.mpr
    ⟨(), made, answers_onDiskWith_iff.mpr ⟨course.created, course.made_eq⟩, ?_⟩
  refine answers_bind_iff.mpr ⟨_, _, course.links, ?_⟩
  refine answers_bind_iff.mpr ⟨_, _, answers_state_iff.mpr ⟨rfl, rfl⟩, ?_⟩
  simp only [course.template_eq]
  refine answers_bind_iff.mpr ⟨_, _, answers_pure_iff.mpr ⟨rfl, rfl⟩, ?_⟩
  refine answers_bind_iff.mpr ⟨_, _, course.pages, ?_⟩
  refine answers_bind_iff.mpr ⟨(), _, course.root, ?_⟩
  refine answers_bind_iff.mpr ⟨(), _, answers_onDisk_iff.mpr ⟨final, course.drawings, rfl⟩, ?_⟩
  exact answers_pure_iff.mpr ⟨rfl, rfl⟩

/-- No read of a note is ever aborted. -/
def NeverAborts (setting : Setting) : Prop :=
  ∀ disk path, (setting.reader.note disk path).isAborted = false

theorem neverAborts_of_files (h : setting.reader = .files) : NeverAborts setting := by
  intro disk path
  rw [h]
  simp only [Reader.files]
  split <;> rfl

theorem NeverAborts.notesReadable (never : NeverAborts setting) (month : Option String)
    (disk : Disk) :
    Page.NotesReadable ⟨setting, disk⟩ (.staticPage month) := fun _ _ => never

theorem exists_answers_monthPages (never : NeverAborts setting) (names : List String)
    (s : Disk × Diary) :
    ∃ failed t, Answers (monthPages setting target template months names) s failed t := by
  induction names generalizing s with
  | nil => exact ⟨[], s, answers_pure_iff.mpr ⟨rfl, rfl⟩⟩
  | cons month rest ih =>
      obtain ⟨lines, hlines⟩ := Page.completes_renderLines (never.notesReadable (some month) s.1)
        template months (some month) s.2.shelf
      have hmonth : ∃ failed t, Answers (monthPage setting target template months month) s
          failed t :=
        ⟨_, _, answers_bind_iff.mpr ⟨lines, _, answers_onShelf_iff.mpr ⟨hlines, rfl⟩, rfl, rfl⟩⟩
      obtain ⟨first, between, hfirst⟩ := hmonth
      obtain ⟨others, t, hothers⟩ := ih between
      exact ⟨_, t, answers_bind_iff.mpr ⟨first, between, hfirst,
        answers_bind_iff.mpr ⟨others, t, hothers, answers_pure_iff.mpr ⟨rfl, rfl⟩⟩⟩⟩

theorem exists_answers_rootPage (never : NeverAborts setting)
    (stands : Stands s.1 target place children) (free : Tree.lookup indexFile children = none)
    (speakable : Speakable (target.join indexFile)) :
    ∃ t, Answers (rootPage setting target template months) s () t := by
  obtain ⟨lines, hlines⟩ := Page.completes_renderLines (never.notesReadable none s.1)
    template months none s.2.shelf
  obtain ⟨written, hwritten⟩ := stands.exists_writeNewFile plainName_indexFile speakable free
    (by decide) (pageBytes lines)
  refine ⟨(written,
      { s.2 with shelf := (pageRun setting template months none s.1 s.2.shelf).state }),
    answers_bind_iff.mpr ⟨(), s, answers_onDisk_iff.mpr ⟨s.1, ?_, rfl⟩, ?_⟩⟩
  · rw [stands.not_pathExists_join plainName_indexFile free]
    rfl
  · exact answers_bind_iff.mpr ⟨lines, _, answers_onShelf_iff.mpr ⟨hlines, rfl⟩,
      answers_onDisk_iff.mpr ⟨written, hwritten, rfl⟩⟩

/-- Beside the links to the assets and the directories of months, there is room for the last two
names. -/
theorem Wrote.free {assets names failed : List String}
    {pages : List (Option String × List String)} {directories : List (String × Tree)}
    (wrote : Wrote setting target template months place (assets.map (assetEntry source)) names s t
      failed pages directories)
    (written : ∀ name ∈ names, IsWrittenMonth name) {name : String} (hassets : name ∉ assets)
    (hlength : name.toList.length ≠ 7) :
    Tree.lookup name (assets.map (assetEntry source) ++ directories) = none :=
  lookup_of_apart hassets hlength (wrote.isWrittenMonth written) source

/-- Where its two names are free, the page of the newest month is written and the diary is
linked. -/
theorem exists_answers_last (never : NeverAborts setting)
    (stands : Stands s.1 target place children)
    (short : target.text.utf8ByteSize + 20 ≤ Disk.pathLimit)
    (freeIndex : Tree.lookup indexFile children = none)
    (freeDrawings : Tree.lookup PageTarget.drawingsDirectory children = none)
    (diaryDirectory : Path) :
    ∃ rooted final, Answers (rootPage setting target template months) s () rooted ∧
      rooted.1.makeLink (target.join PageTarget.drawingsDirectory) diaryDirectory = .ok final ∧
      GrownIn place s.1 final := by
  have speakable {name : String} (hname : PlainName name) (no_zero : '\x00' ∉ name.toList)
      (hsize : name.utf8ByteSize ≤ 18) : Speakable (target.join name) :=
    stands.speakable.join hname no_zero (by omega)
  obtain ⟨rooted, hroot⟩ := @exists_answers_rootPage setting target place template months
    children s never stands freeIndex (speakable plainName_indexFile (by decide) (by decide))
  obtain ⟨lines, modified, -, -, standsRooted, grownRooted⟩ :=
    stands_rootPage stands freeIndex hroot
  have free : Tree.lookup PageTarget.drawingsDirectory
      (children ++ [(indexFile, .file (pageBytes lines) modified)]) = none := by
    have hindex : PageTarget.drawingsDirectory ≠ indexFile := by decide
    rw [Tree.lookup_append, freeDrawings, Option.none_or, Tree.lookup_eq_none_iff]
    simpa using hindex
  obtain ⟨final, hfinal⟩ := standsRooted.exists_makeLink plainName_drawingsDirectory
    (speakable plainName_drawingsDirectory (by decide) (by decide)) free (by decide)
    diaryDirectory
  obtain ⟨-, -, grownFinal⟩ := standsRooted.makeLink plainName_drawingsDirectory hfinal
  exact ⟨rooted, final, hroot, hfinal, grownRooted.trans grownFinal⟩

/-- A site is made when its target was made anew, its template can be linked and read, and no
read of a note is aborted. -/
theorem exists_answers_generate {shown : Disk × Diary} {made : Disk} {names lines : List String}
    {days stripsMade : Nat} (never : NeverAborts setting)
    (strips : (Diary.materializeThumbnails setting s).result = some (days, stripsMade))
    (hshown : (Diary.materializeThumbnails setting s).state = shown)
    (deleted : (shown.1.removeAll layout.targetDirectory).2 = none)
    (created : (shown.1.removeAll layout.targetDirectory).1.makeDirectories
      layout.targetDirectory = (made, none))
    (stands : Stands made layout.targetDirectory place [])
    (short : layout.targetDirectory.text.utf8ByteSize + 20 ≤ Disk.pathLimit)
    (lists : made.list layout.templateDirectory = .ok names)
    (linked : (linkAssets layout.templateDirectory layout.targetDirectory (assetNames names)
      made).2 = none)
    (plain : ∀ name ∈ assetNames names, PlainName name)
    (apart : PageTarget.drawingsDirectory ∉ assetNames names)
    (loads : loadTemplate made (layout.templateDirectory.join indexFile) = .ok lines)
    (written : ∀ name ∈ shown.2.months.map (·.name), IsWrittenMonth name)
    (distinct : (shown.2.months.map (·.name)).Nodup) :
    ∃ summary t, Answers (generate setting layout) s summary t ∧ GrownIn place made t.1 ∧
      summary.linkedAssets = assetNames names ∧
      summary.months = shown.2.months.map (·.name) ∧
      summary.failedMonths =
        summary.months.filter fun month => (assetNames names).contains month := by
  obtain ⟨before, diary⟩ := shown
  have hlinks : Answers (linkTemplate layout.templateDirectory layout.targetDirectory)
      (made, diary) (assetNames names) _ :=
    answers_linkTemplate_iff.mpr ⟨names, lists, rfl, linked, rfl⟩
  obtain ⟨standsLinked, -, grownLinked, -⟩ := stands_linkTemplate plain stands hlinks
  obtain ⟨failed, paged, hpages⟩ := @exists_answers_monthPages setting layout.targetDirectory lines
    diary.months never (diary.months.map (·.name)) _
  obtain ⟨pages, directories, wrote⟩ :=
    wrote_monthPages written distinct standsLinked (.inr short) hpages
  obtain ⟨rooted, final, hroot, hfinal, grownLast⟩ :=
    @exists_answers_last setting layout.targetDirectory place lines diary.months _ paged never
      wrote.stands short (wrote.free written (indexFile_not_mem_assetNames names) (by decide))
      (wrote.free written apart (by decide)) layout.diaryDirectory
  obtain ⟨text, htext, rfl⟩ := loadTemplate_eq_ok_iff.mp loads
  have course : Course setting layout s
      ⟨days, stripsMade, diary.size, assetNames names, diary.months.map (·.name), failed⟩
      (final, rooted.2) (before, diary) (made, diary) _ paged rooted (Text.splitLines text) :=
    { shown_eq := hshown
      deleted := deleted
      created := congrArg Prod.snd created
      made_eq := Prod.ext (congrArg Prod.fst created).symm rfl
      links := hlinks
      template_eq := loadTemplate_eq_ok_iff.mpr ⟨text, grownLinked.grown.readText htext, rfl⟩
      pages := hpages
      root := hroot
      drawings := hfinal
      diary_eq := rfl
      months_eq := rfl }
  refine ⟨_, _, course.answers strips rfl,
    grownLinked.trans (wrote.grown.trans grownLast), rfl, rfl, ?_⟩
  exact wrote.failed_eq.trans (List.filter_congr fun month _ =>
    (contains_eq_isSome_lookup layout.templateDirectory _ month).symm)

end DrawingDiary.Site
