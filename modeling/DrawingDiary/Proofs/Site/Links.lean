import DrawingDiary.Proofs.Diary.Undisturbed
import DrawingDiary.Proofs.Page.Shown
import DrawingDiary.Proofs.Site.Finished
import DrawingDiary.Proofs.Site.Written

/-!
# The links of a finished site

The pages of a site link to the files of each day by way of the link to the diary
(`Opens`). The links to the strip and to the drawings are written with the names of these
files, so they always open. A note's link is written with the name that notes should have,
so it opens when the file has this name: `05` and `5` are the same hour, but not the same
name. In this sense every link of every page opens the right file (`generate_opens_links`),
wherever the target is and also if the run wrote the strips itself.
-/

namespace DrawingDiary

namespace Site

open Attempt
open Disk (Grown Hosts Stands Speakable)
open Naming (HourlyKind IsWrittenMonth thumbnailFile)
open Page (ShownDay ShownFrom IsDayOf HourLink)
open DrawingDiary.Path (PlainName)

variable {setting : Setting} {disk before between after : Disk} {layout : SiteLayout}
  {place : Location} {template : List String} {months : List Month} {s t : Disk × Diary}
  {reader : Reader} {dates : String → Prop} {root : Path}

section Pages

variable {allowed : Disk → Prop} {shelf final : Shelf}
  {pages : List (Option String × List String)}

theorem Renders.exists_shown (h : Renders setting allowed template months shelf pages final)
    (hshelf : ∀ id ∈ months.flatMap (·.days),
      IsDayOf setting.reader allowed dates root (shelf.day id)) :
    ∀ page ∈ pages, ∃ facts : PageFacts, ∃ shown,
      page.2 = Page.shownLines facts.values (.staticPage page.1) template shown ∧
      ∀ days ∈ shown, ∀ day ∈ days, ShownFrom setting.reader allowed dates root day := by
  induction h with
  | nil => exact fun _ hmem => absurd hmem List.not_mem_nil
  | cons hdisk hlines _ ih =>
      obtain ⟨hafter, hshown⟩ :=
        Page.exists_shown_of_renderLines ⟨setting, _⟩ hdisk hshelf hlines
      exact List.forall_mem_cons.mpr ⟨hshown, ih hafter⟩

/-- Where the strips of a diary were seen to that was just opened, what its days remember of notes
was read on the way. -/
theorem isDayOf_materializeThumbnails {settings : DaySettings} {cooldown : Nat}
    (hs : (Diary.materializeThumbnails setting (disk, Diary.new [root] settings cooldown)).state =
      s) :
    ∀ id ∈ s.2.months.flatMap (·.days), IsDayOf setting.reader (Grown · s.1)
      (Diary.holdsDayOn disk · root = true) root (s.2.shelf.day id) := by
  let refreshed := (Diary.new [root] settings cooldown).refresh ⟨setting, disk⟩
  let ids := refreshed.months.flatMap (·.days)
  have hmonths : s.2.months.flatMap (·.days) = ids := by
    rw [← hs, Diary.diary_materializeThumbnails]
  let inv : Disk × Diary → Prop := fun s => ∀ id ∈ ids, IsDayOf setting.reader (Grown · s.1)
    (Diary.holdsDayOn disk · root = true) root (s.2.shelf.day id)
  have hstart : inv (disk, refreshed) := by
    intro id hid
    obtain ⟨date, hdate, hnew⟩ := Diary.exists_date_of_new rfl hid
    rw [hnew]
    exact ⟨hdate, rfl, notesFrom_empty _ _ _ _⟩
  have hstep : ∀ id ∈ refreshed.newestFirst, ∀ s, inv s →
      inv (Diary.createThumbnailFile setting id s).state := by
    rintro id - ⟨now, diary⟩ hinv other hother
    have grown := Day.grown_createThumbnailFile setting now (diary.shelf.day id)
    have hday := (hinv other hother).mono fun _ hgrown => hgrown.trans grown
    change IsDayOf _ _ _ _ ((diary.shelf.replace id (Day.Call.createThumbnailFile.after
      ⟨setting, now⟩ (diary.shelf.day id))).day other)
    rw [Shelf.day_replace]
    split
    next hsame =>
      obtain ⟨rfl, -⟩ := hsame
      exact @IsDayOf.after ⟨setting, now⟩ _ _ _ _ hday grown .createThumbnailFile
    · exact hday
  rw [hmonths, ← hs]
  change inv ((Run.forEach refreshed.newestFirst (Diary.createThumbnailFile setting) >>= _)
    (disk, refreshed)).state
  rw [Run.state_bind_of_keeps _ fun _ _ => rfl]
  exact Run.forEach_invariant inv hstep _ hstart

end Pages

section Opens

/-- Followed from a place, the link ends at the file that the path leads to; it goes through
the link to the diary and beyond that through no more links than the path may. -/
def Opens (disk : Disk) (start : Location) (url : String) (file : Path) : Prop :=
  ∃ place content modified, disk.resolve true file = .ok (.found place) ∧
    disk.at? place = some (.file content modified) ∧
    Disk.walk disk.root true (Disk.linkLimit + 1) start (Path.mk url).steps = .ok (.found place)

/-- Where the page of a month stands, or the page of the newest month. -/
def pagePlace (place : Location) : Option String → Location
  | none => place
  | some month => place ++ [month]

/-- A link of an hour leads to an hourly file: to the drawing, or to the note that has the text
that is shown. To the note it leads when the note has the name that links are written with. -/
def LinkOpens (reader : Reader) (disk : Disk) (date : String) (directory : Path)
    (start : Location) (hour : Hour) : HourLink → Prop
  | .drawing url => ∃ name, IsHourlyFile .image date directory disk hour name ∧
      Opens disk start url (directory.join name)
  | .note url text => ∃ name, IsHourlyFile .event date directory disk hour name ∧
      reader.note disk (directory.join name) = .success text ∧
      (name = Naming.eventFileName date hour.val → Opens disk start url (directory.join name))

/-- What is linked of a day opens: its strip, and the links in the cell of each hour. -/
structure OpensLinks (reader : Reader) (disk : Disk) (root : Path) (start : Location)
    (target : PageTarget) (day : ShownDay) : Prop where
  strip : Opens disk start (day.fileUrl target thumbnailFile)
    ((root.join day.date).join thumbnailFile)
  cell : ∀ hour, ∃ links, day.cell target hour = HourLink.cell links ∧
    ∀ link ∈ links, LinkOpens reader disk day.date (root.join day.date) start hour link

/-- The pages of a site stand in the directory that its target is, beside a link to the diary. -/
structure PagesStand (disk : Disk) (layout : SiteLayout) (place : Location)
    (months : List String) (pages : List (Option String × List String)) : Prop where
  locate_eq : disk.locate layout.targetDirectory = .ok place
  drawings : disk.at? (place ++ [PageTarget.drawingsDirectory]) =
    some (.link layout.diaryDirectory)
  page : ∀ month ∈ months.map some ++ [none], ∃ lines modified, (month, lines) ∈ pages ∧
    disk.at? (pagePlace place month ++ [indexFile]) = some (.file (pageBytes lines) modified)

theorem opens_dayUrl {names : List String} {pages : List (Option String × List String)}
    (site : PagesStand disk layout place names pages)
    (absolute : layout.diaryDirectory.isAbsolute = true) {month : Option String}
    (hmonth : month ∈ names.map some ++ [none]) {date name : String} (hdate : PlainName date)
    (hname : PlainName name)
    (h : disk.isFile ((layout.diaryDirectory.join date).join name) = true) :
    Opens disk (pagePlace place month)
      ((PageTarget.staticPage month).dayUrl date ++ "/" ++ name)
      ((layout.diaryDirectory.join date).join name) := by
  obtain ⟨children, hget, hlink⟩ := Tree.exists_directory_of_get?_snoc site.drawings
  obtain ⟨found, content, modified, hfound, hfile⟩ := Disk.isFile_iff.mp h
  have leads := Disk.leads_behind_link hget hlink (by decide) absolute hdate hname hfound
  have hsteps (path : String) : (Path.mk (PageTarget.dayUrl date (.static path) ++ "/" ++
      name)).steps = (Path.mk path).steps ++
        [.into PageTarget.drawingsDirectory, .into date, .into name] := by
    rw [PageTarget.dayUrl, Path.steps_append_slash, Path.steps_append_slash,
      Path.steps_append_slash, plainName_drawingsDirectory.steps_eq, hdate.steps_eq,
      hname.steps_eq]
    simp
  refine ⟨found, content, modified, hfound, hfile, ?_⟩
  obtain ⟨lines, moment, -, hpage⟩ := site.page month hmonth
  cases month with
  | none =>
      have hstart : PageTarget.staticPage none = .static "." := rfl
      rw [hstart, hsteps]
      exact Disk.Leads.walk_eq (.here hget leads)
  | some other =>
      -- this page stands one directory further down, so its links first go up
      obtain ⟨below, hdirectory, -⟩ := Tree.exists_directory_of_get?_snoc hpage
      have hstart : PageTarget.staticPage (some other) = .static ".." := rfl
      rw [hstart, hsteps]
      refine Disk.Leads.walk_eq (.up hdirectory ?_)
      rw [pagePlace, List.dropLast_concat]
      exact leads

end Opens

section Unchanged

/-- A reader that reads the notes of a disk as before when the disk has only grown. -/
def KeepsNotes (reader : Reader) : Prop :=
  ∀ {before after : Disk} {path : Path} {text : String}, Disk.Grown before after →
    reader.note before path = .success text → reader.note after path = .success text

theorem keepsNotes_files : KeepsNotes .files := by
  intro before after path text grown h
  simp only [Reader.files] at h ⊢
  split at h
  · cases h
  next read hread =>
    cases h
    rw [grown.readText hread]

/-- The drawings and notes of some days of a diary directory are still there, and the notes read
as before. -/
structure KeepsHours (reader : Reader) (dates : String → Prop) (root : Path)
    (before after : Disk) : Prop where
  file : ∀ {kind date hour name}, dates date →
    IsHourlyFile kind date (root.join date) before hour name →
      IsHourlyFile kind date (root.join date) after hour name
  note : ∀ {date hour name text}, dates date →
    IsHourlyFile .event date (root.join date) before hour name →
      reader.note before ((root.join date).join name) = .success text →
        reader.note after ((root.join date).join name) = .success text

theorem KeepsHours.trans (first : KeepsHours reader dates root before between)
    (second : KeepsHours reader dates root between after) :
    KeepsHours reader dates root before after where
  file hdate h := second.file hdate (first.file hdate h)
  note hdate h hread := second.note hdate (first.file hdate h) (first.note hdate h hread)

theorem KeepsNotes.keepsHours (keeps : KeepsNotes reader) (grown : Grown before after) :
    KeepsHours reader dates root before after where
  file _ h := h.of_grown grown
  note _ _ hread := keeps grown hread

/-- A run leaves the drawings and notes of the diary alone: those that are there when the strips
were made, and those that are there when the pages of the months were written. -/
def LeavesHours (setting : Setting) (layout : SiteLayout) (s : Disk × Diary) (summary : Summary)
    (t : Disk × Diary) : Prop :=
  ∀ {shown made linked paged rooted template},
    Course setting layout s summary t shown made linked paged rooted template →
      KeepsHours setting.reader (Diary.holdsDayOn s.1 · layout.diaryDirectory = true)
          layout.diaryDirectory shown.1 t.1 ∧
        KeepsHours setting.reader (Diary.holdsDayOn s.1 · layout.diaryDirectory = true)
          layout.diaryDirectory paged.1 t.1

end Unchanged

/-- The days of a diary directory before a run have their strips after it, and the names in
their directories are plain. -/
structure InOrder (before after : Disk) (root : Path) : Prop where
  strip : ∀ date, Diary.holdsDayOn before date root = true →
    after.isFile ((root.join date).join thumbnailFile) = true
  plain : ∀ date, Diary.holdsDayOn before date root = true → ∀ names,
    after.list (root.join date) = .ok names → ∀ name ∈ names, PlainName name

/-- The links to what is shown of a day open when the days are in order. -/
theorem opensLinks_of_shownFrom {allowed : Disk → Prop} {names : List String}
    {pages : List (Option String × List String)}
    (site : PagesStand after layout place names pages)
    (absolute : layout.diaryDirectory.isAbsolute = true)
    (inOrder : InOrder disk after layout.diaryDirectory)
    (keeps : ∀ seen, allowed seen →
      KeepsHours reader (Diary.holdsDayOn disk · layout.diaryDirectory = true)
        layout.diaryDirectory seen after)
    {month : Option String} (hmonth : month ∈ names.map some ++ [none]) {day : ShownDay}
    (shown : ShownFrom reader allowed (Diary.holdsDayOn disk · layout.diaryDirectory = true)
      layout.diaryDirectory day) :
    OpensLinks reader after layout.diaryDirectory (pagePlace place month)
      (.staticPage month) day := by
  have hdate := Naming.IsWrittenDate.plainName (Diary.holdsDayOn_iff.mp shown.date).1
  have hplain {kind : Naming.HourlyKind} {hour : Hour} {name : String}
      (hfile : IsHourlyFile kind day.date (layout.diaryDirectory.join day.date) after hour name) :
      PlainName name := by
    obtain ⟨listed, hlist, hname⟩ := hfile.listed
    exact inOrder.plain day.date shown.date listed hlist name hname
  have hopens {name : String} :=
    @opens_dayUrl after layout place names pages site absolute month hmonth day.date name hdate
  refine ⟨hopens Naming.plainName_thumbnailFile (inOrder.strip day.date shown.date),
    fun hour => ?_⟩
  obtain ⟨links, hcell, hlinks⟩ := day.exists_links_cell (.staticPage month) hour
  refine ⟨links, hcell, fun link hmem => ?_⟩
  rcases hlinks link hmem with ⟨name, hname, rfl⟩ | ⟨text, htext, rfl⟩
  · obtain ⟨seen, hseen, hfile⟩ := shown.images hour name hname
    have hfile := (keeps seen hseen).file shown.date hfile
    exact ⟨name, hfile, hopens (hplain hfile) hfile.isFile⟩
  · obtain ⟨seen, name, hseen, hfile, hread⟩ := shown.notes hour text htext
    have hread := (keeps seen hseen).note shown.date hfile hread
    have hfile := (keeps seen hseen).file shown.date hfile
    refine ⟨name, hfile, hread, fun hcanonical => ?_⟩
    rw [← hcanonical]
    exact hopens (hplain hfile) hfile.isFile

/-- A page that stands in the site and is put together from days whose links open. -/
def PageOpens (reader : Reader) (disk : Disk) (layout : SiteLayout) (template : List String)
    (place : Location) (month : Option String) : Prop :=
  ∃ lines modified, ∃ facts : PageFacts, ∃ shown : List (List ShownDay),
    disk.at? (pagePlace place month ++ [indexFile]) = some (.file (pageBytes lines) modified) ∧
    lines = Page.shownLines facts.values (.staticPage month) template shown ∧
    ∀ days ∈ shown, ∀ day ∈ days,
      OpensLinks reader disk layout.diaryDirectory (pagePlace place month) (.staticPage month) day

section Run

variable {summary : Summary} {shown made linked paged rooted : Disk × Diary}
  (course : Course setting layout s summary t shown made linked paged rooted template)

include course

/-- A run that answers without a failed month has put all its pages into the target, wherever that
is, and each was rendered before the last page was written. -/
theorem Course.exists_pagesStand (complete : summary.failedMonths = [])
    (written : ∀ month ∈ summary.months, IsWrittenMonth month)
    (nonempty : layout.targetDirectory.text.isEmpty = false) :
    ∃ place pages, PagesStand t.1 layout place summary.months pages ∧
      Renders setting (fun seen => Grown seen paged.1 ∨ Grown seen t.1) template shown.2.months
        shown.2.shelf pages t.2.shelf := by
  obtain ⟨place, lines, modified, changesRoot, hroot, rendersRoot⟩ :=
    exists_onlyChanges_rootPage course.root
  obtain ⟨place', changesDrawings, hdrawings⟩ :=
    exists_onlyChanges_makeLink plainName_drawingsDirectory course.drawings
  obtain rfl := changesDrawings.hosts.unique changesRoot.hosts_after
  obtain ⟨pages, renders, hpages⟩ :=
    exists_renders_monthPages written course.pages changesRoot.hosts (.refl paged.1)
  have grownLast := Disk.grown_of_makeLink course.drawings
  have hshelf : linked.2.shelf = shown.2.shelf := by
    obtain ⟨_, _, _, _, hlinked⟩ := answers_linkTemplate_iff.mp course.links
    rw [hlinked, course.made_eq]
  refine ⟨place', pages ++ [(none, lines)], ⟨?_, hdrawings, fun month hmonth => ?_⟩, ?_⟩
  · obtain ⟨_, _, hresolve, -⟩ := Disk.makeLink_eq_ok_iff.mp course.drawings
    exact changesDrawings.hosts_after.locate_eq
      ((Disk.speakable_of_resolve hresolve).of_join plainName_drawingsDirectory nonempty)
  · rcases List.mem_append.mp hmonth with hsome | hnone
    · obtain ⟨name, hname, rfl⟩ := List.mem_map.mp hsome
      obtain ⟨lines', modified', hmem, hat⟩ := hpages name hname (by simp [complete])
      -- neither of the two last steps changes anything under the name of a month
      have hkept : t.1.root.get? (place' ++ [name]) = paged.1.root.get? (place' ++ [name]) := by
        have hother {other : String} (hlength : other.toList.length ≠ 7) : name ≠ other :=
          fun heq => hlength (heq ▸ (written name hname).length)
        exact (changesDrawings.others name (hother (by decide))).trans
          (changesRoot.others name (hother (by decide)))
      refine ⟨lines', modified', List.mem_append_left _ hmem, ?_⟩
      rw [Disk.at?, Tree.get?_append] at hat ⊢
      rw [pagePlace, hkept]
      exact hat
    · obtain rfl := List.mem_singleton.mp hnone
      exact ⟨lines, modified, List.mem_append_right _ (List.mem_singleton_self _),
        grownLast.file trivial hroot⟩
  · rw [← hshelf, course.diary_eq]
    exact (renders.mono fun _ grown => .inl grown).append
      (rendersRoot.mono fun _ grown => .inr (grown.trans grownLast))

end Run

/-- When all days of the diary are in order and stay so, every page of a site is put together from
days whose links open. -/
theorem generate_opens_links {diaryDirectory template target : Path}
    (absolute : disk.workingDirectory.isAbsolute = true)
    (accepted : SiteLayout.check disk diaryDirectory template target = .ok layout)
    {settings : DaySettings} {cooldown : Nat} {summary : Summary}
    (answers : Answers (generate setting layout)
      (disk, Diary.new [layout.diaryDirectory] settings cooldown) summary t)
    (complete : summary.failedMonths = [])
    (leaves : LeavesHours setting layout
      (disk, Diary.new [layout.diaryDirectory] settings cooldown) summary t)
    (inOrder : InOrder disk t.1 layout.diaryDirectory) (keeps : KeepsNotes setting.reader) :
    ∃ shown made linked paged rooted lines place,
      Course setting layout (disk, Diary.new [layout.diaryDirectory] settings cooldown) summary t
          shown made linked paged rooted lines ∧
        t.1.locate layout.targetDirectory = .ok place ∧
        ∀ month ∈ summary.months.map some ++ [none],
          PageOpens setting.reader t.1 layout lines place month := by
  have absoluteDiary := Path.isAbsolute_of_absolute? absolute (absolute?_places_of_check accepted).1
  have absoluteTarget := Path.isAbsolute_of_absolute? absolute (absolute?_of_check accepted)
  obtain ⟨shown, made, linked, paged, rooted, lines, course⟩ := exists_course answers
  have written : ∀ month ∈ summary.months, IsWrittenMonth month := by
    rw [course.months_eq, ← course.shown_eq, Diary.diary_materializeThumbnails]
    exact (written_months (.refresh ⟨setting, disk⟩ .new)).1
  obtain ⟨place, pages, site, renders⟩ := course.exists_pagesStand complete written
    (Path.nonempty_of_isAbsolute absoluteTarget)
  -- what the pages show was found while the strips were made or the pages were written
  let allowed : Disk → Prop := fun seen => Grown seen shown.1 ∨ Grown seen paged.1 ∨ Grown seen t.1
  have rendersAllowed :
      Renders setting allowed lines shown.2.months shown.2.shelf pages t.2.shelf :=
    renders.mono fun _ => .inr
  have hshown := rendersAllowed.exists_shown fun id hid =>
    (isDayOf_materializeThumbnails course.shown_eq id hid).mono fun _ => .inl
  have hallowed : ∀ seen, allowed seen →
      KeepsHours setting.reader (Diary.holdsDayOn disk · layout.diaryDirectory = true)
        layout.diaryDirectory seen t.1 := by
    rintro seen (grown | grown | grown)
    · exact (keeps.keepsHours grown).trans (leaves course).1
    · exact (keeps.keepsHours grown).trans (leaves course).2
    · exact keeps.keepsHours grown
  refine ⟨shown, made, linked, paged, rooted, lines, place, course, site.locate_eq,
    fun month hmonth => ?_⟩
  obtain ⟨pageLines, modified, hpage, hat⟩ := site.page month hmonth
  obtain ⟨facts, days, hlines, hdays⟩ := hshown _ hpage
  refine ⟨pageLines, modified, facts, days, hat, hlines, fun some hmem day hmem' => ?_⟩
  exact opensLinks_of_shownFrom site absoluteDiary inOrder hallowed hmonth
    (hdays some hmem day hmem')

/-- Where the target is made anew and this takes no drawing and no note away, the run leaves them
alone. -/
theorem leavesHours_of_made {summary : Summary} (keeps : KeepsNotes setting.reader)
    (complete : summary.failedMonths = [])
    (plain : ∀ name ∈ summary.linkedAssets, PlainName name)
    (written : ∀ month ∈ summary.months, IsWrittenMonth month) (distinct : summary.months.Nodup)
    (anew : ∀ {shown made linked paged rooted template},
      Course setting layout s summary t shown made linked paged rooted template →
        (∃ place, Stands made.1 layout.targetDirectory place []) ∧
          KeepsHours setting.reader (Diary.holdsDayOn s.1 · layout.diaryDirectory = true)
            layout.diaryDirectory shown.1 made.1) :
    LeavesHours setting layout s summary t := by
  intro shown made linked paged rooted template course
  obtain ⟨⟨place, stands⟩, keepsMade⟩ := anew course
  obtain ⟨standsLinked, -, grownLinked, -, names, -, hassets⟩ :=
    stands_linkTemplate plain stands course.links
  obtain ⟨pages, directories, wrote⟩ :=
    wrote_monthPages written distinct standsLinked (.inl complete) course.pages
  obtain ⟨_, _, -, -, -, -, grownLast⟩ :=
    course.exists_last written wrote (hassets ▸ indexFile_not_mem_assetNames names)
  have grown := (grownLinked.trans (wrote.grown.trans grownLast)).grown
  exact ⟨keepsMade.trans (keeps.keepsHours grown), keeps.keepsHours grownLast.grown⟩

section Winter

variable (clock : Nat) (strip : List (String × Tree))

theorem stands_novemberMade : Stands (winterMade clock strip []) ⟨"/d/2022-11-01"⟩
    ["d", "2022-11-01"] (novemberDay strip) := ⟨by cbv, by cbv⟩

theorem stands_decemberMade : Stands (winterMade clock strip []) ⟨"/d/2022-12-24"⟩
    ["d", "2022-12-24"] decemberDay := ⟨by cbv, by cbv⟩

theorem cases_of_holdsDayOn_winter {date : String}
    (h : Diary.holdsDayOn (winterDisk clock strip []) date winterLayout.diaryDirectory = true) :
    date = "2022-12-24" ∨ date = "2022-11-01" := by
  obtain ⟨-, ⟨names, hlist, hname⟩, -⟩ := Diary.holdsDayOn_iff.mp h
  have stands : Stands (winterDisk clock strip []) ⟨"/d"⟩ ["d"] _ := ⟨by cbv, rfl⟩
  rw [show winterLayout.diaryDirectory = ⟨"/d"⟩ from rfl, stands.list_eq] at hlist
  cases hlist
  simpa using hname

/-- The names of the files of both days. -/
def winterNames : List String :=
  ["a-2022-11-01-05.png", "event-2022-11-01-5.txt", "rabbit-2022-12-24-7.png", thumbnailFile]

theorem plainName_of_mem_winterNames {name : String} (h : name ∈ winterNames) :
    PlainName name := by
  simp only [winterNames, List.mem_cons, List.not_mem_nil, or_false] at h
  rcases h with rfl | rfl | rfl | rfl <;> exact ⟨by decide, by decide⟩

/-- A directory that holds some of these files, and no others. -/
structure HoldsWinterFiles (disk : Disk) (p : Path) (place : Location)
    (children : List (String × Tree)) : Prop where
  stands : Stands disk p place children
  short : p.text.utf8ByteSize ≤ 100
  known : ∀ name ∈ children.map (·.1), name ∈ winterNames
  file : ∀ name ∈ children.map (·.1), ∃ content modified,
    Tree.lookup name children = some (.file content modified)

section Holds

variable {disk made : Disk} {p : Path} {children : List (String × Tree)}

theorem HoldsWinterFiles.exists_readBytes (holds : HoldsWinterFiles disk p place children)
    {name : String} (h : name ∈ children.map (·.1)) : ∃ content modified,
    Tree.lookup name children = some (.file content modified) ∧
      disk.isFile (p.join name) = true ∧ disk.readBytes (p.join name) = .ok content := by
  have fine : ∀ name ∈ winterNames, '\x00' ∉ name.toList ∧ name.utf8ByteSize ≤ 100 := by decide
  have hlimits : 100 < Disk.nameLimit ∧ 201 < Disk.pathLimit := by decide
  obtain ⟨hzero, hsize⟩ := fine name (holds.known name h)
  obtain ⟨content, modified, hchild⟩ := holds.file name h
  have hshort := holds.short
  have plain := plainName_of_mem_winterNames (holds.known name h)
  have speakable := holds.stands.speakable.join plain hzero (by omega)
  exact ⟨content, modified, hchild, holds.stands.isFile_child plain speakable (by omega) hchild,
    holds.stands.readBytes_child plain speakable (by omega) hchild⟩

/-- What is an hourly file in one such directory is one in another with the same files, and reads
alike. -/
theorem HoldsWinterFiles.hourly (holds : HoldsWinterFiles disk p place children)
    (holds' : HoldsWinterFiles made p place children) {kind : HourlyKind} {date : String}
    {hour : Hour} {name : String} (h : IsHourlyFile kind date p disk hour name) :
    IsHourlyFile kind date p made hour name ∧
      Reader.files.note made (p.join name) = Reader.files.note disk (p.join name) := by
  obtain ⟨names, hlist, hname⟩ := h.listed
  rw [holds.stands.list_eq] at hlist
  cases hlist
  obtain ⟨content, modified, hchild, -, hread⟩ := holds.exists_readBytes hname
  obtain ⟨content', modified', hchild', hfile, hread'⟩ := holds'.exists_readBytes hname
  rw [hchild] at hchild'
  cases hchild'
  refine ⟨⟨⟨_, holds'.stands.list_eq, hname⟩, h.named, hfile⟩, ?_⟩
  simp only [Reader.files, Disk.readText, hread, hread']

end Holds

/-- The directories of both days hold the same files on the disk and when the target was made
anew. -/
theorem exists_holdsWinterFiles {date : String} {content : ByteArray}
    (h : Diary.holdsDayOn (winterDisk 0 [] []) date winterLayout.diaryDirectory = true) :
    let strip := [(thumbnailFile, Tree.file content ⟨0, 0⟩)]
    let directory := winterLayout.diaryDirectory.join date
    ∃ place children, ¬ place <+: ["s"] ∧ thumbnailFile ∈ children.map (·.1) ∧
      HoldsWinterFiles (winterDisk 1 strip []) directory place children ∧
      HoldsWinterFiles (winterMade 1 strip []) directory place children := by
  intro strip directory
  have hdecember : winterLayout.diaryDirectory.join "2022-12-24" = ⟨"/d/2022-12-24"⟩ := by decide
  have hnovember : winterLayout.diaryDirectory.join "2022-11-01" = ⟨"/d/2022-11-01"⟩ := by decide
  have fileDecember : ∀ name ∈ decemberDay.map (·.1), ∃ content modified,
      Tree.lookup name decemberDay = some (.file content modified) := by
    simp only [decemberDay, List.map_cons, List.map_nil, List.forall_mem_cons]
    exact ⟨⟨_, _, rfl⟩, ⟨_, _, rfl⟩, nofun⟩
  have fileNovember : ∀ name ∈ (novemberDay strip).map (·.1), ∃ content modified,
      Tree.lookup name (novemberDay strip) = some (.file content modified) := by
    simp only [novemberDay, strip, List.cons_append, List.nil_append, List.map_cons, List.map_nil,
      List.forall_mem_cons]
    exact ⟨⟨_, _, rfl⟩, ⟨_, _, rfl⟩, ⟨_, _, rfl⟩, nofun⟩
  have knownNovember : ∀ name ∈ (novemberDay strip).map (·.1), name ∈ winterNames := by
    simp only [novemberDay, strip, List.cons_append, List.nil_append, List.map_cons, List.map_nil]
    decide
  rcases cases_of_holdsDayOn_winter 0 [] h with rfl | rfl
  · simp only [directory, hdecember]
    exact ⟨_, _, by decide, by decide,
      ⟨stands_december 1 strip [], by decide, by decide, fileDecember⟩,
      ⟨stands_decemberMade 1 strip, by decide, by decide, fileDecember⟩⟩
  · simp only [directory, hnovember]
    exact ⟨["d", "2022-11-01"], novemberDay strip, by decide, by simp [novemberDay, strip],
      ⟨stands_november 1 strip [], by decide, knownNovember, fileNovember⟩,
      ⟨stands_novemberMade 1 strip, by decide, knownNovember, fileNovember⟩⟩

section Run

variable {content : ByteArray} {summary : Summary} {t : Disk × Diary}

/-- A run that makes the strip of November leaves the drawings and notes of both days alone. -/
theorem leavesHours_winter {diary : Diary} {reads : List Path} {answer : Option (Nat × Nat)}
    (hstrips : Diary.materializeThumbnails plainSetting (winterDisk 0 [] [], plainDiary) =
      ⟨(winterDisk 1 [(thumbnailFile, .file content ⟨0, 0⟩)] [], diary), reads, answer⟩)
    (complete : summary.failedMonths = []) (plain : ∀ name ∈ summary.linkedAssets, PlainName name)
    (written : ∀ month ∈ summary.months, IsWrittenMonth month)
    (distinct : summary.months.Nodup) :
    LeavesHours plainSetting winterLayout (winterDisk 0 [] [], plainDiary) summary t := by
  refine leavesHours_of_made keepsNotes_files complete plain written distinct
    fun {shown made _ _ _ _} course => ?_
  have hshown : shown.1 = winterDisk 1 [(thumbnailFile, .file content ⟨0, 0⟩)] [] := by
    rw [← course.shown_eq, hstrips]
  have hmade : made.1 = winterMade 1 [(thumbnailFile, .file content ⟨0, 0⟩)] [] := by
    rw [course.made_eq, hshown, makeDirectories_winter]
  rw [hshown, hmade]
  refine ⟨⟨_, stands_winterMade _ _ _⟩, fun hdate h => ?_, fun hdate h hread => ?_⟩
  · obtain ⟨place, children, -, -, holds, holds'⟩ := exists_holdsWinterFiles hdate
    exact (holds.hourly holds' h).1
  · obtain ⟨place, children, -, -, holds, holds'⟩ := exists_holdsWinterFiles hdate
    exact (holds.hourly holds' h).2.trans hread

theorem inOrder_winter {after : Disk}
    (grown : Disk.GrownIn ["s"] (winterMade 1 [(thumbnailFile, .file content ⟨0, 0⟩)] []) after) :
    InOrder (winterDisk 0 [] []) after winterLayout.diaryDirectory := by
  refine ⟨fun date hdate => ?_, fun date hdate names hlist name hname => ?_⟩
  · obtain ⟨place, children, -, hstrip, -, holds⟩ := exists_holdsWinterFiles hdate
    obtain ⟨_, _, -, hfile, -⟩ := holds.exists_readBytes hstrip
    exact grown.grown.isFile hfile
  · obtain ⟨place, children, apart, -, -, holds⟩ := exists_holdsWinterFiles hdate
    have hsame := list_of_grownIn (stands_winterMade _ _ _) grown (fun above habove => ?_)
      holds.stands.list_eq
    · rw [hsame] at hlist
      cases hlist
      exact plainName_of_mem_winterNames (holds.known name hname)
    · rw [Disk.locate_eq_ok_iff.mpr (grown.grown.resolve_found holds.stands.resolve_eq)] at habove
      cases habove
      exact apart

end Run

/-- The links of a site open that was made with a new strip, in place of an old site. -/
theorem generate_opens_links_winter :
    let disk := winterDisk 0 [] []
    SiteLayout.check disk ⟨"/d"⟩ ⟨"/t"⟩ ⟨"../s"⟩ = .ok winterLayout ∧
    Diary.holdsDayOn disk "2022-11-01" winterLayout.diaryDirectory = true ∧
    disk.isFile ((winterLayout.diaryDirectory.join "2022-11-01").join thumbnailFile) = false ∧
    ∃ summary t lines place,
      Answers (generate plainSetting winterLayout) (disk, plainDiary) summary t ∧
      summary.months = ["2022-12", "2022-11"] ∧ summary.failedMonths = [] ∧
      InOrder disk t.1 winterLayout.diaryDirectory ∧
      t.1.locate winterLayout.targetDirectory = .ok place ∧
      ∀ month ∈ summary.months.map some ++ [none],
        PageOpens plainSetting.reader t.1 winterLayout lines place month := by
  intro disk
  have accepted := check_winter 0 [] []
  obtain ⟨content, diary, reads, hstrips, hdiary⟩ := exists_strip_winter []
  have hmonths : diary.months.map (·.name) = ["2022-12", "2022-11"] := by
    rw [hdiary, months_winter]
    rfl
  have reached : Diary.Reached [⟨"/d"⟩] { tileWidth := 1, tileHeight := 1 } 0 plainDiary := .new
  obtain ⟨written, newestFirst⟩ := written_months (reached.refresh ⟨plainSetting, disk⟩)
  rw [← hdiary] at written newestFirst
  have hassets : assetNames (indexFile :: ([] : List (String × Tree)).map (·.1)) = [] := by
    simp [assetNames, isAsset]
  obtain ⟨summary, t, answers, grown, hlinked, hnames, hfailed⟩ :=
    exists_answers_winter (congrArg Outcome.result hstrips) (congrArg Outcome.state hstrips)
      hassets rfl (List.forall_mem_nil _) List.not_mem_nil written (newestFirst.imp ne_of_gt)
  have complete : summary.failedMonths = [] := by
    rw [hfailed]
    simp
  have plain : ∀ name ∈ summary.linkedAssets, PlainName name := by simp [hlinked]
  rw [← hnames] at written newestFirst
  have leaves : LeavesHours plainSetting winterLayout (disk, plainDiary) summary t :=
    leavesHours_winter hstrips complete plain written (newestFirst.imp ne_of_gt)
  obtain ⟨shown, made, linked, paged, rooted, lines, place, course, hplace, opens⟩ :=
    generate_opens_links (by decide) accepted answers complete leaves (inOrder_winter grown)
      keepsNotes_files
  refine ⟨accepted, ?_, ?_, summary, t, lines, place, answers, hnames.trans hmonths, complete,
    inOrder_winter grown, hplace, opens⟩
  · have hclaim : ("2022-11-01", (⟨"/d/2022-11-01"⟩ : Path)) ∈ Diary.claimsOn disk [⟨"/d"⟩] := by
      rw [claimsOn_winter]
      exact List.mem_cons_self
    obtain ⟨root, hroot, -⟩ := Diary.mem_claimsOn_iff.mp hclaim
    obtain rfl := List.mem_singleton.mp (List.mem_of_find?_eq_some hroot)
    exact List.find?_some hroot
  · have hjoin : winterLayout.diaryDirectory.join "2022-11-01" = ⟨"/d/2022-11-01"⟩ := by decide
    have stands := stands_november 0 [] []
    rw [hjoin]
    exact stands.isFile_join_of_free Naming.plainName_thumbnailFile
      (stands.speakable.join Naming.plainName_thumbnailFile (by decide) (by decide)) rfl (by decide)

end Winter
end Site

end DrawingDiary
