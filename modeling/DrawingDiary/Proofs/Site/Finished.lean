import DrawingDiary.Proofs.Diary.Strips
import DrawingDiary.Proofs.Diary.Undisturbed
import DrawingDiary.Proofs.Site.Progress

/-!
# The finished site

When making a site answers, its target is a new directory, and what is in there is
determined by the template and the diary (`generate_makes_site`): the links to the assets
of the template, a directory for each month whose name is no asset's, with nothing but its
page, the page of the newest month and the link to the diary. This needs that each `..` in the
path of the target comes behind a directory that is there without the old target
(`Disk.UpsLead`): from something that was missing, the path may go up to an old directory, which
is then kept with all that it holds.
-/

namespace DrawingDiary

namespace Site

open Attempt
open Disk (Stands GrownIn UpsLead)
open Naming (IsWrittenMonth thumbnailFile)
open DrawingDiary.Path (PlainName moving)

variable {setting : Setting} {disk made after : Disk} {layout : SiteLayout}
  {source target : Path} {place : Location} {children : List (String × Tree)}
  {s t : Disk × Diary}

/-- A directory that is not above the target lists what it listed when the target was still
empty. -/
theorem list_of_grownIn (stands : Stands made target place []) (grown : GrownIn place made after)
    (apart : ∀ above, after.locate source = .ok above → ¬ above <+: place)
    {names : List String} (h : made.list source = .ok names) : after.list source = .ok names := by
  obtain ⟨above, more, hresolve, hget, rfl⟩ := Disk.list_eq_ok_iff.mp h
  have hafter := grown.grown.resolve_found hresolve
  have notAbove : ¬ above <+: place := apart above (Disk.locate_eq_ok_iff.mpr hafter)
  have notBelow : ¬ place <+: above := by
    rintro ⟨rest, rfl⟩
    cases rest with
    | nil =>
        rw [List.append_nil] at notAbove
        exact notAbove (List.prefix_refl place)
    | cons name rest =>
        have hnone := Tree.get?_append place (name :: rest) made.root
        rw [stands.directory] at hnone
        rw [Disk.IsDirectoryAt, hnone] at hget
        cases hget
  refine Disk.list_eq_ok_iff.mpr ⟨above, more, hafter, ?_, rfl⟩
  exact (grown.beside.at?_eq notBelow notAbove).trans hget

/-- The target of a site holds the links to the assets, a directory with one page for each of
some months, the page of the newest month and the link to the diary, and nothing else. -/
structure SiteStands (disk : Disk) (layout : SiteLayout) (place : Location)
    (assets months : List String) (pages : List (Option String × List String)) : Prop where
  locate_eq : disk.locate layout.targetDirectory = .ok place
  list_eq : disk.list layout.targetDirectory =
    .ok (assets ++ months ++ [indexFile, PageTarget.drawingsDirectory])
  distinct : (assets ++ months ++ [indexFile, PageTarget.drawingsDirectory]).Nodup
  asset : ∀ name ∈ assets,
    disk.at? (place ++ [name]) = some (.link (layout.templateDirectory.join name))
  monthPage : ∀ month ∈ months, ∃ lines modified, (some month, lines) ∈ pages ∧
    disk.at? (place ++ [month]) =
      some (.directory [(indexFile, .file (pageBytes lines) modified)])
  rootPage : ∃ lines modified, (none, lines) ∈ pages ∧
    disk.at? (place ++ [indexFile]) = some (.file (pageBytes lines) modified)
  drawings : disk.at? (place ++ [PageTarget.drawingsDirectory]) =
    some (.link layout.diaryDirectory)

/-- What making a site puts into its target, in order. -/
def siteChildren (layout : SiteLayout) (assets : List String) (written : List (String × Tree))
    (page : Tree) : List (String × Tree) :=
  assets.map (assetEntry layout.templateDirectory) ++ written ++ [(indexFile, page)] ++
    [(PageTarget.drawingsDirectory, .link layout.diaryDirectory)]

theorem names_siteChildren (layout : SiteLayout) (assets : List String)
    (written : List (String × Tree)) (page : Tree) :
    (siteChildren layout assets written page).map (·.1) =
      assets ++ written.map (·.1) ++ [indexFile, PageTarget.drawingsDirectory] := by
  simp only [siteChildren, List.map_append, map_assetEntry, List.append_assoc]
  rfl

theorem siteStands_of_stands {assets : List String} {written : List (String × Tree)}
    {pages : List (Option String × List String)} {lines : List String} {modified : Timestamp}
    (stands : Stands disk layout.targetDirectory place
      (siteChildren layout assets written (.file (pageBytes lines) modified)))
    (distinct : (assets ++ written.map (·.1) ++
      [indexFile, PageTarget.drawingsDirectory]).Nodup)
    (directory : ∀ entry ∈ written, IsMonthDirectory pages entry) (root : (none, lines) ∈ pages) :
    SiteStands disk layout place assets (written.map (·.1)) pages := by
  have hnames := names_siteChildren layout assets written (.file (pageBytes lines) modified)
  have hat {name : String} {t : Tree}
      (hmem : (name, t) ∈ siteChildren layout assets written (.file (pageBytes lines) modified)) :
      disk.at? (place ++ [name]) = some t := by
    rw [Disk.at?, Tree.get?_snoc stands.directory]
    exact Tree.lookup_eq_some_of_mem (hnames ▸ distinct) hmem
  refine ⟨Disk.locate_eq_ok_iff.mpr stands.resolve_eq, ?_, distinct, ?_, ?_, ?_, ?_⟩
  · rw [stands.list_eq, hnames]
  · intro name hname
    refine hat ?_
    simp only [siteChildren, List.mem_append, List.mem_map]
    exact .inl (.inl (.inl ⟨name, hname, rfl⟩))
  · intro month hmonth
    obtain ⟨entry, hentry, rfl⟩ := List.mem_map.mp hmonth
    obtain ⟨pageLines, moment, hpage, htree⟩ := directory entry hentry
    refine ⟨pageLines, moment, hpage, hat ?_⟩
    rw [← htree]
    simp only [siteChildren, List.mem_append]
    exact .inl (.inl (.inr hentry))
  · exact ⟨lines, modified, root, hat (by simp [siteChildren])⟩
  · exact hat (by simp [siteChildren])

/-- How a finished site comes from the template and the diary. -/
structure IsSiteOf (setting : Setting) (layout : SiteLayout) (s : Disk × Diary)
    (summary : Summary) (t : Disk × Diary) (place : Location)
    (pages : List (Option String × List String)) : Prop where
  assets : ∃ names, t.1.list layout.templateDirectory = .ok names ∧
    summary.linkedAssets = assetNames names
  diary_eq : t.2 = { s.2.refresh { toSetting := setting, disk := s.1 } with shelf := t.2.shelf }
  months_eq : summary.months = t.2.months.map (·.name)
  newestFirst : summary.months.Pairwise fun newer older => older < newer
  failed_eq : summary.failedMonths =
    summary.months.filter fun month => summary.linkedAssets.contains month
  stands : SiteStands t.1 layout place summary.linkedAssets
    (summary.months.filter fun month => !summary.linkedAssets.contains month) pages
  pages_eq : pages.map (·.1) = summary.months.map some ++ [none]
  renders : ∃ text, t.1.readText (layout.templateDirectory.join indexFile) = .ok text ∧
    Renders setting (GrownIn place · t.1) (Text.splitLines text) t.2.months
      (Diary.materializeThumbnails setting s).state.2.shelf pages t.2.shelf

theorem written_months {roots : List Path} {settings : DaySettings} {cooldown : Nat}
    {diary : Diary} (reached : Diary.Reached roots settings cooldown diary) :
    (∀ name ∈ diary.months.map (·.name), IsWrittenMonth name) ∧
      (diary.months.map (·.name)).Pairwise fun newer older => older < newer := by
  refine ⟨fun name hname => ?_, List.pairwise_map.mpr reached.pairwise_months⟩
  obtain ⟨month, hmonth, rfl⟩ := List.mem_map.mp hname
  obtain ⟨entry, hentry, hmonthOf⟩ := mem_monthNames.mp (reached.exists_membersOf hmonth).1
  rw [← hmonthOf]
  exact (reached.dated.written entry hentry).isWrittenMonth

/-- What a run has put into its new target, and how the pages there were rendered. -/
structure Fills (setting : Setting) (layout : SiteLayout) (summary : Summary)
    (made t : Disk × Diary) (place : Location) (pages : List (Option String × List String)) :
    Prop where
  assets : ∃ names, made.1.list layout.templateDirectory = .ok names ∧
    summary.linkedAssets = assetNames names
  failed_eq : summary.failedMonths =
    summary.months.filter fun month => summary.linkedAssets.contains month
  stands : SiteStands t.1 layout place summary.linkedAssets
    (summary.months.filter fun month => !summary.linkedAssets.contains month) pages
  pages_eq : pages.map (·.1) = summary.months.map some ++ [none]
  grown : GrownIn place made.1 t.1
  diary_eq : t.2 = { made.2 with shelf := t.2.shelf }
  renders : ∃ text, t.1.readText (layout.templateDirectory.join indexFile) = .ok text ∧
    Renders setting (GrownIn place · t.1) (Text.splitLines text) made.2.months made.2.shelf pages
      t.2.shelf

section Fills

variable {summary : Summary} {shown made linked paged rooted : Disk × Diary}
  {lines : List String} {pages : List (Option String × List String)}
  {directories : List (String × Tree)}
  (course : Course setting layout s summary t shown made linked paged rooted lines)
  (written : ∀ month ∈ summary.months, IsWrittenMonth month)
  (wrote : Wrote setting layout.targetDirectory lines shown.2.months place
    (summary.linkedAssets.map (assetEntry layout.templateDirectory)) summary.months linked paged
    summary.failedMonths pages directories)

include wrote in
theorem failed_eq_of_wrote : summary.failedMonths =
    summary.months.filter fun month => summary.linkedAssets.contains month :=
  wrote.failed_eq.trans (List.filter_congr fun month _ =>
    (contains_eq_isSome_lookup layout.templateDirectory _ month).symm)

include wrote in
theorem directories_eq_of_wrote : directories.map (·.1) =
    summary.months.filter fun month => !summary.linkedAssets.contains month := by
  refine wrote.written_eq.trans (List.filter_congr fun month _ => ?_)
  rw [contains_eq_isSome_lookup layout.templateDirectory, Option.not_isSome]

include course written wrote in
/-- After the months, the page of the newest month and the link to the diary come to the site. -/
theorem Course.exists_last (free : indexFile ∉ summary.linkedAssets) :
    ∃ rootLines modified,
      (pageRun setting lines shown.2.months none paged.1 paged.2.shelf).result = some rootLines ∧
      t.2 = { paged.2 with shelf :=
        (pageRun setting lines shown.2.months none paged.1 paged.2.shelf).state } ∧
      Stands t.1 layout.targetDirectory place (siteChildren layout summary.linkedAssets directories
        (.file (pageBytes rootLines) modified)) ∧
      PageTarget.drawingsDirectory ∉ summary.linkedAssets ∧ GrownIn place paged.1 t.1 := by
  obtain ⟨rootLines, modified, hrendered, hdiary, standsRooted, grownRooted⟩ :=
    stands_rootPage wrote.stands (wrote.free written free (by decide)) course.root
  obtain ⟨freeDrawings, standsFinal, grownFinal⟩ :=
    standsRooted.makeLink plainName_drawingsDirectory course.drawings
  refine ⟨rootLines, modified, hrendered, course.diary_eq.trans hdiary, standsFinal, ?_,
    grownRooted.trans grownFinal⟩
  rw [Tree.lookup_eq_none_iff, List.map_append, List.map_append, map_assetEntry,
    List.mem_append, List.mem_append, not_or, not_or] at freeDrawings
  exact freeDrawings.1.1

include written wrote in
theorem nodup_siteNames (distinctAssets : summary.linkedAssets.Nodup)
    (distinct : summary.months.Nodup) (freeIndex : indexFile ∉ summary.linkedAssets)
    (freeDrawings : PageTarget.drawingsDirectory ∉ summary.linkedAssets) :
    (summary.linkedAssets ++ directories.map (·.1) ++
      [indexFile, PageTarget.drawingsDirectory]).Nodup := by
  have hmonths := directories_eq_of_wrote wrote
  have hlength {name : String} (hname : name ∈ directories.map (·.1)) :
      name.toList.length = 7 := by
    obtain ⟨entry, hentry, rfl⟩ := List.mem_map.mp hname
    exact (wrote.isWrittenMonth written entry hentry).length
  refine List.Nodup.append (distinctAssets.append (hmonths ▸ distinct.filter _) ?_) (by decide) ?_
  · intro name hasset hname
    rw [hmonths] at hname
    simp [hasset] at hname
  · intro name hname hlast
    rcases List.mem_append.mp hname with hasset | hmonth
    · rcases List.mem_pair.mp hlast with rfl | rfl
      · exact freeIndex hasset
      · exact freeDrawings hasset
    · have h := hlength hmonth
      rcases List.mem_pair.mp hlast with rfl | rfl <;> exact absurd h (by decide)

include course in
theorem Course.exists_fills (stands : Stands made.1 layout.targetDirectory place [])
    (plain : ∀ name ∈ summary.linkedAssets, PlainName name)
    (written : ∀ month ∈ summary.months, IsWrittenMonth month)
    (newestFirst : summary.months.Pairwise fun newer older => older < newer)
    (sure : summary.failedMonths = [] ∨
      layout.targetDirectory.text.utf8ByteSize + 20 ≤ Disk.pathLimit) :
    ∃ pages, Fills setting layout summary made t place pages := by
  have distinct : summary.months.Nodup := newestFirst.imp ne_of_gt
  obtain ⟨standsLinked, distinctAssets, grownLinked, hdiaryLinked, names, hlist, hassets⟩ :=
    stands_linkTemplate plain stands course.links
  have freeIndex : indexFile ∉ summary.linkedAssets :=
    hassets ▸ indexFile_not_mem_assetNames names
  obtain ⟨pages, directories, wrote⟩ :=
    wrote_monthPages written distinct standsLinked sure course.pages
  obtain ⟨rootLines, modified, hrendered, hdiary, standsFinal, freeDrawings, grownLast⟩ :=
    course.exists_last written wrote freeIndex
  have hmade : made.2.months = shown.2.months ∧ made.2.shelf = linked.2.shelf := by
    rw [hdiaryLinked, course.made_eq]
    exact ⟨rfl, rfl⟩
  obtain ⟨text, htext, rfl⟩ := loadTemplate_eq_ok_iff.mp course.template_eq
  refine ⟨pages ++ [(none, rootLines)], ⟨names, hlist, hassets⟩, failed_eq_of_wrote wrote, ?_, ?_,
    grownLinked.trans (wrote.grown.trans grownLast), ?_, text, ?_, ?_⟩
  · rw [← directories_eq_of_wrote wrote]
    refine siteStands_of_stands standsFinal
      (nodup_siteNames written wrote distinctAssets distinct freeIndex freeDrawings)
      (fun entry hentry => ?_) (by simp)
    obtain ⟨pageLines, moment, hpage, htree⟩ := wrote.directory entry hentry
    exact ⟨pageLines, moment, List.mem_append_left _ hpage, htree⟩
  · rw [List.map_append, wrote.pages_eq]
    rfl
  · rw [hdiary, wrote.diary_eq, hdiaryLinked]
  · exact (wrote.grown.trans grownLast).grown.readText htext
  · rw [hmade.1, hmade.2, hdiary]
    exact (wrote.renders.mono fun _ grown => grown.trans grownLast).append
      (.cons grownLast hrendered .nil)

end Fills

/-- The disk on which a run deletes its target: with the strips of all days. -/
def withStrips (setting : Setting) (s : Disk × Diary) : Disk :=
  (Diary.materializeThumbnails setting s).state.1

/-- The disk on which a run makes its target: without what was there before. -/
def withoutTarget (setting : Setting) (layout : SiteLayout) (s : Disk × Diary) : Disk :=
  ((withStrips setting s).removeAll layout.targetDirectory).1

theorem exists_fills_of_check {diaryDirectory template target : Path}
    (absolute : disk.workingDirectory.isAbsolute = true)
    (accepted : SiteLayout.check disk diaryDirectory template target = .ok layout)
    {roots : List Path} {settings : DaySettings} {cooldown : Nat} {diary : Diary}
    (ups : UpsLead (withoutTarget setting layout (disk, diary)).root
      (moving layout.targetDirectory.steps))
    (reached : Diary.Reached roots settings cooldown diary) {summary : Summary}
    (answers : Answers (generate setting layout) (disk, diary) summary t)
    (plain : ∀ name ∈ summary.linkedAssets, PlainName name)
    (sure : summary.failedMonths = [] ∨
      layout.targetDirectory.text.utf8ByteSize + 20 ≤ Disk.pathLimit) :
    ∃ made place pages, Stands made.1 layout.targetDirectory place [] ∧
      made.2 = (Diary.materializeThumbnails setting (disk, diary)).state.2 ∧
      summary.months = made.2.months.map (·.name) ∧
      summary.months.Pairwise (fun newer older => older < newer) ∧
      Fills setting layout summary made t place pages := by
  have absoluteTarget := Path.isAbsolute_of_absolute? absolute (absolute?_of_check accepted)
  obtain ⟨shown, made, linked, paged, rooted, lines, course⟩ := exists_course answers
  obtain ⟨place, stands⟩ : ∃ place, Stands made.1 layout.targetDirectory place [] := by
    rw [withoutTarget, withStrips, course.shown_eq] at ups
    rw [course.made_eq]
    exact Disk.exists_stands_of_renewed absoluteTarget ups course.deleted course.created
  have hmonths : summary.months =
      (diary.refresh { toSetting := setting, disk := disk }).months.map (·.name) := by
    rw [course.months_eq, ← course.shown_eq, Diary.diary_materializeThumbnails]
  obtain ⟨written, newestFirst⟩ :=
    written_months (.refresh { toSetting := setting, disk := disk } reached)
  rw [← hmonths] at written newestFirst
  obtain ⟨pages, fills⟩ := course.exists_fills stands plain written newestFirst sure
  refine ⟨made, place, pages, stands, ?_, ?_, newestFirst, fills⟩
  · rw [course.made_eq, course.shown_eq]
  · rw [course.made_eq, course.months_eq]

/-- When making a site answers, the site is determined by the template and the diary. -/
theorem generate_makes_site {diaryDirectory template target : Path}
    (absolute : disk.workingDirectory.isAbsolute = true)
    (accepted : SiteLayout.check disk diaryDirectory template target = .ok layout)
    {roots : List Path} {settings : DaySettings} {cooldown : Nat} {diary : Diary}
    (ups : UpsLead (withoutTarget setting layout (disk, diary)).root
      (moving layout.targetDirectory.steps))
    (short : layout.targetDirectory.text.utf8ByteSize + 20 ≤ Disk.pathLimit)
    (reached : Diary.Reached roots settings cooldown diary) {summary : Summary}
    (answers : Answers (generate setting layout) (disk, diary) summary t)
    (plain : ∀ name ∈ summary.linkedAssets, PlainName name)
    (apart : ∀ above place, t.1.locate layout.templateDirectory = .ok above →
      t.1.locate layout.targetDirectory = .ok place → ¬ above <+: place) :
    ∃ place pages, IsSiteOf setting layout (disk, diary) summary t place pages := by
  obtain ⟨made, place, pages, stands, hmade, hmonths, newestFirst, fills⟩ :=
    exists_fills_of_check absolute accepted ups reached answers plain (.inr short)
  obtain ⟨names, hlist, hassets⟩ := fills.assets
  have hlistFinal : t.1.list layout.templateDirectory = .ok names :=
    list_of_grownIn stands fills.grown
      (fun above habove => apart above place habove fills.stands.locate_eq) hlist
  have hdiary := fills.diary_eq
  refine ⟨place, pages, ⟨names, hlistFinal, hassets⟩, ?_, ?_, newestFirst, fills.failed_eq,
    fills.stands, fills.pages_eq, ?_⟩
  · rw [hdiary, hmade]
    exact congrArg (fun diary : Diary => { diary with shelf := t.2.shelf })
      (Diary.diary_materializeThumbnails setting disk diary)
  · rw [hdiary]
    exact hmonths
  · rw [hdiary, ← hmade]
    exact fills.renders

section Winter

/-- A style sheet, and a directory that is named like a month. -/
def winterAssets : List (String × Tree) := [("main.css", emptyFile), ("2022-11", .directory [])]

/-- The disk when the target was made anew. -/
def winterMade (clock : Nat) (strip assets : List (String × Tree)) : Disk where
  root := .directory [
    ("d", .directory [("2022-12-24", .directory decemberDay),
      ("2022-11-01", .directory (novemberDay strip))]),
    ("t", .directory ((indexFile, .file dayTemplate.toUTF8 ⟨0, 0⟩) :: assets)),
    ("s", .directory [])]
  workingDirectory := ⟨"/d"⟩
  clock := clock

theorem removeAll_winter (clock : Nat) (strip assets : List (String × Tree)) :
    ((winterDisk clock strip assets).removeAll winterLayout.targetDirectory).2 = none := by
  cbv

theorem makeDirectories_winter (clock : Nat) (strip assets : List (String × Tree)) :
    ((winterDisk clock strip assets).removeAll winterLayout.targetDirectory).1.makeDirectories
      winterLayout.targetDirectory = (winterMade clock strip assets, none) := by
  cbv

theorem stands_winterMade (clock : Nat) (strip assets : List (String × Tree)) :
    Stands (winterMade clock strip assets) winterLayout.targetDirectory ["s"] [] := ⟨by cbv, by cbv⟩

theorem stands_templateMade (clock : Nat) (strip assets : List (String × Tree)) :
    Stands (winterMade clock strip assets) ⟨"/t"⟩ ["t"]
      ((indexFile, .file dayTemplate.toUTF8 ⟨0, 0⟩) :: assets) := ⟨by cbv, by cbv⟩

theorem loadTemplate_winterMade (clock : Nat) (strip assets : List (String × Tree)) :
    loadTemplate (winterMade clock strip assets) (winterLayout.templateDirectory.join indexFile) =
      .ok (Text.splitLines dayTemplate) := by
  have stands := stands_templateMade clock strip assets
  exact loadTemplate_eq_ok_iff.mpr ⟨_, stands.readText_child plainName_indexFile
    (stands.speakable.join plainName_indexFile (by decide) (by decide)) (by decide) rfl, rfl⟩

theorem assetNames_winter :
    assetNames [indexFile, "main.css", "2022-11"] = ["2022-11", "main.css"] := by
  have hmain : isAsset "main.css" = true := by decide
  have hmonth : isAsset "2022-11" = true := by decide
  have hindex : isAsset indexFile = false := by decide
  have hfirst : indexFile ≤ "main.css" := by decide
  have hlast : ¬ indexFile ≤ "2022-11" := by decide
  simp [assetNames, List.mergeSort, List.MergeSort.Internal.splitInTwo, hmain, hmonth, hindex,
    hfirst, hlast]

theorem plainName_winter {name : String} (h : name ∈ ["2022-11", "main.css"]) : PlainName name := by
  simp only [List.mem_cons, List.not_mem_nil, or_false] at h
  rcases h with rfl | rfl <;> exact ⟨by decide, by decide⟩

theorem linkAssets_winter :
    (linkAssets ⟨"/t"⟩ winterLayout.targetDirectory ["2022-11", "main.css"]
      (winterMade 0 novemberStrip winterAssets)).2 = none := by
  have stands := stands_winterMade 0 novemberStrip winterAssets
  refine linkAssets_eq_none (fun _ => plainName_winter) (fun name h => ?_) (by decide) stands
    (by decide)
  refine stands.speakable.join (plainName_winter h) ?_ ?_
  · simp only [List.mem_cons, List.not_mem_nil, or_false] at h
    rcases h with rfl | rfl <;> decide
  · simp only [List.mem_cons, List.not_mem_nil, or_false] at h
    rcases h with rfl | rfl <;> decide

theorem front_winter {front more : List Path.Step}
    (h : moving winterLayout.targetDirectory.steps = front ++ .up :: more) :
    front = [.into "d"] := by
  have hsteps : moving winterLayout.targetDirectory.steps = [.into "d", .up, .into "s"] := by cbv
  rw [hsteps] at h
  rcases front with _ | ⟨first, _ | ⟨second, _ | ⟨third, rest⟩⟩⟩ <;> simp at h
  rw [h.1]

theorem upsLead_winter (clock : Nat) (strip assets : List (String × Tree)) :
    UpsLead ((winterDisk clock strip assets).removeAll winterLayout.targetDirectory).1.root
      (moving winterLayout.targetDirectory.steps) := by
  have hd : Disk.directoryAlong ((winterDisk clock strip assets).removeAll
      winterLayout.targetDirectory).1.root [.into "d"] = some ["d"] := by cbv
  intro front more h
  rw [front_winter h, hd]
  exact Option.some_ne_none _

theorem exists_answers_winter {before : Disk × Diary} {diary : Diary} {days created : Nat}
    {clock : Nat} {strip assets : List (String × Tree)} {names : List String}
    (hresult : (Diary.materializeThumbnails plainSetting before).result = some (days, created))
    (hstate : (Diary.materializeThumbnails plainSetting before).state =
      (winterDisk clock strip assets, diary))
    (hnames : assetNames (indexFile :: assets.map (·.1)) = names)
    (linked : (linkAssets ⟨"/t"⟩ winterLayout.targetDirectory names
      (winterMade clock strip assets)).2 = none)
    (plain : ∀ name ∈ names, PlainName name) (apart : PageTarget.drawingsDirectory ∉ names)
    (written : ∀ name ∈ diary.months.map (·.name), IsWrittenMonth name)
    (distinct : (diary.months.map (·.name)).Nodup) :
    ∃ summary t, Answers (generate plainSetting winterLayout) before summary t ∧
      GrownIn ["s"] (winterMade clock strip assets) t.1 ∧ summary.linkedAssets = names ∧
      summary.months = diary.months.map (·.name) ∧
      summary.failedMonths = summary.months.filter fun month => names.contains month := by
  subst hnames
  exact exists_answers_generate (neverAborts_of_files rfl) hresult hstate (removeAll_winter _ _ _)
    (makeDirectories_winter _ _ _) (stands_winterMade _ _ _) (by decide)
    (stands_templateMade _ _ _).list_eq linked plain apart (loadTemplate_winterMade _ _ _) written
    distinct

/-- The target and the template are where they were when the target was made anew. -/
theorem locate_winter {clock : Nat} {strip assets : List (String × Tree)} {after : Disk}
    (grown : Disk.Grown (winterMade clock strip assets) after) :
    after.locate winterLayout.targetDirectory = .ok ["s"] ∧
      after.locate winterLayout.templateDirectory = .ok ["t"] := by
  constructor
  · exact Disk.locate_eq_ok_iff.mpr (grown.resolve_found (stands_winterMade _ _ _).resolve_eq)
  · exact Disk.locate_eq_ok_iff.mpr (grown.resolve_found (stands_templateMade _ _ _).resolve_eq)

theorem months_winter (clock : Nat) (strip assets : List (String × Tree)) :
    (plainDiary.refresh ⟨plainSetting, winterDisk clock strip assets⟩).months =
      [⟨"2022-12", [1]⟩, ⟨"2022-11", [0]⟩] := by
  have reached : Diary.Reached [⟨"/d"⟩] { tileWidth := 1, tileHeight := 1 } 0
    (plainDiary.refresh ⟨plainSetting, winterDisk clock strip assets⟩) := .refresh _ .new
  have hnovember : Naming.monthOf "2022-11-01" = "2022-11" := by decide
  have hdecember : Naming.monthOf "2022-12-24" = "2022-12" := by decide
  rw [reached.months_eq, (refresh_winter clock strip assets).1]
  simp [groupByMonth_eq, monthNames, membersOf, hnovember, hdecember, List.eraseDups_cons,
    List.mergeSort]

theorem exists_strip_winter (assets : List (String × Tree)) : ∃ content diary reads,
    Diary.materializeThumbnails plainSetting (winterDisk 0 [] assets, plainDiary) =
        ⟨(winterDisk 1 [(thumbnailFile, .file content ⟨0, 0⟩)] assets, diary), reads, some (2, 1)⟩ ∧
      diary.months = (plainDiary.refresh ⟨plainSetting, winterDisk 0 [] assets⟩).months := by
  let disk := winterDisk 0 [] assets
  obtain ⟨refreshed, hrefresh⟩ : ∃ refreshed, plainDiary.refresh ⟨plainSetting, disk⟩ = refreshed :=
    ⟨_, rfl⟩
  have hids : refreshed.newestFirst = [1, 0] := hrefresh ▸ newestFirst_winter 0 [] assets
  have hshelf := hrefresh ▸ (refresh_winter 0 [] assets).2
  have hdecember : Diary.createThumbnailFile plainSetting 1 (disk, refreshed) =
      ⟨(disk, refreshed), [], some false⟩ := by
    refine Diary.createThumbnailFile_of_isFile ?_
    rw [hshelf]
    exact isFile_decemberStrip 0 [] assets
  have stands := stands_november 0 [] assets
  have never : View.NeverAborts ⟨plainSetting, disk⟩ := View.neverAborts_files 0 disk
  obtain ⟨after, reads, hday, -⟩ := Day.createThumbnailFile_of_free
    (Day.undisturbed_new "2022-11-01" ⟨"/d/2022-11-01"⟩ plainDiary.settings)
    ⟨by decide, by decide, by decide, by decide⟩ never stands
    (stands.speakable.join Naming.plainName_thumbnailFile (by decide) (by decide)) rfl
  have hwritten : disk.putFile ["d", "2022-11-01", thumbnailFile] after.images.thumbnail =
      winterDisk 1 [(thumbnailFile, .file after.images.thumbnail ⟨0, 0⟩)] assets := by cbv
  have hnovember : Diary.createThumbnailFile plainSetting 0 (disk, refreshed) =
      ⟨(winterDisk 1 [(thumbnailFile, .file after.images.thumbnail ⟨0, 0⟩)] assets,
        { refreshed with shelf := refreshed.shelf.replace 0 after }), reads, some true⟩ := by
    have hnew : refreshed.shelf.day 0 =
        Day.new "2022-11-01" ⟨"/d/2022-11-01"⟩ plainDiary.settings := by
      rw [hshelf]
      rfl
    simp only [Diary.createThumbnailFile, Run.onPart, hnew, hday, ← hwritten]
    rfl
  refine ⟨after.images.thumbnail, { refreshed with shelf := refreshed.shelf.replace 0 after },
    reads, ?_, ?_⟩
  · change (Run.forEach (plainDiary.refresh ⟨plainSetting, disk⟩).newestFirst
      (Diary.createThumbnailFile plainSetting) >>= fun written =>
        pure ((plainDiary.refresh ⟨plainSetting, disk⟩).newestFirst.length, written.count true))
      (disk, plainDiary.refresh ⟨plainSetting, disk⟩) = _
    rw [hrefresh, hids]
    simp [Run.forEach_cons, Run.forEach_nil, Run.bind_apply, hdecember, hnovember, -bind_pure_comp]
  · rw [← hrefresh]

theorem exists_answers_winterAssets :
    let before := (winterDisk 0 novemberStrip winterAssets, plainDiary)
    ∃ summary t, Answers (generate plainSetting winterLayout) before summary t ∧
      GrownIn ["s"] (winterMade 0 novemberStrip winterAssets) t.1 ∧
      summary.linkedAssets = ["2022-11", "main.css"] ∧
      summary.months = ["2022-12", "2022-11"] ∧ summary.failedMonths = ["2022-11"] := by
  intro before
  have hstrips := materializeThumbnails_winter winterAssets
  have reached : Diary.Reached [⟨"/d"⟩] { tileWidth := 1, tileHeight := 1 } 0 plainDiary := .new
  have hmonths := congrArg (List.map (·.name)) (months_winter 0 novemberStrip winterAssets)
  obtain ⟨written, newestFirst⟩ := written_months (reached.refresh ⟨plainSetting, before.1⟩)
  obtain ⟨summary, t, answers, grown, hassets, hnames, hfailed⟩ :=
    exists_answers_winter (congrArg Outcome.result hstrips) (congrArg Outcome.state hstrips)
      assetNames_winter linkAssets_winter (fun _ => plainName_winter) (by decide) written
      (newestFirst.imp ne_of_gt)
  refine ⟨summary, t, answers, grown, hassets, hnames.trans hmonths, ?_⟩
  rw [hfailed, hnames, hmonths]
  decide

/-- An old site is replaced by way of a path that goes up, and the month whose name an asset has is
left out. -/
theorem generate_makes_site_winter :
    let disk := winterDisk 0 novemberStrip winterAssets
    disk.at? ["s", "stale.txt"] = some emptyFile ∧
    SiteLayout.check disk ⟨"/d"⟩ ⟨"/t"⟩ ⟨"../s"⟩ = .ok winterLayout ∧
    ∃ summary t place pages,
      Answers (generate plainSetting winterLayout) (disk, plainDiary) summary t ∧
      summary.linkedAssets = ["2022-11", "main.css"] ∧
      summary.months = ["2022-12", "2022-11"] ∧ summary.failedMonths = ["2022-11"] ∧
      IsSiteOf plainSetting winterLayout (disk, plainDiary) summary t place pages := by
  intro disk
  have accepted := check_winter 0 novemberStrip winterAssets
  obtain ⟨summary, t, answers, grown, hassets, hmonths, hfailed⟩ := exists_answers_winterAssets
  have ups : UpsLead (withoutTarget plainSetting winterLayout (disk, plainDiary)).root
      (moving winterLayout.targetDirectory.steps) := by
    rw [withoutTarget, withStrips, materializeThumbnails_winter]
    exact upsLead_winter _ _ _
  obtain ⟨htarget, htemplate⟩ := locate_winter grown.grown
  have apart : ∀ above place, t.1.locate winterLayout.templateDirectory = .ok above →
      t.1.locate winterLayout.targetDirectory = .ok place → ¬ above <+: place := by
    intro above place habove hplace
    rw [htemplate] at habove
    rw [htarget] at hplace
    cases habove
    cases hplace
    decide
  obtain ⟨place, pages, site⟩ := generate_makes_site (by decide) accepted ups (by decide) .new
    answers (by rw [hassets]; exact fun _ => plainName_winter) apart
  exact ⟨rfl, accepted, summary, t, place, pages, answers, hassets, hmonths, hfailed, site⟩

end Winter

end Site

end DrawingDiary
