import DrawingDiary.Proofs.Disk.Hosts
import DrawingDiary.Proofs.Site.Progress

/-!
# The months that have got a page

Making a site answers with its months and with those that failed. Of every month that has not
failed there is a new directory under the target, with a page and nothing else in it; a month that
failed has at most left an empty directory, and under no other name is there a new directory with
a page (`Course.exists_monthsWritten`). This holds wherever the target is: the place of the target
is read off the page of the newest month, which is written last and without which nothing is
answered, and as the disk only grew before, the pages of the months came to the same place.
-/

namespace DrawingDiary.Site

open Attempt
open Disk (Grown Hosts Adds AddsOn)
open Naming (IsWrittenMonth)
open DrawingDiary.Path (PlainName)

/-- Under the name stands a new directory that holds a page and nothing else. -/
structure MonthWritten (before after : Disk) (place : Location) (name : String) : Prop where
  free : before.at? (place ++ [name]) = none
  page : ∃ lines modified,
    after.at? (place ++ [name]) =
      some (.directory [(indexFile, .file (pageBytes lines) modified)])

/-- Under the name stands what stood there, or a new directory that has got no page. -/
def MonthFailed (before after : Disk) (place : Location) (name : String) : Prop :=
  after.at? (place ++ [name]) = before.at? (place ++ [name]) ∨
    before.at? (place ++ [name]) = none ∧ after.at? (place ++ [name]) = some (.directory [])

/-- What has become of the names in a directory when the pages of some months were tried. -/
structure Tried (place : Location) (names failed : List String) (before after : Disk) : Prop where
  sublist : failed.Sublist names
  others : ∀ name, name ∉ names → after.at? (place ++ [name]) = before.at? (place ++ [name])
  written : ∀ name ∈ names, name ∉ failed → MonthWritten before after place name
  left : ∀ name ∈ failed, MonthFailed before after place name

variable {disk before between after later : Disk} {target : Path} {place : Location}
  {month : String} {names more failed failed' : List String} {setting : Setting}
  {template : List String} {months : List Month} {s t : Disk × Diary}

section Months

theorem tried_nil (place : Location) (disk : Disk) : Tried place [] [] disk disk :=
  ⟨.slnil, fun _ _ => rfl, by simp, by simp⟩

theorem Tried.append (first : Tried place names failed before between)
    (second : Tried place more failed' between after) (apart : names.Disjoint more) :
    Tried place (names ++ more) (failed ++ failed') before after where
  sublist := first.sublist.append second.sublist
  others := by
    intro name hname
    rw [List.mem_append, not_or] at hname
    exact (second.others name hname.2).trans (first.others name hname.1)
  written := by
    intro name hname hfine
    rw [List.mem_append, not_or] at hfine
    rcases List.mem_append.mp hname with hfirst | hsecond
    · obtain ⟨free, page⟩ := first.written name hfirst hfine.1
      refine ⟨free, ?_⟩
      rwa [second.others name (apart hfirst)]
    · obtain ⟨free, page⟩ := second.written name hsecond hfine.2
      refine ⟨?_, page⟩
      rwa [← first.others name fun hfirst => apart hfirst hsecond]
  left := by
    intro name hname
    rcases List.mem_append.mp hname with hfirst | hsecond
    · rw [MonthFailed, second.others name (apart (first.sublist.subset hfirst))]
      exact first.left name hfirst
    · have hmore := second.sublist.subset hsecond
      rw [MonthFailed, ← first.others name fun hnames => apart hnames hmore]
      exact second.left name hsecond

theorem exists_hosts_of_writeMonthPage (written : IsWrittenMonth month) {lines : List String}
    (h : writeMonthPage (target.join month) lines disk = (after, true)) :
    ∃ place modified, Hosts after target place ∧ disk.at? (place ++ [month]) = none ∧
      after.at? (place ++ [month]) =
        some (.directory [(indexFile, .file (pageBytes lines) modified)]) ∧
      ∀ other, other ≠ month → after.at? (place ++ [other]) = disk.at? (place ++ [other]) := by
  unfold writeMonthPage at h
  split at h
  · cases h
  next made hmade =>
    obtain ⟨place, hosts, free, heq, stands⟩ :=
      Disk.exists_hosts_of_makeDirectory written.plainName hmade
    split at h
    · cases h
    next file hfile =>
      cases h
      obtain ⟨-, hput⟩ := stands.eq_of_writeNewFile plainName_indexFile hfile
      have hosts' := (hosts.of_grown (Disk.grown_of_makeDirectory hmade)).of_grown
        (Disk.grown_of_writeNewFile hfile)
      have hpage := Tree.get?_setAt_append made.root (place ++ [month])
        (List.cons_ne_nil indexFile []) (some (.file (pageBytes lines) made.now))
      rw [stands.directory] at hpage
      refine ⟨place, made.now, hosts', free, hput ▸ hpage, fun other hne => ?_⟩
      rw [hput, List.append_assoc]
      refine (Tree.get?_setAt_sibling made.root place [indexFile] hne _).trans ?_
      rw [heq]
      exact Tree.get?_setAt_sibling disk.root place [] hne _

theorem tried_of_failed (written : IsWrittenMonth month) {lines : List String}
    (h : writeMonthPage (target.join month) lines disk = (after, false))
    (hosts : Hosts later target place) (grown : Grown after later) :
    Tried place [month] [month] disk after := by
  unfold writeMonthPage at h
  split at h
  · cases h
    exact ⟨.refl _, fun _ _ => rfl, by simp, fun _ _ => .inl rfl⟩
  next made hmade =>
    split at h
    · cases h
      obtain ⟨place', hosts', free, heq, stands⟩ :=
        Disk.exists_hosts_of_makeDirectory written.plainName hmade
      obtain rfl := (hosts'.of_grown ((Disk.grown_of_makeDirectory hmade).trans grown)).unique hosts
      refine ⟨.refl _, fun name hname => ?_, by simp, fun name hname => ?_⟩
      · rw [heq]
        exact Tree.get?_setAt_sibling disk.root place' [] (by simpa using hname) _
      · obtain rfl := List.mem_singleton.mp hname
        exact .inr ⟨free, stands.directory⟩
    · cases h

theorem tried_writeMonthPage (written : IsWrittenMonth month) {lines : List String} {went : Bool}
    (h : writeMonthPage (target.join month) lines disk = (after, went))
    (hosts : Hosts later target place) (grown : Grown after later) :
    Tried place [month] (if went then [] else [month]) disk after := by
  cases went with
  | false => exact tried_of_failed written h hosts grown
  | true =>
      obtain ⟨place', modified, hosts', free, hpage, hothers⟩ :=
        exists_hosts_of_writeMonthPage written h
      obtain rfl := (hosts'.of_grown grown).unique hosts
      refine ⟨List.nil_sublist _, fun name hname => ?_, fun name hname _ => ?_, by simp⟩
      · exact hothers name (by simpa using hname)
      · obtain rfl := List.mem_singleton.mp hname
        exact ⟨free, lines, modified, hpage⟩

theorem tried_monthPages (written : ∀ name ∈ names, IsWrittenMonth name) (distinct : names.Nodup)
    (h : Answers (monthPages setting target template months names) s failed t)
    (hosts : Hosts later target place) (grown : Grown t.1 later) :
    Tried place names failed s.1 t.1 := by
  induction names generalizing s failed with
  | nil =>
      obtain ⟨rfl, rfl⟩ := answers_pure_iff.mp h
      exact tried_nil place _
  | cons month rest ih =>
      obtain ⟨hmonth, hrest⟩ := List.forall_mem_cons.mp written
      obtain ⟨hother, distinct⟩ := List.nodup_cons.mp distinct
      obtain ⟨first, u, hfirst, hothers⟩ := answers_bind_iff.mp h
      obtain ⟨others, v, hothers, hpure⟩ := answers_bind_iff.mp hothers
      obtain ⟨rfl, rfl⟩ := answers_pure_iff.mp hpure
      have second := ih hrest distinct hothers
      have grownOthers : Grown u.1 later := by
        have hgrows := grows_monthPages setting target template months rest u
        rw [hothers.state_eq] at hgrows
        exact hgrows.trans grown
      obtain ⟨lines, _, hrender, hresult, rfl⟩ := answers_bind_iff.mp hfirst
      obtain ⟨-, rfl⟩ := answers_onShelf_iff.mp hrender
      cases hpage : writeMonthPage (target.join month) lines s.1 with
      | mk page went =>
          simp only [ExceptT.mk, hpage] at hresult grownOthers second
          have tried := tried_writeMonthPage hmonth hpage hosts grownOthers
          have hfailed : first.toList = if went then [] else [month] := by
            cases went <;> cases hresult <;> rfl
          rw [hfailed]
          exact tried.append second (by simpa using hother)

/-- Each page is rendered on a disk of the run, and what was rendered for a month that has not
failed is what its page holds. -/
theorem exists_renders_monthPages (written : ∀ name ∈ names, IsWrittenMonth name)
    (h : Answers (monthPages setting target template months names) s failed t)
    (hosts : Hosts later target place) (grown : Grown t.1 later) :
    ∃ pages, Renders setting (Grown · t.1) template months s.2.shelf pages t.2.shelf ∧
      ∀ name ∈ names, name ∉ failed → ∃ lines modified, (some name, lines) ∈ pages ∧
        t.1.at? (place ++ [name] ++ [indexFile]) = some (.file (pageBytes lines) modified) := by
  induction names generalizing s failed with
  | nil =>
      obtain ⟨rfl, rfl⟩ := answers_pure_iff.mp h
      exact ⟨[], .nil, fun _ hname => absurd hname List.not_mem_nil⟩
  | cons month rest ih =>
      obtain ⟨hmonth, hrest⟩ := List.forall_mem_cons.mp written
      obtain ⟨first, u, hfirst, hothers⟩ := answers_bind_iff.mp h
      obtain ⟨others, v, hothers, hpure⟩ := answers_bind_iff.mp hothers
      obtain ⟨rfl, rfl⟩ := answers_pure_iff.mp hpure
      obtain ⟨pages, renders, hpages⟩ := ih hrest hothers
      have grownRest : Grown u.1 t.1 := by
        have hgrows := grows_monthPages setting target template months rest u
        rwa [hothers.state_eq] at hgrows
      obtain ⟨lines, _, hrender, hresult, rfl⟩ := answers_bind_iff.mp hfirst
      obtain ⟨hlines, rfl⟩ := answers_onShelf_iff.mp hrender
      have grownFirst := grown_writeMonthPage (target.join month) lines s.1
      refine ⟨(some month, lines) :: pages, .cons (grownFirst.trans grownRest) hlines renders,
        List.forall_mem_cons.mpr ⟨fun hfine => ?_, fun name hname hfine => ?_⟩⟩
      · cases hpage : writeMonthPage (target.join month) lines s.1 with
        | mk page went =>
            simp only [ExceptT.mk, hpage] at hresult grownRest
            cases went with
            | false =>
                cases hresult
                exact absurd (List.mem_append_left others (List.mem_singleton_self month)) hfine
            | true =>
                obtain ⟨place', modified, hosts', -, hat, -⟩ :=
                  exists_hosts_of_writeMonthPage hmonth hpage
                obtain rfl := (hosts'.of_grown (grownRest.trans grown)).unique hosts
                refine ⟨lines, modified, List.mem_cons_self, grownRest.file trivial ?_⟩
                rw [Disk.at?, Tree.get?_snoc hat]
                rfl
      · obtain ⟨lines', modified, hmem, hat⟩ :=
          hpages name hname fun hfailed => hfine (List.mem_append_right _ hfailed)
        exact ⟨lines', modified, List.mem_cons_of_mem _ hmem, hat⟩

end Months

theorem adds_linkAssets (source target : Path) (names : List String) (disk : Disk) :
    Adds (fun _ tree => ∃ path, tree = .link path) disk
      (linkAssets source target names disk).1 := by
  induction names generalizing disk with
  | nil => exact .refl disk
  | cons name rest ih =>
      unfold linkAssets
      split
      next linked hlink =>
        refine AddsOn.trans ?_ (ih linked)
        exact (Disk.adds_of_makeLink hlink).mono (fun _ h => h) fun _ _ _ fresh => ⟨_, fresh⟩
      · exact .refl disk

/-- Only the tries themselves make directories, so they decide which months have got a page since
before the assets were linked. -/
theorem Tried.monthWritten_iff {made : Disk} (tried : Tried place names failed before after)
    (links : Adds (fun _ tree => ∃ path, tree = .link path) made before) (name : String) :
    MonthWritten made after place name ↔ name ∈ names ∧ name ∉ failed := by
  have hnew {children : List (String × Tree)} (free : made.at? (place ++ [name]) = none)
      (hat : before.at? (place ++ [name]) = some (.directory children)) : False := by
    obtain ⟨path, hface⟩ := links.isFresh trivial hat free
    cases hface
  constructor
  · rintro ⟨free, lines, modified, hat⟩
    have hname : name ∈ names := by
      by_contra hother
      exact hnew free (tried.others name hother ▸ hat)
    refine ⟨hname, fun hfailed => ?_⟩
    rcases tried.left name hfailed with hsame | ⟨-, hempty⟩
    · exact hnew free (hsame ▸ hat)
    · rw [hempty] at hat
      cases hat
  · rintro ⟨hname, hfine⟩
    obtain ⟨free, page⟩ := tried.written name hname hfine
    refine ⟨Option.eq_none_iff_forall_ne_some.mpr fun tree hat => ?_, page⟩
    obtain ⟨tree', hat', -⟩ := links.stands trivial hat
    rw [free] at hat'
    cases hat'

/-- In the directory of the target, the change is under one name. -/
structure OnlyChanges (target : Path) (place : Location) (name : String) (before after : Disk) :
    Prop where
  hosts : Hosts before target place
  hosts_after : Hosts after target place
  others : ∀ other, other ≠ name → after.at? (place ++ [other]) = before.at? (place ++ [other])

theorem OnlyChanges.monthWritten_iff {made : Disk} {name other : String}
    (changes : OnlyChanges target place other before after)
    (hbefore : ¬ MonthWritten made before place other)
    (hafter : ∀ children, after.at? (place ++ [other]) ≠ some (.directory children)) :
    MonthWritten made after place name ↔ MonthWritten made before place name := by
  by_cases hname : name = other
  · subst hname
    constructor
    · rintro ⟨-, lines, modified, hat⟩
      exact absurd hat (hafter _)
    · exact fun hwritten => absurd hwritten hbefore
  · have hsame := changes.others name hname
    constructor
    · rintro ⟨free, page⟩
      exact ⟨free, hsame ▸ page⟩
    · rintro ⟨free, page⟩
      exact ⟨free, hsame ▸ page⟩

/-- The page of the newest month takes the place of nothing but an old page, and shows where the
target is. -/
theorem exists_onlyChanges_rootPage {answer : Unit}
    (h : Answers (rootPage setting target template months) s answer t) :
    ∃ place lines modified, OnlyChanges target place indexFile s.1 t.1 ∧
      t.1.at? (place ++ [indexFile]) = some (.file (pageBytes lines) modified) ∧
      Renders setting (Grown · t.1) template months s.2.shelf [(none, lines)] t.2.shelf := by
  obtain ⟨⟨⟩, u, hold, rest⟩ := answers_bind_iff.mp h
  obtain ⟨lines, v, hrender, hwrite⟩ := answers_bind_iff.mp rest
  obtain ⟨disk, hdisk, rfl⟩ := answers_onDisk_iff.mp hold
  obtain ⟨hlines, rfl⟩ := answers_onShelf_iff.mp hrender
  obtain ⟨written, hwritten, rfl⟩ := answers_onDisk_iff.mp hwrite
  have grown := Disk.grown_of_writeNewFile hwritten
  obtain ⟨place, hosts, -, hput⟩ :=
    Disk.exists_hosts_of_writeNewFile plainName_indexFile hwritten
  have hostsBefore : Hosts s.1 target place ∧
      ∀ other, other ≠ indexFile → disk.at? (place ++ [other]) = s.1.at? (place ++ [other]) := by
    split at hdisk
    · obtain ⟨place', hosts', rfl⟩ :=
        Disk.exists_hosts_of_removeFile plainName_indexFile hdisk
      obtain rfl := hosts'.unique (hosts.of_grown (Disk.grown_of_removed s.1 _))
      exact ⟨hosts', fun other hne => Tree.get?_setAt_sibling s.1.root place' [] hne none⟩
    · cases hdisk
      exact ⟨hosts, fun _ _ => rfl⟩
  have hostsAfter := hosts.of_grown grown
  subst hput
  refine ⟨place, lines, _, ⟨hostsBefore.1, hostsAfter, fun other hne => ?_⟩,
    hosts.at?_setAt _ _, .cons grown hlines .nil⟩
  rw [← hostsBefore.2 other hne]
  exact Tree.get?_setAt_sibling disk.root place [] hne _

theorem exists_onlyChanges_makeLink {name : String} {path : Path} (plain : PlainName name)
    (h : before.makeLink (target.join name) path = .ok after) :
    ∃ place, OnlyChanges target place name before after ∧
      after.at? (place ++ [name]) = some (.link path) := by
  obtain ⟨place, hosts, -, hput⟩ := Disk.exists_hosts_of_makeLink plain h
  have hostsAfter := hosts.of_grown (Disk.grown_of_makeLink h)
  subst hput
  refine ⟨place, ⟨hosts, hostsAfter, fun other hne => ?_⟩, hosts.at?_setAt name _⟩
  exact Tree.get?_setAt_sibling before.root place [] hne _

/-- In the directory of the target, which is where its path leads unless it is empty, the months
that have got a page are those that have not failed. -/
structure MonthsWritten (made after : Disk) (target : Path) (place : Location)
    (months failed : List String) : Prop where
  hosts : Hosts after target place
  locate_eq : target.text.isEmpty = false → after.locate target = .ok place
  written_iff : ∀ name, MonthWritten made after place name ↔ name ∈ months ∧ name ∉ failed

/-- A run that answers has written the months that it does not answer with as failed. -/
theorem Course.exists_monthsWritten {layout : SiteLayout} {summary : Summary}
    {shown made linked paged rooted : Disk × Diary}
    (course : Course setting layout s summary t shown made linked paged rooted template)
    (written : ∀ month ∈ summary.months, IsWrittenMonth month) (distinct : summary.months.Nodup) :
    summary.failedMonths.Sublist summary.months ∧
      ∃ place, MonthsWritten made.1 t.1 layout.targetDirectory place summary.months
        summary.failedMonths := by
  obtain ⟨assets, -, -, -, hlinked⟩ := answers_linkTemplate_iff.mp course.links
  have links := adds_linkAssets layout.templateDirectory layout.targetDirectory
    (assetNames assets) made.1
  rw [show (linkAssets _ _ _ made.1).1 = linked.1 from congrArg Prod.fst hlinked.symm] at links
  -- the last steps show where the target is, and nothing was put elsewhere before
  obtain ⟨place, lines, modified, root, hpage, -⟩ := exists_onlyChanges_rootPage course.root
  obtain ⟨place', drawings, hdrawings⟩ :=
    exists_onlyChanges_makeLink plainName_drawingsDirectory course.drawings
  obtain rfl := drawings.hosts.unique root.hosts_after
  have tried := tried_monthPages written distinct course.pages root.hosts (.refl paged.1)
  have notMonth {name : String} (hlength : name.toList.length ≠ 7) : name ∉ summary.months :=
    fun hname => hlength (written name hname).length
  have hpaged := tried.monthWritten_iff links
  have hrooted (name : String) :
      MonthWritten made.1 rooted.1 place' name ↔ MonthWritten made.1 paged.1 place' name := by
    refine root.monthWritten_iff (fun hwritten => ?_) (by simp [hpage])
    exact notMonth (by decide) ((hpaged indexFile).mp hwritten).1
  have hfinal (name : String) :
      MonthWritten made.1 t.1 place' name ↔ MonthWritten made.1 rooted.1 place' name := by
    refine drawings.monthWritten_iff (fun hwritten => ?_) (by simp [hdrawings])
    rw [hrooted, hpaged] at hwritten
    exact notMonth (by decide) hwritten.1
  refine ⟨tried.sublist, place', drawings.hosts_after, fun nonempty => ?_, fun name => ?_⟩
  · obtain ⟨_, _, hresolve, -⟩ := Disk.makeLink_eq_ok_iff.mp course.drawings
    exact drawings.hosts_after.locate_eq
      ((Disk.speakable_of_resolve hresolve).of_join plainName_drawingsDirectory nonempty)
  · rw [hfinal, hrooted, hpaged]

end DrawingDiary.Site
