import DrawingDiary.Proofs.Diary.NewStrips
import DrawingDiary.Proofs.Disk.Ancestors
import DrawingDiary.Proofs.Site.Filling
import DrawingDiary.Proofs.Site.Finished

/-!
# What is outside of a target

Making a site touches nothing outside of the place of its target, however it ends
(`generate_touches_nothing_outside`). What is there stays as it is, and nothing comes there
but missing directories on the way to the target and the strips of days. This includes what
links in an old target lead to, and where the target is a link itself, what it leads to: links
are removed and not followed, and each page gets a name that is free.

The place of the target is where its path leads, its own last name not followed. Where a `..` of
the path comes at or behind the old target, deleting this changes where the path leads, and where
something is missing on the way, the path may come to an old link once that is made
(`StaysPut`). A path without a `..` is safe from both (`staysPut_of_noUp`).
-/

namespace DrawingDiary.Site

open Disk (Adds AddsOn GrownIn Hosts OnWay RenewedAt Stands directoryAlong)
open DrawingDiary.Path (PlainName moving)
open Naming (thumbnailFile)

/-- The place of a path itself, once the missing directories on the way to it are there. -/
def ownPlace (disk : Disk) (p : Path) : Location := (disk.makeDirectories p).1.placeOf p

/-- Deleting what is at the target does not change where anything before a `..` of its path leads,
and if nothing is there to be deleted, there is no link once all directories are made. -/
structure StaysPut (disk : Disk) (target : Path) : Prop where
  ups : ∀ front more, moving target.steps = front ++ .up :: more →
    directoryAlong (disk.removeAll target).1.root front = directoryAlong disk.root front
  unlinked : (∀ place, disk.resolve false target ≠ .ok (.found place)) →
    (disk.makeDirectories target).2 = none →
      ∀ path, (disk.makeDirectories target).1.at? (ownPlace disk target) ≠ some (.link path)

theorem staysPut_of_noUp {disk : Disk} {target : Path} {name : String}
    (absolute : target.isAbsolute = true) (hlast : target.steps.getLast? = some (.into name))
    (noUp : .up ∉ moving target.steps) : StaysPut disk target := by
  have never {front more : List Path.Step} (h : moving target.steps = front ++ .up :: more) :
      False := noUp (h ▸ List.mem_append_right front List.mem_cons_self)
  refine ⟨fun front more h => (never h).elim, fun hnothing hmade path => ?_⟩
  have hnew : disk.isDirectory target = false := by
    refine Bool.eq_false_iff.mpr fun hdirectory => ?_
    obtain ⟨-, place, -, hfound, -⟩ := Disk.exists_stays_of_isDirectory hdirectory
    exact hnothing place hfound
  obtain ⟨before, hlastMade⟩ := Disk.exists_makeDirectory_of_makeDirectories absolute
    (fun front more h => (never h).elim) hnew hmade
  rw [ownPlace, Disk.at?_placeOf_of_makeDirectory absolute hlast hlastMade]
  simp

/-- The place is not at or below that of the target. -/
def Outside (disk : Disk) (target : Path) (place : Location) : Prop :=
  ¬ ownPlace disk target <+: place

/-- What may be new outside of a target: a missing directory on the way to it, or a strip in one
of the directories. -/
def MayCome (disk shown : Disk) (target : Path) (directories : List Path) (place : Location)
    (t : Tree) : Prop :=
  t = .directory [] ∧ OnWay (shown.makeDirectories target).1 target place ∨
    IsStripFile disk directories place t

/-- What has become of the disk when the target was made: nothing was touched outside of it, and
if nothing failed its path leads to a directory at its place or below. -/
structure TargetMade (disk shown : Disk) (target : Path) (directories : List Path)
    (made : Disk × Option DiskError) : Prop where
  adds : AddsOn (Outside shown target) (MayCome disk shown target directories) disk made.1
  hosts : made.2 = none → ∃ place, ownPlace shown target <+: place ∧ Hosts made.1 target place

section Stages

variable {disk shown after : Disk} {target : Path} {directories : List Path} {name : String}
  {old : Location} (absolute : target.isAbsolute = true)
  (hlast : target.steps.getLast? = some (.into name))

include absolute hlast

omit absolute in
theorem ownPlace_of_found (hfound : shown.resolve false target = .ok (.found old)) :
    (shown.makeDirectories target).1 = shown ∧ ownPlace shown target = shown.placeOf target := by
  have hwalk := hfound
  rw [Disk.resolve_of_not_endsWithSlash (Path.not_endsWithSlash_of_last hlast)] at hwalk
  have hsame := Disk.makeDirectories_of_found hwalk
  exact ⟨hsame, by rw [ownPlace, hsame]⟩

variable (strips : Adds (IsStripFile disk directories) disk shown)

omit absolute hlast in
include strips in
theorem addsOn_strips :
    AddsOn (Outside shown target) (MayCome disk shown target directories) disk shown :=
  strips.mono (fun _ _ => trivial) fun _ _ _ h => .inr h

include strips

theorem addsOn_removeAll :
    AddsOn (Outside shown target) (MayCome disk shown target directories) disk
      (shown.removeAll target).1 := by
  refine (addsOn_strips strips).trans
    (Disk.addsOn_of_shrunk (Disk.keptOn_removeAll ?_) (Disk.grown_removeAll shown target))
  intro place hplace other houtside
  rw [← Disk.placeOf_of_resolve absolute hlast hplace,
    ← (ownPlace_of_found hlast hplace).2]
  exact houtside

theorem targetMade_of_found (hfound : shown.resolve false target = .ok (.found old))
    (stays : StaysPut shown target) (hremoved : (shown.removeAll target).2 = none) :
    TargetMade disk shown target directories
      ((shown.removeAll target).1.makeDirectories target) := by
  obtain ⟨-, hown⟩ := ownPlace_of_found hlast hfound
  have hcleared := addsOn_removeAll absolute hlast strips
  have ups := Disk.upsLead_removeAll absolute hlast hfound stays.ups
  rcases Disk.renewed_cases shown absolute ups hlast with hsame | ⟨place, renewed⟩
  · refine ⟨by rwa [hsame], fun hmade => ?_⟩
    -- nothing was made, but there was no directory before
    have hdirectory :=
      Disk.isDirectory_of_makeDirectories (Path.nonempty_of_isAbsolute absolute) hmade
    rw [hsame, Disk.not_isDirectory_of_removeAll hremoved] at hdirectory
    cases hdirectory
  · refine ⟨hcleared.trans ?_, fun hmade => ⟨place, ?_, (renewed.stands hmade).hosts⟩⟩
    · refine (renewed.keepsOutside absolute hlast hfound).mono (fun other houtside => ?_)
        fun _ _ _ habsurd => habsurd.elim
      rwa [← hown]
    · rw [hown]
      exact renewed.below

/-- Where there is no old target, its directory comes to its place, or was there before. -/
theorem targetMade_of_not_found
    (hnothing : ∀ place, shown.resolve false target ≠ .ok (.found place))
    (stays : StaysPut shown target) :
    TargetMade disk shown target directories
      ((shown.removeAll target).1.makeDirectories target) := by
  rw [Disk.removeAll_of_not_found hnothing]
  refine ⟨(addsOn_strips strips).trans ?_, fun hmade => ?_⟩
  · exact (Disk.adds_makeDirectories shown absolute).mono (fun _ _ => trivial)
      fun _ _ _ h => .inl h
  · have hdirectory :=
      Disk.isDirectory_of_makeDirectories (Path.nonempty_of_isAbsolute absolute) hmade
    obtain ⟨children, stands⟩ :=
      Disk.exists_stands_placeOf absolute hlast hdirectory (stays.unlinked hnothing hmade)
    exact ⟨_, List.prefix_refl _, stands.hosts⟩

theorem targetMade (stays : StaysPut shown target)
    (hremoved : (shown.removeAll target).2 = none) :
    TargetMade disk shown target directories
      ((shown.removeAll target).1.makeDirectories target) := by
  by_cases hfound : ∃ place, shown.resolve false target = .ok (.found place)
  · obtain ⟨place, hfound⟩ := hfound
    exact targetMade_of_found absolute hlast strips hfound stays hremoved
  · exact targetMade_of_not_found absolute hlast strips (not_exists.mp hfound) stays

end Stages

theorem addsOn_generate (setting : Setting) {disk : Disk} {layout : SiteLayout} {name : String}
    (absolute : layout.targetDirectory.isAbsolute = true)
    (hlast : layout.targetDirectory.steps.getLast? = some (.into name)) {roots : List Path}
    {settings : DaySettings} {cooldown : Nat} {diary : Diary}
    (reached : Diary.Reached roots settings cooldown diary) (wellNamed : disk.WellNamed)
    (unlinked : StripsUnlinked disk (diary.refresh ⟨setting, disk⟩).dayDirectories)
    (stays : StaysPut (withStrips setting (disk, diary)) layout.targetDirectory) :
    AddsOn (Outside (withStrips setting (disk, diary)) layout.targetDirectory)
      (MayCome disk (withStrips setting (disk, diary)) layout.targetDirectory
        (diary.refresh ⟨setting, disk⟩).dayDirectories)
      disk (generate setting layout (disk, diary)).state.1 := by
  have strips := Diary.adds_materializeThumbnails setting reached unlinked
  have hdiary := Diary.diary_materializeThumbnails setting disk diary
  rw [withStrips] at stays ⊢
  obtain ⟨shown, current, hshown⟩ : ∃ shown current,
    (Diary.materializeThumbnails setting (disk, diary)).state = (shown, current) := ⟨_, _, rfl⟩
  rw [hshown] at strips hdiary stays ⊢
  have written : ∀ name ∈ current.months.map (·.name), Naming.IsWrittenMonth name := by
    change current = _ at hdiary
    rw [hdiary]
    exact (written_months (.refresh ⟨setting, disk⟩ reached)).1
  have wellNamedShown : shown.WellNamed :=
    strips.wellNamed (plainName_of_isStripFile wellNamed) wellNamed
  generalize (diary.refresh ⟨setting, disk⟩).dayDirectories = directories at strips ⊢
  let stop : Disk × Diary → Prop := fun s => AddsOn (Outside shown layout.targetDirectory)
    (MayCome disk shown layout.targetDirectory directories) disk s.1
  suffices h : Attempt.Gets stop (fun s => s = (disk, diary)) (generate setting layout)
      fun _ => stop from h.stops rfl
  rw [generate_eq_fillTarget]
  have hthumbnails : Attempt.Gets stop (fun s => s = (disk, diary))
      (ExceptT.lift (Diary.materializeThumbnails setting)) fun _ s => s = (shown, current) := by
    refine Attempt.gets_lift ?_
    rintro s rfl
    rw [hshown]
    exact ⟨addsOn_strips strips, fun _ _ => rfl⟩
  refine Attempt.Gets.bind hthumbnails ?_
  rintro ⟨days, created⟩
  have hstate : Attempt.Gets stop (fun s => s = (shown, current)) (ExceptT.lift Run.state)
      fun seen s => seen = (shown, current) ∧ s = (shown, current) := fun s h => ⟨h, h⟩
  refine Attempt.Gets.bind hstate ?_
  rintro ⟨_, _⟩ s ⟨hseen, rfl⟩
  cases hseen
  refine Attempt.Gets.bind (gets_deleteTarget fun _ => addsOn_removeAll absolute hlast strips)
    (fun _ => ?_) _ rfl
  rintro s ⟨hs, hremoved⟩
  have made : TargetMade disk shown layout.targetDirectory directories
      ((shown.removeAll layout.targetDirectory).1.makeDirectories layout.targetDirectory) :=
    targetMade absolute hlast strips stays hremoved
  refine Attempt.Gets.bind (gets_createTarget fun _ => made.adds) (fun _ => ?_) s hs
  rintro s ⟨hs, hnone⟩
  obtain ⟨place, hbelow, hosts⟩ := made.hosts hnone
  have wellNamedMade :=
    (wellNamedShown.of_grown (Disk.grown_removeAll shown layout.targetDirectory)).makeDirectories
      layout.targetDirectory
  refine gets_fillTarget setting hosts (fun names hlist => wellNamedMade.list hlist) written days
    created (fun s keeps => made.adds.trans ?_) s hs
  exact keeps.mono (fun other houtside hinside => houtside (hbelow.trans hinside))
    fun _ _ _ habsurd => habsurd.elim

/-- However making a site ends, everything outside of the target is as it was: each file and each
link, and each directory is still one. What is new there is a missing directory on the way to the
target or the strip of a day in its directory, where nothing of this name was. -/
theorem generate_touches_nothing_outside (setting : Setting) {disk : Disk}
    {diaryDirectory template target : Path} {layout : SiteLayout} {name : String}
    (absolute : disk.workingDirectory.isAbsolute = true)
    (accepted : SiteLayout.check disk diaryDirectory template target = .ok layout)
    (hlast : layout.targetDirectory.steps.getLast? = some (.into name)) {roots : List Path}
    {settings : DaySettings} {cooldown : Nat} {diary : Diary}
    (reached : Diary.Reached roots settings cooldown diary) (wellNamed : disk.WellNamed)
    (unlinked : StripsUnlinked disk (diary.refresh ⟨setting, disk⟩).dayDirectories)
    (stays : StaysPut (withStrips setting (disk, diary)) layout.targetDirectory) :
    let shown := withStrips setting (disk, diary)
    let own := ownPlace shown layout.targetDirectory
    let after := (generate setting layout (disk, diary)).state.1
    Disk.KeptOn (fun place => ¬ own <+: place) disk after ∧
    ∀ place t, ¬ own <+: place → after.at? place = some t → disk.at? place = none →
      ((∃ children, t = .directory children) ∧
        OnWay (shown.makeDirectories layout.targetDirectory).1 layout.targetDirectory place) ∨
      IsStripFile disk (diary.refresh ⟨setting, disk⟩).dayDirectories place t := by
  have absoluteTarget := Path.isAbsolute_of_absolute? absolute (absolute?_of_check accepted)
  have adds := addsOn_generate setting absoluteTarget hlast reached wellNamed unlinked stays
  refine ⟨adds.toKeptOn, fun place t houtside hat free => ?_⟩
  rcases adds.isFresh houtside hat free with ⟨hface, hway⟩ | ⟨⟨content, modified, hface⟩, hplace⟩
  · exact .inl ⟨Tree.exists_directory_of_face hface, hway⟩
  · exact .inr ⟨⟨content, modified, Tree.eq_file_of_face hface⟩, hplace⟩

section Winter

theorem wellNamed_winter : (winterDisk 0 [] winterAssets).WellNamed := by
  refine Disk.wellNamed_of_plainNames ?_
  change Tree.PlainNames (.directory _)
  repeat' first
    | exact Tree.plainNames_file _ _
    | exact Tree.plainNames_link _
    | exact Tree.plainNames_nil
    | refine Tree.PlainNames.cons ⟨by decide, by decide⟩ ?_ ?_

theorem stripsUnlinked_winter (assets : List (String × Tree)) :
    let disk := winterDisk 0 [] assets
    StripsUnlinked disk (plainDiary.refresh ⟨plainSetting, disk⟩).dayDirectories := by
  intro disk
  have hdirectories : (plainDiary.refresh ⟨plainSetting, disk⟩).dayDirectories =
      [⟨"/d/2022-12-24"⟩, ⟨"/d/2022-11-01"⟩] := by
    rw [Diary.dayDirectories, newestFirst_winter, (refresh_winter 0 [] assets).2]
    rfl
  rintro place ⟨directory, hmem, parent, children, stands, rfl⟩ target hat
  rw [Disk.at?, Tree.get?_snoc stands.directory] at hat
  rw [hdirectories] at hmem
  rcases List.mem_pair.mp hmem with rfl | rfl
  · obtain ⟨-, rfl⟩ := stands.unique (stands_december 0 [] assets)
    cases hat
  · obtain ⟨-, rfl⟩ := stands.unique (stands_november 0 [] assets)
    cases hat

theorem staysPut_winter (clock : Nat) (strip assets : List (String × Tree)) :
    StaysPut (winterDisk clock strip assets) winterLayout.targetDirectory := by
  refine ⟨fun front more h => ?_, fun hnothing => (hnothing ["s"] (by cbv)).elim⟩
  rw [front_winter h]
  trans some ["d"] <;> cbv

/-- Where a link of an old site leads to, nothing is touched but that a day gets its strip. -/
theorem generate_touches_nothing_outside_winter :
    let disk := winterDisk 0 [] winterAssets
    let shown := withStrips plainSetting (disk, plainDiary)
    let after := (generate plainSetting winterLayout (disk, plainDiary)).state.1
    SiteLayout.check disk ⟨"/d"⟩ ⟨"/t"⟩ ⟨"../s"⟩ = .ok winterLayout ∧
    disk.at? ["s", "days"] = some (.link ⟨"/d"⟩) ∧
    ownPlace shown winterLayout.targetDirectory = ["s"] ∧
    after.at? ["d", "2022-11-01", "a-2022-11-01-05.png"] = some emptyFile ∧
    Disk.KeptOn (fun place => ¬ ["s"] <+: place) disk after ∧
    ∀ place t, ¬ ["s"] <+: place → after.at? place = some t → disk.at? place = none →
      ((∃ children, t = .directory children) ∧
        OnWay (shown.makeDirectories winterLayout.targetDirectory).1
          winterLayout.targetDirectory place) ∨
      IsStripFile disk (plainDiary.refresh ⟨plainSetting, disk⟩).dayDirectories place t := by
  intro disk shown after
  have accepted := check_winter 0 [] winterAssets
  obtain ⟨content, diary, reads, hstrips, -⟩ := exists_strip_winter winterAssets
  have hshown : shown = winterDisk 1 [(thumbnailFile, .file content ⟨0, 0⟩)] winterAssets := by
    simp only [shown, withStrips, disk, hstrips]
  have hown : ownPlace shown winterLayout.targetDirectory = ["s"] := by
    rw [hshown]
    cbv
  have stays : StaysPut shown winterLayout.targetDirectory := by
    rw [hshown]
    exact staysPut_winter _ _ _
  have reached : Diary.Reached [⟨"/d"⟩] { tileWidth := 1, tileHeight := 1 } 0 plainDiary := .new
  obtain ⟨kept, comes⟩ := generate_touches_nothing_outside plainSetting (by decide) accepted
    (by cbv : winterLayout.targetDirectory.steps.getLast? = some (.into "s")) reached
    wellNamed_winter (stripsUnlinked_winter _) stays
  change Disk.KeptOn (fun place => ¬ ownPlace shown winterLayout.targetDirectory <+: place) disk
    after at kept
  rw [hown] at kept
  refine ⟨accepted, rfl, hown, kept.file (by decide) rfl, kept, fun place t houtside => ?_⟩
  rw [← hown] at houtside
  exact comes place t houtside

end Winter
section Stray

/-- A disk with an empty diary, a template without lines and what else there is. -/
def bareDisk (others : List (String × Tree)) : Disk where
  root := .directory (("d", .directory []) :: ("t", .directory [(indexFile, emptyFile)]) :: others)

/-- A site is made for a target that ends with a name, and a page comes to a place outside of it. -/
structure StrayPage (disk : Disk) (target : Path) (page : Location) : Prop where
  accepted : SiteLayout.check disk ⟨"/d"⟩ ⟨"/t"⟩ target = .ok ⟨⟨"/d"⟩, ⟨"/t"⟩, target⟩
  last : ∃ name, target.steps.getLast? = some (.into name)
  noDays : (plainDiary.refresh ⟨plainSetting, disk⟩).dayDirectories = []
  outside : ¬ ownPlace (withStrips plainSetting (disk, plainDiary)) target <+: page
  free : disk.at? page = none
  written : ∃ content modified,
    (generate plainSetting ⟨⟨"/d"⟩, ⟨"/t"⟩, target⟩ (disk, plainDiary)).state.1.at? page =
      some (.file content modified)

variable (others : List (String × Tree))

theorem stands_bareTemplate : Stands (bareDisk others) ⟨"/t"⟩ ["t"] [(indexFile, emptyFile)] :=
  ⟨by cbv, by cbv⟩

theorem noDays_bareDisk :
    (plainDiary.refresh ⟨plainSetting, bareDisk others⟩).dayDirectories = [] := by
  cbv

theorem materializeThumbnails_bareDisk :
    (Diary.materializeThumbnails plainSetting (bareDisk others, plainDiary)).state.1 =
        bareDisk others ∧
      (Diary.materializeThumbnails plainSetting (bareDisk others, plainDiary)).result =
        some (0, 0) :=
  ⟨by cbv, by cbv⟩

theorem check_bareDisk {others : List (String × Tree)} {target : Path}
    (htarget : target.absolute? (bareDisk others).workingDirectory = some target)
    (hfree : (bareDisk others).isFile target = false) :
    SiteLayout.check (bareDisk others) ⟨"/d"⟩ ⟨"/t"⟩ target = .ok ⟨⟨"/d"⟩, ⟨"/t"⟩, target⟩ := by
  have stands := stands_bareTemplate others
  refine check_eq_ok (by cbv) (by cbv) ?_ (by cbv) (by cbv) ?_ hfree
  · rw [SiteLayout.absolute, htarget]
  · exact stands.isFile_child plainName_indexFile
      (stands.speakable.join plainName_indexFile (by decide) (by decide)) (by decide) rfl

theorem months_bareDisk {disk : Disk} {diary : Diary}
    (hshown : (Diary.materializeThumbnails plainSetting (disk, plainDiary)).state = (disk, diary)) :
    diary.months = (plainDiary.refresh ⟨plainSetting, disk⟩).months := by
  have hdiary : diary = (Diary.materializeThumbnails plainSetting (disk, plainDiary)).state.2 := by
    rw [hshown]
  rw [hdiary, Diary.diary_materializeThumbnails]

/-- The page of the newest month comes to where the target is when it was made anew. -/
theorem exists_page_of_bareDisk {others more : List (String × Tree)} {target : Path}
    {place : Location} (deleted : ((bareDisk others).removeAll target).2 = none)
    (created : ((bareDisk others).removeAll target).1.makeDirectories target =
      (bareDisk more, none))
    (stands : Stands (bareDisk more) target place [])
    (short : target.text.utf8ByteSize + 20 ≤ Disk.pathLimit) :
    ∃ content modified,
      (generate plainSetting ⟨⟨"/d"⟩, ⟨"/t"⟩, target⟩ (bareDisk others, plainDiary)).state.1.at?
        (place ++ [indexFile]) = some (.file content modified) := by
  obtain ⟨hdisk, hresult⟩ := materializeThumbnails_bareDisk others
  obtain ⟨diary, hshown⟩ : ∃ diary,
      (Diary.materializeThumbnails plainSetting (bareDisk others, plainDiary)).state =
        (bareDisk others, diary) := ⟨_, Prod.ext hdisk rfl⟩
  have reached : Diary.Reached [⟨"/d"⟩] { tileWidth := 1, tileHeight := 1 } 0 plainDiary := .new
  obtain ⟨written, newestFirst⟩ := written_months (reached.refresh ⟨plainSetting, bareDisk others⟩)
  rw [← months_bareDisk hshown] at written newestFirst
  have template := stands_bareTemplate more
  have hassets : assetNames [indexFile] = [] := by
    simp [assetNames, isAsset]
  have loads : loadTemplate (bareDisk more) ((Path.mk "/t").join indexFile) =
      .ok (Text.splitLines "") :=
    loadTemplate_eq_ok_iff.mpr ⟨"", template.readText_child plainName_indexFile
      (template.speakable.join plainName_indexFile (by decide) (by decide)) (by decide) rfl, rfl⟩
  obtain ⟨summary, t, answers, -, hlinked, hnames, -⟩ :=
    @exists_answers_generate _ ⟨⟨"/d"⟩, ⟨"/t"⟩, target⟩ _ _ _ _ _ _ _ _ (neverAborts_of_files rfl)
      hresult hshown deleted created stands short template.list_eq
      (by rw [List.map_singleton, hassets]; rfl) (by simp [hassets]) (by simp [hassets]) loads
      written (newestFirst.imp ne_of_gt)
  obtain ⟨shown, made, linked, paged, rooted, lines, course⟩ := exists_course answers
  rw [← hnames] at written newestFirst
  have hmade : made.1 = bareDisk more := by
    rw [course.made_eq, ← course.shown_eq, hshown]
    exact congrArg Prod.fst created
  obtain ⟨pages, fills⟩ := course.exists_fills (hmade ▸ stands) (by simp [hlinked, hassets])
    written newestFirst (.inr short)
  obtain ⟨lines, modified, -, hpage⟩ := fills.stands.rootPage
  rw [answers.state_eq]
  exact ⟨_, modified, hpage⟩
/-- The target is a link, and its path goes up behind it. -/
def upDisk : Disk := bareDisk [("w", .directory [("s", .link ⟨"/d"⟩)])]

def upTarget : Path := ⟨"/w/s/../w/s"⟩

theorem walkAlong_upTarget (disk : Disk) (followLast : Bool) :
    disk.walkAlong followLast upTarget = Disk.walk disk.root followLast Disk.linkLimit []
      [.here, .into "w", .into "s", .up, .into "w", .into "s"] :=
  Disk.walkAlong_eq_walk ⟨by cbv, by decide, by decide⟩ (by decide) (by decide) (by cbv)

theorem resolve_upTarget (disk : Disk) (followLast : Bool) :
    disk.resolve followLast upTarget = Disk.walk disk.root followLast Disk.linkLimit []
      [.here, .into "w", .into "s", .up, .into "w", .into "s"] := by
  rw [Disk.resolve_of_not_endsWithSlash (by decide), walkAlong_upTarget]

theorem removeAll_upTarget :
    upDisk.removeAll upTarget = (bareDisk [("w", .directory [])], none) := by
  rw [Disk.removeAll, resolve_upTarget]
  rfl

theorem makeDirectories_upTarget :
    (bareDisk [("w", .directory [])]).makeDirectories upTarget = (bareDisk [("w", .directory
      [("s", .directory []), ("w", .directory [("s", .directory [])])])], none) := by
  have hupper : (bareDisk [("w", .directory [])]).makeDirectoriesUpTo 5 ⟨"/w/s/../w"⟩ =
      (bareDisk [("w", .directory [("s", .directory []), ("w", .directory [])])], none) := by
    cbv
  have hmissing : (bareDisk [("w", .directory [])]).makeDirectory upTarget = .error .notFound := by
    rw [Disk.makeDirectory, walkAlong_upTarget]
    rfl
  have hparent : upTarget.parent? = some ⟨"/w/s/../w"⟩ := by decide
  have hlength : upTarget.steps.length = 6 := by cbv
  rw [Disk.makeDirectories, if_neg (by decide), hlength,
    Disk.makeDirectoriesUpTo_of_notFound hmissing hparent hupper, Disk.makeDirectory,
    walkAlong_upTarget]
  rfl

theorem strayPage_upTarget : StrayPage upDisk upTarget ["w", "w", "s", indexFile] := by
  have hlast : upTarget.steps.getLast? = some (.into "s") := by cbv
  have hplace : upDisk.resolve false upTarget = .ok (.found ["w", "s"]) := by
    rw [resolve_upTarget]
    rfl
  refine ⟨check_bareDisk (by decide) ?_, ⟨_, hlast⟩, noDays_bareDisk _, ?_, rfl, ?_⟩
  · refine Bool.eq_false_iff.mpr fun hfile => ?_
    obtain ⟨place, content, modified, hresolve, hat⟩ := Disk.isFile_iff.mp hfile
    have hlinked : upDisk.resolve true upTarget = .ok (.found ["d"]) := by
      rw [resolve_upTarget]
      rfl
    cases hlinked.symm.trans hresolve
    cases hat
  · rw [withStrips, upDisk, (materializeThumbnails_bareDisk _).1, ← upDisk,
      (ownPlace_of_found hlast hplace).2, Disk.placeOf_of_resolve (by decide) hlast hplace]
    decide
  · refine @exists_page_of_bareDisk _ [("w", .directory [("s", .directory []),
      ("w", .directory [("s", .directory [])])])] _ ["w", "w", "s"]
      (congrArg Prod.snd removeAll_upTarget) ?_ ⟨?_, rfl⟩ (by decide)
    · rw [← upDisk, removeAll_upTarget, makeDirectories_upTarget]
    · rw [resolve_upTarget]
      rfl

/-- The target is a link, and its path comes by a directory that is missing. -/
theorem strayPage_missing :
    StrayPage (bareDisk [("s", .link ⟨"/x"⟩), ("x", .directory [])]) ⟨"/m/../s"⟩
      ["x", indexFile] := by
  refine ⟨check_bareDisk (by decide) (by cbv), ⟨"s", by cbv⟩, noDays_bareDisk _, ?_, rfl, ?_⟩
  · have hown : ownPlace (bareDisk [("s", .link ⟨"/x"⟩), ("x", .directory [])]) ⟨"/m/../s"⟩ =
        ["s"] := by cbv
    rw [withStrips, (materializeThumbnails_bareDisk _).1, hown]
    decide
  · exact @exists_page_of_bareDisk _
      [("s", .link ⟨"/x"⟩), ("x", .directory []), ("m", .directory [])] _ ["x"] (by cbv) (by cbv)
      ⟨by cbv, by cbv⟩ (by decide)

/-- A page comes to a place outside of a target that ends with a name, where deleting the target
takes the link away by which its path goes up, or where the path comes to a link once a missing
directory is there. -/
theorem generate_writes_outside :
    StrayPage upDisk upTarget ["w", "w", "s", indexFile] ∧
      StrayPage (bareDisk [("s", .link ⟨"/x"⟩), ("x", .directory [])]) ⟨"/m/../s"⟩
        ["x", indexFile] :=
  ⟨strayPage_upTarget, strayPage_missing⟩

end Stray

end DrawingDiary.Site
