import DrawingDiary.Proofs.Diary.History
import DrawingDiary.Proofs.Diary.Strips
import DrawingDiary.Proofs.Disk.Standing
import DrawingDiary.Proofs.Site.Growth
import Mathlib

/-!
# What making a site leaves alone

Making a site deletes its target, whatever it holds, and removes a page that is in the way
of the newest month's; it does nothing else to what is on the disk already. So a file is
safe exactly as far as it is not at or below one of these two places (`clearedPlaces`),
and nothing keeps a diary or a template from being there. `generate_leaves_inputs` says
so for every end of the run: the argument follows the run from step to step with `Gets`,
which says what holds when a step answers and what holds when the run ends there.
-/

namespace DrawingDiary.Site

/-- The places that making a site clears with all that is below them: the place of the
target, and the place of the newest month's page in the directory that the target leads to
once it was made. -/
def clearedPlaces (disk : Disk) (target : Path) : List Location :=
  let made := ((disk.removeAll target).1.makeDirectories target).1
  (match disk.resolve false target with
    | .ok (.found place) => [place]
    | _ => []) ++
  match made.locate target with
    | .ok place => [place ++ [indexFile]]
    | .error _ => []

/-- The place is not at or below one of those that are cleared. -/
def Spared (cleared : List Location) (place : Location) : Prop := ∀ c ∈ cleared, ¬ c <+: place

theorem closed_spared (cleared : List Location) : Disk.Closed (Spared cleared) := by
  intro place below hbelow hspared c hc hcleared
  exact hspared c hc (hcleared.trans hbelow)

namespace Attempt

variable {α β : Type} {stop before : Disk × Diary → Prop}

theorem result_bind (first : Attempt α) (next : α → Attempt β) (s : Disk × Diary) :
    ((first >>= next) s).result =
      match (first s).result with
      | some (.ok a) => (next a (first s).state).result
      | some (.error e) => some (.error e)
      | none => none := by
  change (Run.bind first.run _ s).result = _
  simp only [Run.bind, ExceptT.run]
  cases (first s).result with
  | none => rfl
  | some answer => cases answer <;> rfl

theorem state_bind_of_ok {first : Attempt α} {a : α} {s t : Disk × Diary}
    (hresult : (first s).result = some (.ok a)) (hstate : (first s).state = t)
    (next : α → Attempt β) : ((first >>= next) s).state = (next a t).state := by
  rw [state_bind, hresult, ← hstate]

/-- When the attempt answers, its answer and the state are as they should be, and when the
run ends in it, the state is one to stop in. -/
def Gets (stop before : Disk × Diary → Prop) (attempt : Attempt α)
    (after : α → Disk × Diary → Prop) : Prop :=
  ∀ s, before s →
    match (attempt s).result with
    | some (.ok a) => after a (attempt s).state
    | _ => stop (attempt s).state

theorem Gets.bind {first : Attempt α} {next : α → Attempt β}
    {between : α → Disk × Diary → Prop} {after : β → Disk × Diary → Prop}
    (hfirst : Gets stop before first between)
    (hnext : ∀ a, Gets stop (between a) (next a) after) :
    Gets stop before (first >>= next) after := by
  intro s hbefore
  have hmiddle := hfirst s hbefore
  rw [result_bind, state_bind]
  cases hresult : (first s).result with
  | none =>
      simp only [hresult] at hmiddle ⊢
      exact hmiddle
  | some answer =>
      cases answer with
      | error e =>
          simp only [hresult] at hmiddle ⊢
          exact hmiddle
      | ok a =>
          simp only [hresult] at hmiddle ⊢
          exact hnext a _ hmiddle

theorem Gets.stops {attempt : Attempt α} (h : Gets stop before attempt fun _ => stop)
    {s : Disk × Diary} (hbefore : before s) : stop (attempt s).state := by
  have hend := h s hbefore
  split at hend <;> exact hend

theorem Gets.weaken {attempt : Attempt α} {after : α → Disk × Diary → Prop}
    (h : Gets stop before attempt after) {fewer : Disk × Diary → Prop}
    (sub : ∀ s, fewer s → before s) : Gets stop fewer attempt after :=
  fun s hfewer => h s (sub s hfewer)

theorem state_lift (run : Run (Disk × Diary) α) (s : Disk × Diary) :
    ((ExceptT.lift run : Attempt α) s).state = (run s).state := by
  change (Run.bind run (fun a => Run.pure (Except.ok a)) s).state = _
  simp only [Run.bind]
  cases (run s).result <;> rfl

theorem result_lift (run : Run (Disk × Diary) α) (s : Disk × Diary) :
    ((ExceptT.lift run : Attempt α) s).result = (run s).result.map .ok := by
  change (Run.bind run (fun a => Run.pure (Except.ok a)) s).result = _
  simp only [Run.bind]
  cases (run s).result <;> rfl

theorem gets_lift {run : Run (Disk × Diary) α} {after : Disk × Diary → Prop}
    (h : ∀ s, before s → stop (run s).state ∧ ∀ a, (run s).result = some a →
      after (run s).state) :
    Gets stop before (ExceptT.lift run) fun _ => after := by
  intro s hbefore
  obtain ⟨hstop, hafter⟩ := h s hbefore
  rw [result_lift, state_lift]
  cases hresult : (run s).result with
  | none => exact hstop
  | some a => exact hafter a hresult

theorem gets_pure {a : α} {after : α → Disk × Diary → Prop} (h : ∀ s, before s → after a s) :
    Gets stop before (pure a) after := fun s hbefore => h s hbefore

theorem gets_onDisk {cause : DiskError → SiteError} {step : Disk → Except DiskError Disk}
    {after : Disk × Diary → Prop}
    (h : ∀ s, before s → stop s ∧ ∀ disk, step s.1 = .ok disk → after (disk, s.2)) :
    Gets stop before (onDisk cause step) fun _ => after := by
  intro s hbefore
  obtain ⟨hstop, hafter⟩ := h s hbefore
  simp only [onDisk, ExceptT.mk]
  cases hstep : step s.1 with
  | ok disk => exact hafter disk hstep
  | error e => exact hstop

theorem gets_onDiskWith (after : Disk × Diary → Prop) {cause : DiskError → SiteError}
    {steps : Disk → Disk × Option DiskError}
    (h : ∀ s, before s → stop ((steps s.1).1, s.2) ∧
      ((steps s.1).2 = none → after ((steps s.1).1, s.2))) :
    Gets stop before (onDiskWith cause steps) fun _ => after := by
  intro s hbefore
  obtain ⟨hstop, hafter⟩ := h s hbefore
  simp only [onDiskWith, ExceptT.mk]
  cases hfailure : (steps s.1).2 with
  | none => exact hafter hfailure
  | some e => exact hstop

theorem Grows.gets {attempt : Attempt α} (h : attempt.Grows) {kept : Location → Prop}
    {disk : Disk} (hstop : ∀ s, Disk.KeptOn kept disk s.1 → stop s) :
    Gets stop (fun s => Disk.KeptOn kept disk s.1) attempt
      fun _ s => Disk.KeptOn kept disk s.1 := by
  intro s hkept
  have hafter := hkept.trans (h s).keptOn
  split
  · exact hafter
  · exact hstop _ hafter

end Attempt

theorem plainName_indexFile : Path.PlainName indexFile where
  no_slash := by decide
  step := by decide

section Steps

variable {stop : Disk × Diary → Prop} {kept : Location → Prop} {made : Disk} {target : Path}

/-- Of what stood there when the target was made, removing an old page only takes what has
the name of the page. -/
theorem gets_removeOldPage (hmade : made.isDirectory target = true)
    (hkept : ∀ {place other : Location}, made.locate target = .ok place → kept other →
      ¬ (place ++ [indexFile]) <+: other)
    (hstop : ∀ s, Disk.KeptOn kept made s.1 → stop s) (cause : DiskError → SiteError) :
    Attempt.Gets stop (fun s => Disk.Grown made s.1)
      (Attempt.onDisk cause fun disk =>
        if disk.pathExists (target.join indexFile) then disk.removeFile (target.join indexFile)
        else .ok disk)
      fun _ s => Disk.KeptOn kept made s.1 := by
  obtain ⟨place, children, hplace, hget⟩ := Disk.isDirectory_iff.mp hmade
  refine Attempt.gets_onDisk fun s hgrown => ⟨hstop s hgrown.keptOn, fun disk hstep => ?_⟩
  split at hstep
  · obtain ⟨removed, hremoved, hrest⟩ := Disk.keptOn_of_removeFile hstep
    obtain ⟨hplace', -⟩ := Disk.resolve_found_of_keptOn (fun _ _ => trivial) hgrown
      (fun _ _ => trivial) hplace
    obtain ⟨children', hget'⟩ := hgrown.directory trivial hget
    rcases Disk.resolve_join plainName_indexFile hplace' hget' hremoved with hname | hname
    · cases hname
      exact hgrown.keptOn.trans
        (hrest.mono fun other hother => hkept (Disk.locate_eq_ok_iff.mpr hplace) hother)
    · cases hname
  · cases hstep
    exact hgrown.keptOn

theorem gets_rootPage (hmade : made.isDirectory target = true)
    (hkept : ∀ {place other : Location}, made.locate target = .ok place → kept other →
      ¬ (place ++ [indexFile]) <+: other)
    (hstop : ∀ s, Disk.KeptOn kept made s.1 → stop s) (setting : Setting)
    (template : List String) (months : List Month) :
    Attempt.Gets stop (fun s => Disk.Grown made s.1)
      (rootPage setting target template months) fun _ s => Disk.KeptOn kept made s.1 := by
  refine Attempt.Gets.bind (gets_removeOldPage hmade hkept hstop _) fun _ => ?_
  refine Attempt.Gets.bind ((Attempt.grows_onShelf setting _).gets hstop) fun lines => ?_
  exact (Attempt.grows_onDisk _ Disk.grown_of_writeNewFile).gets hstop

theorem gets_deleteTarget {shown : Disk}
    (hstop : ∀ diary, stop ((shown.removeAll target).1, diary)) :
    Attempt.Gets stop (fun s => s.1 = shown) (deleteTarget target)
      fun _ s => s.1 = (shown.removeAll target).1 ∧ (shown.removeAll target).2 = none := by
  refine Attempt.gets_onDiskWith _ ?_
  rintro ⟨disk, diary⟩ rfl
  exact ⟨hstop diary, fun hnone => ⟨rfl, hnone⟩⟩

theorem gets_createTarget {emptied : Disk}
    (hstop : ∀ diary, stop ((emptied.makeDirectories target).1, diary)) :
    Attempt.Gets stop (fun s => s.1 = emptied) (createTarget target)
      fun _ s => s.1 = (emptied.makeDirectories target).1 ∧
        (emptied.makeDirectories target).2 = none := by
  refine Attempt.gets_onDiskWith _ ?_
  rintro ⟨disk, diary⟩ rfl
  exact ⟨hstop diary, fun hnone => ⟨rfl, hnone⟩⟩

end Steps

theorem keptOn_removeTarget (disk : Disk) (target : Path) :
    Disk.KeptOn (Spared (clearedPlaces disk target)) disk (disk.removeAll target).1 := by
  apply Disk.keptOn_removeAll
  intro place hplace other hother
  apply hother
  simp [clearedPlaces, hplace]

theorem not_prefix_of_spared {disk : Disk} {target : Path} {place other : Location}
    (hplace : (((disk.removeAll target).1.makeDirectories target).1).locate target = .ok place)
    (hother : Spared (clearedPlaces disk target) other) : ¬ (place ++ [indexFile]) <+: other := by
  apply hother
  simp [clearedPlaces, hplace]

/-- Making a site keeps everything that is not at or below one of the cleared places. -/
theorem keptOn_generate (setting : Setting) {layout : SiteLayout}
    (nonempty : layout.targetDirectory.text.isEmpty = false) (disk : Disk) (diary : Diary) :
    Disk.KeptOn
      (Spared (clearedPlaces (Diary.materializeThumbnails setting (disk, diary)).state.1
        layout.targetDirectory))
      disk (generate setting layout (disk, diary)).state.1 := by
  let shown := (Diary.materializeThumbnails setting (disk, diary)).state.1
  let emptied := (shown.removeAll layout.targetDirectory).1
  let made := (emptied.makeDirectories layout.targetDirectory).1
  let kept := Spared (clearedPlaces shown layout.targetDirectory)
  let stop : Disk × Diary → Prop := fun s => Disk.KeptOn kept disk s.1
  have hshown : Disk.Grown disk shown := Diary.grows_materializeThumbnails setting (disk, diary)
  have hemptied : Disk.KeptOn kept disk emptied :=
    hshown.keptOn.trans (keptOn_removeTarget shown _)
  have hmade : Disk.KeptOn kept disk made :=
    hemptied.trans (Disk.grown_makeDirectories emptied _).keptOn
  have stopMade : ∀ s, Disk.KeptOn kept made s.1 → stop s := fun s h => hmade.trans h
  have stopGrown : ∀ s, Disk.Grown made s.1 → stop s := fun s h => stopMade s h.keptOn
  suffices h : Attempt.Gets stop (fun s => s = (disk, diary)) (generate setting layout)
      fun _ => stop from h.stops rfl
  have hthumbnails : Attempt.Gets stop (fun s => s = (disk, diary))
      (ExceptT.lift (Diary.materializeThumbnails setting)) fun _ s => s.1 = shown := by
    refine Attempt.gets_lift fun s hs => ?_
    subst hs
    exact ⟨hshown.keptOn, fun _ _ => rfl⟩
  have hstate : Attempt.Gets stop (fun s => s.1 = shown) (ExceptT.lift Run.state)
      fun _ s => s.1 = shown := fun s h => h
  refine Attempt.Gets.bind hthumbnails ?_
  rintro ⟨days, created⟩
  refine Attempt.Gets.bind hstate ?_
  rintro ⟨_, diary⟩
  refine Attempt.Gets.bind (gets_deleteTarget fun _ => hemptied) fun _ => ?_
  refine Attempt.Gets.bind ((gets_createTarget fun _ => hmade).weaken fun s hs => hs.1) fun _ => ?_
  rintro s ⟨hs, hnone⟩
  have hdirectory := Disk.isDirectory_of_makeDirectories nonempty hnone
  suffices h : Attempt.Gets stop (fun s => Disk.Grown made s.1) _ fun _ => stop by
    refine h s ?_
    change Disk.Grown made s.1
    rw [hs]
  refine Attempt.Gets.bind ((grows_linkTemplate _ _).gets stopGrown) fun assets => ?_
  refine Attempt.Gets.bind (Attempt.grows_state.gets stopGrown) ?_
  rintro ⟨current, _⟩
  simp only
  split
  · refine Attempt.Gets.bind ((Attempt.grows_pure _).gets stopGrown) fun template => ?_
    refine Attempt.Gets.bind ((grows_monthPages _ _ _ _ _).gets stopGrown) fun failed => ?_
    refine Attempt.Gets.bind (gets_rootPage hdirectory not_prefix_of_spared stopMade _ _ _)
      fun _ => ?_
    refine Attempt.Gets.bind
      ((Attempt.grows_onDisk _ Disk.grown_of_makeLink).gets stopMade) fun _ => ?_
    exact Attempt.gets_pure stopMade
  · exact fun s h => stopGrown s h

theorem absolute_eq_ok {disk : Disk} {p q : Path} (h : SiteLayout.absolute disk p = .ok q) :
    p.absolute? disk.workingDirectory = some q := by
  unfold SiteLayout.absolute at h
  split at h
  next hsome =>
    cases h
    exact hsome
  · cases h

/-- The places of a checked layout are paths seen from the root of the disk. -/
theorem absolute?_places_of_check {disk : Disk} {diaryDirectory template target : Path}
    {layout : SiteLayout}
    (accepted : SiteLayout.check disk diaryDirectory template target = .ok layout) :
    diaryDirectory.absolute? disk.workingDirectory = some layout.diaryDirectory ∧
      target.absolute? disk.workingDirectory = some layout.targetDirectory := by
  simp only [SiteLayout.check, bind, Except.bind, pure, Except.pure, throw, throwThe,
    MonadExceptOf.throw] at accepted
  repeat' split at accepted
  all_goals cases accepted
  exact ⟨absolute_eq_ok ‹SiteLayout.absolute disk diaryDirectory = _›,
    absolute_eq_ok ‹SiteLayout.absolute disk target = _›⟩

theorem absolute?_of_check {disk : Disk} {diaryDirectory template target : Path}
    {layout : SiteLayout}
    (accepted : SiteLayout.check disk diaryDirectory template target = .ok layout) :
    target.absolute? disk.workingDirectory = some layout.targetDirectory :=
  (absolute?_places_of_check accepted).2

/-- Whatever the places of a site are and however making it ends, every file that is not
at or below a cleared place is where it was, as it was, and every path whose way does not
come by a cleared place reads as it did. -/
theorem generate_leaves_inputs (setting : Setting) {disk : Disk}
    {diaryDirectory template target : Path} {layout : SiteLayout}
    (absolute : disk.workingDirectory.isAbsolute = true)
    (accepted : SiteLayout.check disk diaryDirectory template target = .ok layout)
    (diary : Diary) :
    let cleared := clearedPlaces
      (Diary.materializeThumbnails setting (disk, diary)).state.1 layout.targetDirectory
    let after := (generate setting layout (disk, diary)).state.1
    (∀ place content modified, Spared cleared place →
      disk.at? place = some (.file content modified) →
      after.at? place = some (.file content modified)) ∧
    ∀ p content, (∀ place ∈ disk.passed true p, Spared cleared place) →
      disk.readBytes p = .ok content → after.readBytes p = .ok content := by
  have nonempty := Path.nonempty_of_absolute? absolute (absolute?_of_check accepted)
  have hkept := keptOn_generate setting nonempty disk diary
  exact ⟨fun place content modified hspared hat => hkept.file hspared hat,
    fun p content hpassed hread =>
      Disk.readBytes_of_keptOn (closed_spared _) hkept hpassed hread⟩

section Winter

open Disk (Stands)
open Naming (thumbnailFile)

theorem check_eq_ok {disk : Disk} {diaryDirectory template target : Path} {layout : SiteLayout}
    (hdiary : SiteLayout.absolute disk diaryDirectory = .ok layout.diaryDirectory)
    (htemplate : SiteLayout.absolute disk template = .ok layout.templateDirectory)
    (htarget : SiteLayout.absolute disk target = .ok layout.targetDirectory)
    (hdiaryDirectory : disk.isDirectory layout.diaryDirectory = true)
    (htemplateDirectory : disk.isDirectory layout.templateDirectory = true)
    (hpage : disk.isFile (layout.templateDirectory.join indexFile) = true)
    (hfree : disk.isFile layout.targetDirectory = false) :
    SiteLayout.check disk diaryDirectory template target = .ok layout := by
  simp [SiteLayout.check, hdiary, htemplate, htarget, hdiaryDirectory, htemplateDirectory,
    hpage, hfree, bind, Except.bind, pure, Except.pure]

def plainDiary : Diary := .new [⟨"/d"⟩] { tileWidth := 1, tileHeight := 1 } 0

def plainSetting : Setting where
  reader := .files
  now := 0

theorem join_template : (Path.mk "/t").join indexFile = ⟨"/t/index.html"⟩ := by decide

def emptyFile : Tree := .file ByteArray.empty ⟨0, 0⟩

/-- The template shows the links of each day. -/
def dayTemplate : String := "<!--RABBIT DAY-->\n[LINKS]\n<!--RABBIT DAY-->"

def decemberDay : List (String × Tree) :=
  [("rabbit-2022-12-24-7.png", emptyFile), (thumbnailFile, emptyFile)]

/-- A day with a drawing, a note and what else there is. -/
def novemberDay (strip : List (String × Tree)) : List (String × Tree) :=
  [("a-2022-11-01-05.png", emptyFile),
    ("event-2022-11-01-5.txt", .file "carrots".toUTF8 ⟨0, 0⟩)] ++ strip

/-- A disk with two days, a template and an old site, which has a link to the days. -/
def winterDisk (clock : Nat) (strip assets : List (String × Tree)) : Disk where
  root := .directory [
    ("d", .directory [("2022-12-24", .directory decemberDay),
      ("2022-11-01", .directory (novemberDay strip))]),
    ("t", .directory ((indexFile, .file dayTemplate.toUTF8 ⟨0, 0⟩) :: assets)),
    ("s", .directory [("stale.txt", emptyFile), ("days", .link ⟨"/d"⟩)])]
  workingDirectory := ⟨"/d"⟩
  clock := clock

def winterLayout : SiteLayout := ⟨⟨"/d"⟩, ⟨"/t"⟩, ⟨"/d/../s"⟩⟩

variable (clock : Nat) (strip assets : List (String × Tree))

theorem stands_november : Stands (winterDisk clock strip assets) ⟨"/d/2022-11-01"⟩
    ["d", "2022-11-01"] (novemberDay strip) :=
  ⟨by cbv, by cbv⟩

theorem stands_december : Stands (winterDisk clock strip assets) ⟨"/d/2022-12-24"⟩
    ["d", "2022-12-24"] decemberDay :=
  ⟨by cbv, by cbv⟩

theorem stands_winterTemplate : Stands (winterDisk clock strip assets) ⟨"/t"⟩ ["t"]
    ((indexFile, .file dayTemplate.toUTF8 ⟨0, 0⟩) :: assets) :=
  ⟨by cbv, by cbv⟩

theorem check_winter :
    SiteLayout.check (winterDisk clock strip assets) ⟨"/d"⟩ ⟨"/t"⟩ ⟨"../s"⟩ = .ok winterLayout := by
  refine check_eq_ok (by cbv) (by cbv) (by cbv) (by cbv) (by cbv) ?_ (by cbv)
  have stands := stands_winterTemplate clock strip assets
  exact stands.isFile_child plainName_indexFile
    (stands.speakable.join plainName_indexFile (by decide) (by decide)) (by decide) rfl

theorem claimsOn_winter : Diary.claimsOn (winterDisk clock strip assets) [⟨"/d"⟩] =
    [("2022-11-01", ⟨"/d/2022-11-01"⟩), ("2022-12-24", ⟨"/d/2022-12-24"⟩)] := by
  have stands : Stands (winterDisk clock strip assets) ⟨"/d"⟩ ["d"] _ := ⟨by cbv, rfl⟩
  have hlist : (winterDisk clock strip assets).list ⟨"/d"⟩ = .ok ["2022-12-24", "2022-11-01"] :=
    stands.list_eq
  have hdirectory {p : Path} {place : Location} {children : List (String × Tree)}
      (stands : Stands (winterDisk clock strip assets) p place children) :
      (winterDisk clock strip assets).isDirectory p = true :=
    Disk.isDirectory_iff.mpr ⟨_, _, stands.resolve_eq, stands.directory⟩
  have hnovember : Naming.isDayName "2022-11-01" = true := by decide
  have hdecember : Naming.isDayName "2022-12-24" = true := by decide
  have hjoin : Path.join ⟨"/d"⟩ "2022-11-01" = ⟨"/d/2022-11-01"⟩ := by decide
  have hjoin' : Path.join ⟨"/d"⟩ "2022-12-24" = ⟨"/d/2022-12-24"⟩ := by decide
  simp [Diary.claimsOn, Diary.claims, Diary.claimsOfRoot, hlist, Except.toOption, hnovember,
    hdecember, hjoin, hjoin', hdirectory (stands_november clock strip assets),
    hdirectory (stands_december clock strip assets), List.mergeSort]

theorem refresh_winter :
    (plainDiary.refresh ⟨plainSetting, winterDisk clock strip assets⟩).days =
        [("2022-11-01", 0), ("2022-12-24", 1)] ∧
      (plainDiary.refresh ⟨plainSetting, winterDisk clock strip assets⟩).shelf =
        #[Day.new "2022-11-01" ⟨"/d/2022-11-01"⟩ plainDiary.settings,
          Day.new "2022-12-24" ⟨"/d/2022-12-24"⟩ plainDiary.settings] := by
  rw [Diary.days_refresh rfl, Diary.shelf_refresh rfl]
  change (Diary.settleClaims _ _ (Diary.claimsOn (winterDisk clock strip assets) [⟨"/d"⟩])).2 = _ ∧
    (Diary.settleClaims _ _ (Diary.claimsOn (winterDisk clock strip assets) [⟨"/d"⟩])).1 = _
  rw [claimsOn_winter]
  exact ⟨rfl, rfl⟩

theorem newestFirst_winter :
    (plainDiary.refresh ⟨plainSetting, winterDisk clock strip assets⟩).newestFirst = [1, 0] := by
  rw [Diary.newestFirst, (refresh_winter clock strip assets).1]
  simp [List.mergeSort]

theorem isFile_decemberStrip :
    (winterDisk clock strip assets).isFile ((Path.mk "/d/2022-12-24").join thumbnailFile) =
      true := by
  have stands := stands_december clock strip assets
  exact stands.isFile_child Naming.plainName_thumbnailFile
    (stands.speakable.join Naming.plainName_thumbnailFile (by decide) (by decide)) (by decide) rfl

variable {strip} in
theorem isFile_novemberStrip {content : ByteArray} {modified : Timestamp}
    (h : Tree.lookup thumbnailFile (novemberDay strip) = some (.file content modified)) :
    (winterDisk clock strip assets).isFile ((Path.mk "/d/2022-11-01").join thumbnailFile) =
      true := by
  have stands := stands_november clock strip assets
  exact stands.isFile_child Naming.plainName_thumbnailFile
    (stands.speakable.join Naming.plainName_thumbnailFile (by decide) (by decide)) (by decide) h

def novemberStrip : List (String × Tree) := [(thumbnailFile, emptyFile)]

theorem materializeThumbnails_winter :
    let disk := winterDisk 0 novemberStrip assets
    Diary.materializeThumbnails plainSetting (disk, plainDiary) =
      ⟨(disk, plainDiary.refresh ⟨plainSetting, disk⟩), [], some (2, 0)⟩ := by
  intro disk
  have hids := newestFirst_winter 0 novemberStrip assets
  have hdone := @Diary.materializeThumbnails_of_present plainSetting
    (winterDisk 0 novemberStrip assets) plainDiary _ rfl
  rw [hids, (refresh_winter 0 novemberStrip assets).2] at hdone
  refine hdone (List.forall_mem_cons.mpr ⟨?_, List.forall_mem_singleton.mpr ?_⟩)
  · exact isFile_decemberStrip 0 novemberStrip assets
  · exact isFile_novemberStrip 0 assets rfl

/-- A drawing and the template are left alone where an old site is deleted. -/
theorem generate_leaves_inputs_winter :
    let disk := winterDisk 0 novemberStrip []
    let after := (generate plainSetting winterLayout (disk, plainDiary)).state.1
    SiteLayout.check disk ⟨"/d"⟩ ⟨"/t"⟩ ⟨"../s"⟩ = .ok winterLayout ∧
      clearedPlaces disk winterLayout.targetDirectory = [["s"], ["s", indexFile]] ∧
      after.at? ["d", "2022-11-01", "a-2022-11-01-05.png"] = some emptyFile ∧
      after.readBytes ⟨"/t/index.html"⟩ = .ok dayTemplate.toUTF8 := by
  intro disk after
  have accepted := check_winter 0 novemberStrip []
  have hcleared : clearedPlaces disk winterLayout.targetDirectory = [["s"], ["s", indexFile]] := by
    cbv
  have stands := stands_winterTemplate 0 novemberStrip []
  have hpassed : disk.passed true ⟨"/t/index.html"⟩ = [[], ["t"], ["t", indexFile]] := by cbv
  have hfound := stands.resolve_child plainName_indexFile
    (stands.speakable.join plainName_indexFile (by decide) (by decide)) (by decide) rfl rfl
  rw [join_template] at hfound
  have hread : disk.readBytes ⟨"/t/index.html"⟩ = .ok dayTemplate.toUTF8 :=
    Disk.readBytes_eq_ok_iff.mpr ⟨_, ⟨0, 0⟩, hfound, rfl⟩
  obtain ⟨files, reads⟩ :=
    generate_leaves_inputs plainSetting (by decide) accepted plainDiary
  rw [materializeThumbnails_winter, hcleared] at files reads
  refine ⟨accepted, hcleared, files _ _ _ (by simp [Spared]) rfl, reads _ _ ?_ hread⟩
  rw [hpassed]
  simp [Spared]

end Winter

section Plain

open Disk

/-- A disk with an empty diary and a template without lines. -/
def plainDisk : Disk where
  root := .directory [("d", .directory []),
    ("t", .directory [(indexFile, .file ByteArray.empty ⟨0, 0⟩)])]

theorem resolve_template :
    plainDisk.resolve true ⟨"/t/index.html"⟩ = .ok (.found ["t", indexFile]) := by
  refine resolve_eq_found_iff.mpr
    ⟨walkAlong_eq_ok_iff.mpr ⟨⟨by cbv, by cbv, by cbv⟩, walk_eq_ok_iff.mp ?_⟩, ?_⟩
  · cbv
  · intro h
    exact absurd h (by decide)

theorem readBytes_template : plainDisk.readBytes ⟨"/t/index.html"⟩ = .ok ByteArray.empty :=
  readBytes_eq_ok_iff.mpr ⟨_, _, resolve_template, rfl⟩

theorem check_plainDisk {target : Path}
    (htarget : SiteLayout.absolute plainDisk target = .ok target)
    (hfree : plainDisk.isFile target = false) :
    SiteLayout.check plainDisk ⟨"/d"⟩ ⟨"/t"⟩ target = .ok ⟨⟨"/d"⟩, ⟨"/t"⟩, target⟩ := by
  refine check_eq_ok (by cbv) (by cbv) htarget (by cbv) (by cbv) ?_ hfree
  rw [join_template]
  exact isFile_iff.mpr ⟨_, _, _, resolve_template, rfl⟩

theorem materializeThumbnails_plain :
    (Diary.materializeThumbnails plainSetting (plainDisk, plainDiary)).state.1 = plainDisk ∧
      (Diary.materializeThumbnails plainSetting (plainDisk, plainDiary)).result =
        some (0, 0) :=
  ⟨by cbv, by cbv⟩

/-- A template that is also the target is lost, and so is every other input there. -/
theorem generate_clears_template :
    SiteLayout.check plainDisk ⟨"/d"⟩ ⟨"/t"⟩ ⟨"/t"⟩ = .ok ⟨⟨"/d"⟩, ⟨"/t"⟩, ⟨"/t"⟩⟩ ∧
      plainDisk.readBytes ⟨"/t/index.html"⟩ = .ok ByteArray.empty ∧
      (generate plainSetting ⟨⟨"/d"⟩, ⟨"/t"⟩, ⟨"/t"⟩⟩ (plainDisk, plainDiary)).state.1.readBytes
        ⟨"/t/index.html"⟩ = .error .notFound := by
  refine ⟨check_plainDisk (by cbv) (by cbv), readBytes_template, ?_⟩
  let emptied : Disk := { root := .directory [("d", .directory [])] }
  let made : Disk := { root := .directory [("d", .directory []), ("t", .directory [])] }
  obtain ⟨diary, hshown⟩ : ∃ diary,
      (Diary.materializeThumbnails plainSetting (plainDisk, plainDiary)).state =
        (plainDisk, diary) := ⟨_, Prod.ext materializeThumbnails_plain.1 rfl⟩
  have hresult : ((ExceptT.lift (Diary.materializeThumbnails plainSetting) : Attempt _)
      (plainDisk, plainDiary)).result = some (.ok (0, 0)) := by
    rw [Attempt.result_lift, materializeThumbnails_plain.2]
    rfl
  have hend : (generate plainSetting ⟨⟨"/d"⟩, ⟨"/t"⟩, ⟨"/t"⟩⟩ (plainDisk, plainDiary)).state =
      (made, diary) := by
    refine (Attempt.state_bind_of_ok hresult
      ((Attempt.state_lift _ _).trans hshown) _).trans ?_
    refine (Attempt.state_bind_of_ok (a := (plainDisk, diary)) rfl rfl _).trans ?_
    refine (Attempt.state_bind_of_ok (t := (emptied, diary)) (by cbv) (by cbv) _).trans ?_
    refine (Attempt.state_bind_of_ok (t := (made, diary)) (by cbv) (by cbv) _).trans ?_
    refine (Attempt.state_bind_of_ok (a := []) (t := (made, diary))
      (by cbv) (by cbv) _).trans ?_
    refine (Attempt.state_bind_of_ok (a := (made, diary)) rfl rfl _).trans ?_
    have hlost : loadTemplate made ⟨"/t/index.html"⟩ = .error .notFound := by cbv
    simp only [join_template, hlost]
    rfl
  rw [hend]
  cbv

end Plain

end DrawingDiary.Site
