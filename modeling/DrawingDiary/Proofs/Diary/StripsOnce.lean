import DrawingDiary.Proofs.Diary.Underway

/-!
# Strips are made once

Where every day has a directory to write to, which it shares with no other day without a strip,
and no read is ever aborted, all schedules of the days come to the same: every day has the file of
its strip afterwards, those that were there are as they were, and their days were not looked at,
and the answer counts the days and the files that are new (`ReachedBy.strips_once`). A day that
lists a link to where a strip was missing shows one drawing more, and of two days with the same
directory both may write the one file (`strip_shown_or_replaced`).
-/

namespace DrawingDiary.Diary

open Naming (HourlyKind hourlyName? thumbnailFile)
open Disk (Stands Speakable)

section Main

variable {roots : List Path} {settings : DaySettings} {cooldown : Nat} {history : List View}
  {diary refreshed : Diary} {looks : Disk → View → Prop} {view : View} {disk : Disk}
  {outcome : Outcome (Disk × Diary) (Nat × Nat)} {made : List (DayId × Location)}

/-- What it is for the strips of the days of a diary to be made once: `made` lists the days whose
strips were made, with the places of the files. -/
structure StripsOnce (disk : Disk) (refreshed : Diary)
    (outcome : Outcome (Disk × Diary) (Nat × Nat)) (made : List (DayId × Location)) : Prop where
  result_eq : outcome.result = some (refreshed.newestFirst.length, made.length)
  newestFirst_eq : outcome.state.2.newestFirst = refreshed.newestFirst
  isFile : ∀ id ∈ refreshed.newestFirst,
    outcome.state.1.isFile (refreshed.shelf.day id).thumbnailPath = true
  /-- A strip that was there is as it was, and its day was not looked at. -/
  kept : ∀ id ∈ refreshed.newestFirst,
    disk.isFile (refreshed.shelf.day id).thumbnailPath = true →
      outcome.state.1.readBytes (refreshed.shelf.day id).thumbnailPath =
          disk.readBytes (refreshed.shelf.day id).thumbnailPath ∧
        outcome.state.2.shelf.day id = refreshed.shelf.day id ∧
        ∀ path ∈ outcome.reads, ¬ (refreshed.shelf.day id).HasPath path
  /-- The days whose strips were made are those without. -/
  days : (made.map (·.1)).Perm (refreshed.newestFirst.filter fun id =>
    !disk.isFile (refreshed.shelf.day id).thumbnailPath)
  distinct : (made.map (·.2)).Nodup
  /-- Nothing else is new. -/
  places : ∀ place, place ∈ made.map (·.2) ↔
    disk.at? place = none ∧ outcome.state.1.at? place ≠ none
  holds : ∀ entry ∈ made,
    HoldsStrip outcome.state.1 (outcome.state.2.shelf.day entry.1) entry.2
  /-- Another time, with no other days and their strips still there, none is made. -/
  again : ∀ (looks : Disk → View → Prop) (view : View) (later refreshedLater : Diary)
    (outcomeLater : Outcome (Disk × Diary) (Nat × Nat)), later.refresh view = refreshedLater →
      refreshedLater.dayDirectories ⊆ refreshed.dayDirectories →
      (∀ directory ∈ refreshed.dayDirectories,
        view.disk.isFile (directory.join thumbnailFile) =
          outcome.state.1.isFile (directory.join thumbnailFile)) →
      Materializes looks view later outcomeLater →
      outcomeLater =
        ⟨(view.disk, refreshedLater), [], some (refreshedLater.newestFirst.length, 0)⟩
  /-- No day shows the new files, unless it has a link to where one of them was missing. -/
  shows : ∀ day : Day, ApartFromStrips .image day.date day.directory disk →
    day.imageMask outcome.state.1 = day.imageMask disk ∧
      day.imageFileNames outcome.state.1 = day.imageFileNames disk

theorem Underway.stripsOnce {work : Work} (wellFormed : refreshed.WellFormed)
    (underway : Underway settings (disk, refreshed) refreshed.newestFirst made work)
    (finished : work.Finished refreshed.newestFirst)
    (sameDays : work.diary.newestFirst = refreshed.newestFirst) :
    StripsOnce disk refreshed (work.outcome refreshed.newestFirst) made := by
  have stripsMade := underway.stripsMade
  have distinct := wellFormed.nodup_newestFirst
  rw [underway.outcome_eq distinct]
  constructor
  case result_eq => rfl
  case newestFirst_eq => exact sameDays
  case isFile => exact fun id hid => underway.isFile_of_finished finished hid
  case kept =>
    intro id hid hfile
    have unlooked : ¬ (work.stage id).HasLooked := by
      have knows := (underway.day id hid).2
      obtain ⟨written, hdone⟩ := finished id hid
      cases written with
      | true =>
          have hmade := stripsMade.isFile_eq_false ((underway.made_iff id).mpr hdone)
          exact absurd hfile (Bool.eq_false_iff.mp hmade)
      | false => exact hdone ▸ not_false
    refine ⟨?_, stripsMade.others id unlooked, fun path hpath hday => ?_⟩
    · obtain ⟨place, content, modified, hresolve, hat⟩ := Disk.isFile_iff.mp hfile
      have hread := Disk.readBytes_eq_ok_iff.mpr ⟨place, modified, hresolve, hat⟩
      rw [hread]
      exact Disk.readBytes_of_keptOn (fun _ _ => trivial) stripsMade.adds.toKeptOn
        (fun _ _ => trivial) hread
    · obtain ⟨other, looked, hday'⟩ := stripsMade.reads path hpath
      have hother : other ∈ refreshed.newestFirst := by
        by_contra h
        rw [underway.idle other h] at looked
        exact looked
      obtain rfl := wellFormed.eq_of_date_eq hid hother (hday.date_eq hday')
      exact unlooked looked
  case days => exact underway.perm_of_finished finished distinct
  case distinct => exact stripsMade.distinct
  case places => exact fun place => stripsMade.mem_places_iff
  case holds => exact stripsMade.holds
  case again =>
    intro looks view later refreshedLater outcomeLater hrefresh hdirectories hstrips h
    refine materializes_of_present hrefresh (fun id hid => ?_) h
    have hdirectory := hdirectories (List.mem_map_of_mem hid)
    obtain ⟨first, hfirst, heq⟩ := List.mem_map.mp hdirectory
    rw [Day.thumbnailPath, hstrips _ hdirectory, ← heq]
    exact underway.isFile_of_finished finished hfirst
  case shows =>
    exact fun day apart => Day.shows_eq_of_strips stripsMade.adds stripsMade.onlyStrips apart

section Reached

variable (reached : ReachedBy roots settings cooldown history diary)
  (sides : AllowedSides settings.tileWidth settings.tileHeight)
  (undisturbed : ∀ view ∈ history, view.NeverAborts)
  (never : ∀ disk view, looks disk view → view.NeverAborts)
  (hrefresh : diary.refresh view = refreshed)
  (takes : ∀ directory ∈ refreshed.dayDirectories, TakesStrip view.disk directory)
  (apart : StripsApart view.disk refreshed refreshed.newestFirst)

include reached hrefresh in
theorem ReachedBy.wellFormed_refresh : refreshed.WellFormed :=
  hrefresh ▸ reached.reached.wellFormed.refresh view

include reached sides undisturbed never hrefresh takes apart in
theorem ReachedBy.exists_underway {n : Nat} {work : Work}
    (steps : Steps looks refreshed.newestFirst n (.start view.disk refreshed) work) :
    ∃ made, Underway settings (view.disk, refreshed) refreshed.newestFirst made work := by
  have wellFormed := reached.wellFormed_refresh hrefresh
  have hundisturbed := undisturbed_refresh reached.reached.wellFormed
    (reached.reached.roots_eq.2 ▸ reached.undisturbed undisturbed) view
  rw [hrefresh, reached.reached.roots_eq.2] at hundisturbed
  let start : Disk × Diary := (view.disk, refreshed)
  have hstart : Underway settings start refreshed.newestFirst [] (.start start.1 start.2) := by
    refine underway_start fun id hid => ?_
    obtain ⟨date, hentry⟩ := mem_newestFirst_iff.mp hid
    exact hundisturbed (date, id) hentry
  have onShelf : ∀ id ∈ refreshed.newestFirst, id < start.2.shelf.size := by
    intro id hid
    obtain ⟨date, hentry⟩ := mem_newestFirst_iff.mp hid
    exact (wellFormed.stands hentry).1
  obtain ⟨made, underway⟩ := hstart.steps sides never onShelf
    (fun id hid => takes _ (List.mem_map_of_mem hid)) apart steps
  exact ⟨_, underway⟩

end Reached

/-- Strips are made once, in whatever order the days see to them. Every schedule goes on until all
days are done, which takes no more than four steps of each. -/
theorem ReachedBy.strips_once (reached : ReachedBy roots settings cooldown history diary)
    (sides : AllowedSides settings.tileWidth settings.tileHeight)
    (undisturbed : ∀ view ∈ history, view.NeverAborts)
    (never : ∀ disk view, looks disk view → view.NeverAborts)
    (sees : ∀ disk, ∃ view, looks disk view)
    (hrefresh : diary.refresh view = refreshed)
    (takes : ∀ directory ∈ refreshed.dayDirectories, TakesStrip view.disk directory)
    (apart : StripsApart view.disk refreshed refreshed.newestFirst) :
    (∀ n work, Steps looks refreshed.newestFirst n (.start view.disk refreshed) work →
        n ≤ 4 * refreshed.newestFirst.length ∧
          ∃ m last, Steps looks refreshed.newestFirst m work last ∧
            last.Finished refreshed.newestFirst) ∧
      ∀ outcome, Materializes looks view diary outcome →
        ∃ made, StripsOnce view.disk refreshed outcome made := by
  constructor
  · intro n work steps
    have hle := steps.le
    rw [Work.left_start] at hle
    exact ⟨(Nat.le_add_right _ _).trans hle, exists_finished never sees _ work⟩
  · rintro outcome ⟨n, work, steps, finished, rfl⟩
    rw [hrefresh] at steps finished ⊢
    obtain ⟨made, underway⟩ :=
      reached.exists_underway sides undisturbed never hrefresh takes apart steps
    exact ⟨made, underway.stripsOnce (reached.wellFormed_refresh hrefresh) finished
      steps.newestFirst_eq⟩

end Main

section Album

theorem newestFirst_album : (earlierDiary.refresh albumView).newestFirst = [4, 3, 1] := by
  rw [← (reached_earlierDiary.refresh albumView).flatMap_days_months, months_refresh_earlierDiary]
  rfl

/-- The days of the album have their strips, or a directory to write them to. -/
theorem takesStrip_album : ∀ directory ∈ (earlierDiary.refresh albumView).dayDirectories,
    TakesStrip albumView.disk directory := by
  obtain ⟨november, december, christmas⟩ := day_refresh_earlierDiary
  have hdirectories : (earlierDiary.refresh albumView).dayDirectories =
      [⟨"/b/2022-12-25"⟩, ⟨"/a/2022-12-24"⟩, ⟨"/a/2022-11-01"⟩] := by
    rw [dayDirectories, newestFirst_album]
    simp only [List.map_cons, List.map_nil, november, december, christmas]
    rfl
  obtain ⟨standsNovember, standsDecember, standsChristmas⟩ := stands_albumDays
  have isFile_blank (t : Tree) (h : some blankFile = some t) : t.IsFile :=
    ⟨_, _, (Option.some.inj h).symm⟩
  rw [hdirectories]
  simp only [List.forall_mem_cons]
  exact ⟨takesStrip_of_stands standsChristmas (by decide) nofun,
    takesStrip_of_stands standsDecember (by decide) isFile_blank,
    takesStrip_of_stands standsNovember (by decide) isFile_blank, nofun⟩

theorem stripsApart_album : StripsApart albumView.disk (earlierDiary.refresh albumView)
    (earlierDiary.refresh albumView).newestFirst := by
  let places : DayId → Location
    | 4 => ["b", "2022-12-25"]
    | 3 => ["a", "2022-12-24"]
    | _ => ["a", "2022-11-01"]
  obtain ⟨november, december, christmas⟩ := day_refresh_earlierDiary
  obtain ⟨standsNovember, standsDecember, standsChristmas⟩ := stands_albumDays
  have located : ∀ id ∈ [4, 3, 1], albumView.disk.locate
      ((earlierDiary.refresh albumView).shelf.day id).directory = .ok (places id) := by
    simp only [List.forall_mem_cons, november, december, christmas]
    exact ⟨Disk.locate_eq_ok_iff.mpr standsChristmas.resolve_eq,
      Disk.locate_eq_ok_iff.mpr standsDecember.resolve_eq,
      Disk.locate_eq_ok_iff.mpr standsNovember.resolve_eq, nofun⟩
  have distinct : ∀ id ∈ [4, 3, 1], ∀ other ∈ [4, 3, 1], places id = places other → id = other := by
    decide
  rw [newestFirst_album]
  intro id hid _ other hother place hplace hplace'
  rw [located id hid] at hplace
  rw [located other hother, ← hplace] at hplace'
  exact distinct id hid other hother (Except.ok.inj hplace').symm

theorem strip_november : ((earlierDiary.refresh albumView).shelf.day 1).thumbnailPath =
      ⟨"/a/2022-11-01/thumbnail.png"⟩ ∧
    albumView.disk.isFile ⟨"/a/2022-11-01/thumbnail.png"⟩ = true ∧
    albumView.disk.readBytes ⟨"/a/2022-11-01/thumbnail.png"⟩ = .ok ByteArray.empty := by
  have hjoin : Path.join ⟨"/a/2022-11-01"⟩ thumbnailFile = ⟨"/a/2022-11-01/thumbnail.png"⟩ := by
    decide
  have stands := stands_albumDays.1
  have speakable := stands.speakable.join Naming.plainName_thumbnailFile (by decide) (by decide)
  rw [day_refresh_earlierDiary.1, ← hjoin]
  exact ⟨rfl, stands.isFile_child Naming.plainName_thumbnailFile speakable (by decide) rfl,
    stands.readBytes_child Naming.plainName_thumbnailFile speakable (by decide) rfl⟩

theorem strip_christmas : ((earlierDiary.refresh albumView).shelf.day 4).thumbnailPath =
      ⟨"/b/2022-12-25/thumbnail.png"⟩ ∧
    albumView.disk.isFile ⟨"/b/2022-12-25/thumbnail.png"⟩ = false := by
  have hjoin : Path.join ⟨"/b/2022-12-25"⟩ thumbnailFile = ⟨"/b/2022-12-25/thumbnail.png"⟩ := by
    decide
  have stands := stands_albumDays.2.2
  have speakable := stands.speakable.join Naming.plainName_thumbnailFile (by decide) (by decide)
  rw [day_refresh_earlierDiary.2.2, ← hjoin]
  exact ⟨rfl, stands.isFile_join_of_free Naming.plainName_thumbnailFile speakable rfl (by decide)⟩

theorem isFile_album :
    ((earlierDiary.refresh albumView).newestFirst.filter fun id => !albumView.disk.isFile
      ((earlierDiary.refresh albumView).shelf.day id).thumbnailPath) = [4] := by
  obtain ⟨hnovember, isFileNovember, -⟩ := strip_november
  obtain ⟨hchristmas, noFile⟩ := strip_christmas
  have isFileDecember : albumView.disk.isFile
      ((earlierDiary.refresh albumView).shelf.day 3).thumbnailPath = true := by
    rw [day_refresh_earlierDiary.2.1]
    exact stands_albumDays.2.1.isFile_of_short Naming.plainName_thumbnailFile (by decide)
      (by decide) rfl
  simp [newestFirst_album, hnovember, isFileNovember, hchristmas, noFile, isFileDecember]

theorem ReachedBy.strips_once_album :
    (∃ outcome, Materializes (LooksAtOnce albumView.toSetting) albumView earlierDiary outcome) ∧
      ∀ outcome, Materializes (LooksAtOnce albumView.toSetting) albumView earlierDiary outcome →
        outcome.result = some (3, 1) ∧
          outcome.state.1.readBytes ⟨"/a/2022-11-01/thumbnail.png"⟩ = .ok ByteArray.empty ∧
          outcome.state.1.isFile ⟨"/b/2022-12-25/thumbnail.png"⟩ = true := by
  have reached : ReachedBy albumRoots {} 60 [⟨⟨Reader.files, 0⟩, earlierAlbum⟩] earlierDiary :=
    .refresh _ .new
  have undisturbed : ∀ view ∈ [(⟨⟨Reader.files, 0⟩, earlierAlbum⟩ : View)], view.NeverAborts :=
    List.forall_mem_singleton.mpr (View.neverAborts_files _ _)
  have never (disk : Disk) (view : View) (looks : LooksAtOnce albumView.toSetting disk view) :
      view.NeverAborts := looks ▸ View.neverAborts_files _ disk
  obtain ⟨goesOn, once⟩ := ReachedBy.strips_once reached
    ⟨by decide, by decide, by decide, by decide⟩ undisturbed never (fun _ => ⟨_, rfl⟩) rfl
    takesStrip_album stripsApart_album
  obtain ⟨-, n, last, steps, finished⟩ := goesOn 0 _ .none
  refine ⟨⟨_, n, last, steps, finished, rfl⟩, fun outcome h => ?_⟩
  obtain ⟨made, hmade⟩ := once outcome h
  have hlength : made.length = 1 := by
    rw [← List.length_map (f := (·.1)), hmade.days.length_eq, isFile_album]
    rfl
  have hmem (id : DayId) (h : id ∈ [4, 3, 1]) : id ∈ (earlierDiary.refresh albumView).newestFirst :=
    newestFirst_album.symm ▸ h
  obtain ⟨hnovember, hfile, hread⟩ := strip_november
  refine ⟨?_, ?_, ?_⟩
  · rw [hmade.result_eq, newestFirst_album, hlength]
    rfl
  · have hkept := (hmade.kept 1 (hmem 1 (by decide)) (by rw [hnovember, hfile])).1
    rw [hnovember] at hkept
    exact hkept.trans hread
  · have hnew := hmade.isFile 4 (hmem 4 (by decide))
    rwa [strip_christmas.1] at hnew

end Album

section Dangling

/-- A day whose only drawing is a link to where its strip is missing. -/
def danglingDrawingDisk : Disk where
  root := .directory [("2022-11-01",
    .directory [("rabbit-2022-11-01-5.png", .link ⟨"thumbnail.png"⟩)])]

def danglingDay : Day := Day.new "2022-11-01" ⟨"/2022-11-01"⟩ {}

theorem stands_danglingDrawing : Stands danglingDrawingDisk ⟨"/2022-11-01"⟩ ["2022-11-01"]
    [("rabbit-2022-11-01-5.png", .link ⟨"thumbnail.png"⟩)] :=
  ⟨by cbv, rfl⟩

theorem claimsOn_danglingDrawing :
    claimsOn danglingDrawingDisk [⟨"/"⟩] = [("2022-11-01", ⟨"/2022-11-01"⟩)] := by
  have stands : Stands danglingDrawingDisk ⟨"/"⟩ [] _ := ⟨by cbv, rfl⟩
  have hlist : danglingDrawingDisk.list ⟨"/"⟩ = .ok ["2022-11-01"] := stands.list_eq
  have hjoin : Path.join ⟨"/"⟩ "2022-11-01" = ⟨"/2022-11-01"⟩ := by decide
  have hdirectory : danglingDrawingDisk.isDirectory ⟨"/2022-11-01"⟩ = true :=
    Disk.isDirectory_iff.mpr
      ⟨_, _, stands_danglingDrawing.resolve_eq, stands_danglingDrawing.directory⟩
  have hday : Naming.isDayName "2022-11-01" = true := by decide
  simp [claimsOn, claims, claimsOfRoot, hlist, Except.toOption, hday, hjoin, hdirectory]

theorem takesStrip_danglingDrawing : TakesStrip danglingDrawingDisk ⟨"/2022-11-01"⟩ :=
  takesStrip_of_stands stands_danglingDrawing (by decide) (by simp [Tree.lookup, thumbnailFile])

theorem resolve_danglingDrawing :
    danglingDrawingDisk.resolve true ⟨"/2022-11-01/rabbit-2022-11-01-5.png"⟩ =
      .ok (.vacant ["2022-11-01"] "thumbnail.png") := by
  have hsteps : (Path.mk "/2022-11-01/rabbit-2022-11-01-5.png").trimmed.steps =
      [.here, .into "2022-11-01", .into "rabbit-2022-11-01-5.png"] := by cbv
  have htarget : (Path.mk "thumbnail.png").steps = [.into "thumbnail.png"] := by cbv
  have hshort : "thumbnail.png".utf8ByteSize ≤ Disk.nameLimit := by decide
  rw [Disk.resolve_of_not_endsWithSlash (by decide)]
  refine Disk.walkAlong_eq_ok_iff.mpr ⟨⟨by cbv, by cbv, by decide⟩, ?_⟩
  rw [hsteps]
  refine .here rfl (.through rfl (by decide) rfl rfl
    (.follow rfl (by decide) rfl rfl (fun _ => rfl) (by decide) ?_))
  rw [htarget]
  exact .free stands_danglingDrawing.directory hshort rfl

theorem isFile_danglingDrawing {fresh : Location → Tree → Prop} {after : Disk}
    (adds : Disk.Adds fresh danglingDrawingDisk after) (files : ∀ place t, fresh place t → t.IsFile)
    (hstrip : after.isFile (Path.join ⟨"/2022-11-01"⟩ thumbnailFile) = true) :
    after.isFile ⟨"/2022-11-01/rabbit-2022-11-01-5.png"⟩ = true := by
  have hfree : danglingDrawingDisk.resolve true (Path.join ⟨"/2022-11-01"⟩ thumbnailFile) =
      .ok (.vacant ["2022-11-01"] thumbnailFile) := by
    rw [Disk.resolve_of_not_endsWithSlash (by decide)]
    exact stands_danglingDrawing.walkAlong_join_of_free Naming.plainName_thumbnailFile
      takesStrip_danglingDrawing.speakable rfl (by decide)
  obtain ⟨content, modified, hat⟩ := adds.exists_file_of_vacant files hfree hstrip
  have grown : Disk.Grown danglingDrawingDisk after := adds.toKeptOn
  exact grown.isFile_of_vacant (by decide) resolve_danglingDrawing hat

theorem imageMask_danglingDrawing : (danglingDay.imageMask danglingDrawingDisk).has 5 = false := by
  have hlist : danglingDrawingDisk.list danglingDay.directory = .ok ["rabbit-2022-11-01-5.png"] :=
    stands_danglingDrawing.list_eq
  have hjoin : danglingDay.directory.join "rabbit-2022-11-01-5.png" =
      ⟨"/2022-11-01/rabbit-2022-11-01-5.png"⟩ := by decide
  rw [Bool.eq_false_iff, Ne, Day.has_imageMask_iff]
  rintro ⟨name, ⟨names, hnames, hname⟩, -, hfile⟩
  obtain rfl := Except.ok.inj (hlist.symm.trans hnames)
  obtain rfl := List.mem_singleton.mp hname
  obtain ⟨place, _, _, hresolve, -⟩ := Disk.isFile_iff.mp hfile
  rw [hjoin, resolve_danglingDrawing] at hresolve
  cases hresolve

theorem has_imageMask_of_adds {fresh : Location → Tree → Prop} {after : Disk}
    (adds : Disk.Adds fresh danglingDrawingDisk after) (files : ∀ place t, fresh place t → t.IsFile)
    (hstrip : after.isFile danglingDay.thumbnailPath = true) :
    (danglingDay.imageMask after).has 5 = true := by
  have hlist : danglingDrawingDisk.list danglingDay.directory = .ok ["rabbit-2022-11-01-5.png"] :=
    stands_danglingDrawing.list_eq
  have hnamed : hourlyName? .image "rabbit-2022-11-01-5.png" = some ⟨danglingDay.date, 5⟩ := by
    decide
  have hjoin : danglingDay.directory.join "rabbit-2022-11-01-5.png" =
      ⟨"/2022-11-01/rabbit-2022-11-01-5.png"⟩ := by decide
  have grown : Disk.Grown danglingDrawingDisk after := adds.toKeptOn
  obtain ⟨names, hnames, hsub⟩ := grown.list hlist
  have hfile := isFile_danglingDrawing adds files hstrip
  rw [← hjoin] at hfile
  exact Day.has_imageMask_iff.mpr
    ⟨_, ⟨names, hnames, hsub _ (List.mem_singleton_self _)⟩, hnamed, hfile⟩

/-- A drawing that is a link to where the strip is missing is there when the strip is. -/
theorem has_imageMask_danglingDrawing {setting : Setting}
    (never : ∀ disk, View.NeverAborts ⟨setting, disk⟩) :
    let diary := Diary.new [⟨"/"⟩] {} 60
    let refreshed := diary.refresh ⟨setting, danglingDrawingDisk⟩
    let outcomes := Materializes (LooksAtOnce setting) ⟨setting, danglingDrawingDisk⟩ diary
    (∀ directory ∈ refreshed.dayDirectories, TakesStrip danglingDrawingDisk directory) ∧
      (∃ outcome, outcomes outcome) ∧
      ∃ id ∈ refreshed.newestFirst,
        ((refreshed.shelf.day id).imageMask danglingDrawingDisk).has 5 = false ∧
        ∀ outcome, outcomes outcome →
          ((refreshed.shelf.day id).imageMask outcome.state.1).has 5 = true := by
  intro diary refreshed outcomes
  obtain ⟨hids, hday⟩ : refreshed.newestFirst = [0] ∧ refreshed.shelf.day 0 = danglingDay :=
    refresh_new_of_claims claimsOn_danglingDrawing
  have hdirectories : ∀ directory ∈ refreshed.dayDirectories,
      TakesStrip danglingDrawingDisk directory := by
    rw [dayDirectories, hids, List.map_singleton, hday]
    exact List.forall_mem_singleton.mpr takesStrip_danglingDrawing
  have neverAborts (disk : Disk) (view : View) (looks : LooksAtOnce setting disk view) :
      view.NeverAborts := looks ▸ never disk
  have hzero : 0 ∈ refreshed.newestFirst := by
    rw [hids]
    exact List.mem_singleton_self 0
  refine ⟨hdirectories, exists_materializes neverAborts (fun _ => ⟨_, rfl⟩) _ _, 0, hzero,
    hday ▸ imageMask_danglingDrawing, ?_⟩
  rintro outcome ⟨n, work, steps, finished, rfl⟩
  have apart : StripsApart danglingDrawingDisk refreshed refreshed.newestFirst := by
    rw [hids]
    intro id hid _ other hother _ _ _
    rw [List.mem_singleton.mp hid, List.mem_singleton.mp hother]
  obtain ⟨made, underway⟩ := ReachedBy.exists_underway
    (.new : ReachedBy [⟨"/"⟩] {} 60 [] diary) ⟨by decide, by decide, by decide, by decide⟩
    (List.forall_mem_nil _) neverAborts rfl hdirectories apart steps
  have hstrip := underway.isFile_of_finished finished hzero
  rw [hday] at hstrip ⊢
  exact has_imageMask_of_adds underway.stripsMade.adds (fun _ _ h => h.1) hstrip

end Dangling

section Shared

variable {setting : Setting}

/-- A day, and a link to it under the name of another day. -/
def sharedDayDisk : Disk where
  root := .directory [("2022-11-01", .directory []), ("2022-11-02", .link ⟨"2022-11-01"⟩)]

theorem stands_sharedDay :
    Stands sharedDayDisk ⟨"/2022-11-01"⟩ ["2022-11-01"] [] ∧
      Stands sharedDayDisk ⟨"/2022-11-02"⟩ ["2022-11-01"] [] := by
  refine ⟨⟨by cbv, rfl⟩, ?_, rfl⟩
  rw [Disk.resolve_of_not_endsWithSlash (by decide),
    Disk.walkAlong_eq_walk ⟨by cbv, by decide, by decide⟩ (by decide) (by decide)
      (by cbv : (Path.mk "/2022-11-02").steps = [.here, .into "2022-11-02"])]
  rfl

theorem claimsOn_sharedDay : claimsOn sharedDayDisk [⟨"/"⟩] =
    [("2022-11-01", ⟨"/2022-11-01"⟩), ("2022-11-02", ⟨"/2022-11-02"⟩)] := by
  have stands : Stands sharedDayDisk ⟨"/"⟩ [] _ := ⟨by cbv, rfl⟩
  have hlist : sharedDayDisk.list ⟨"/"⟩ = .ok ["2022-11-01", "2022-11-02"] := stands.list_eq
  have hjoin : Path.join ⟨"/"⟩ "2022-11-01" = ⟨"/2022-11-01"⟩ ∧
      Path.join ⟨"/"⟩ "2022-11-02" = ⟨"/2022-11-02"⟩ := by decide
  have hfirst := stands_sharedDay.1.isDirectory
  have hsecond := stands_sharedDay.2.isDirectory
  have hdays : Naming.isDayName "2022-11-01" ∧ Naming.isDayName "2022-11-02" := by decide
  simp [claimsOn, claims, claimsOfRoot, hlist, Except.toOption, hdays, hjoin, hfirst, hsecond,
    List.mergeSort]

theorem refresh_sharedDay (setting : Setting) :
    let refreshed := (Diary.new [⟨"/"⟩] {} 60).refresh ⟨setting, sharedDayDisk⟩
    refreshed.newestFirst = [1, 0] ∧ refreshed.shelf =
      #[Day.new "2022-11-01" ⟨"/2022-11-01"⟩ {}, Day.new "2022-11-02" ⟨"/2022-11-02"⟩ {}] := by
  intro refreshed
  have hrefresh : refreshed.days = [("2022-11-01", 0), ("2022-11-02", 1)] ∧ refreshed.shelf =
      #[Day.new "2022-11-01" ⟨"/2022-11-01"⟩ {}, Day.new "2022-11-02" ⟨"/2022-11-02"⟩ {}] := by
    rw [days_refresh rfl, shelf_refresh rfl]
    change (settleClaims _ _ (claimsOn sharedDayDisk [⟨"/"⟩])).2 = _ ∧
      (settleClaims _ _ (claimsOn sharedDayDisk [⟨"/"⟩])).1 = _
    rw [claimsOn_sharedDay]
    exact ⟨rfl, rfl⟩
  refine ⟨?_, hrefresh.2⟩
  rw [newestFirst, hrefresh.1]
  simp [List.mergeSort]

theorem takesStrip_sharedDay (setting : Setting) :
    ∀ directory ∈ ((Diary.new [⟨"/"⟩] {} 60).refresh ⟨setting, sharedDayDisk⟩).dayDirectories,
      TakesStrip sharedDayDisk directory := by
  obtain ⟨hids, hshelf⟩ := refresh_sharedDay setting
  have hdirectories : ((Diary.new [⟨"/"⟩] {} 60).refresh
      ⟨setting, sharedDayDisk⟩).dayDirectories = [⟨"/2022-11-02"⟩, ⟨"/2022-11-01"⟩] := by
    rw [dayDirectories, hids, hshelf]
    rfl
  rw [hdirectories]
  exact List.forall_mem_cons.mpr ⟨takesStrip_of_stands stands_sharedDay.2 (by decide) nofun,
    List.forall_mem_singleton.mpr (takesStrip_of_stands stands_sharedDay.1 (by decide) nofun)⟩

theorem exists_materializes_sharedDay (never : ∀ disk, View.NeverAborts ⟨setting, disk⟩) :
    ∃ outcome, Materializes (LooksAtOnce setting) ⟨setting, sharedDayDisk⟩
        (Diary.new [⟨"/"⟩] {} 60) outcome ∧ outcome.result = some (2, 2) ∧
      ∀ place, sharedDayDisk.at? place = none → outcome.state.1.at? place ≠ none →
        place = ["2022-11-01", thumbnailFile] := by
  obtain ⟨hids, hshelf⟩ := refresh_sharedDay setting
  have lacks : LacksStrip {} (.start sharedDayDisk
      ((Diary.new [⟨"/"⟩] {} 60).refresh ⟨setting, sharedDayDisk⟩)) 0 ["2022-11-01"] :=
    lacksStrip_new (hshelf ▸ by decide) (congrArg (Shelf.day · 0) hshelf) stands_sharedDay.1
      (by decide) rfl
  have lacks' : LacksStrip {} (.start sharedDayDisk
      ((Diary.new [⟨"/"⟩] {} 60).refresh ⟨setting, sharedDayDisk⟩)) 1 ["2022-11-01"] :=
    lacksStrip_new (hshelf ▸ by decide) (congrArg (Shelf.day · 1) hshelf) stands_sharedDay.2
      (by decide) rfl
  obtain ⟨last, replaced, kept, steps, hfirst, hsecond, hdisk⟩ :=
    exists_written_twice (by decide) (by decide : (0 : DayId) ∈ [1, 0]) (by decide) lacks lacks'
      ⟨by decide, by decide, by decide, by decide⟩ (never _)
  refine ⟨last.outcome [1, 0], ⟨8, last, ?_, ?_, ?_⟩, ?_, ?_⟩
  · rw [hids]
    exact steps
  · rw [hids]
    exact List.forall_mem_cons.mpr ⟨⟨true, hsecond⟩, List.forall_mem_singleton.mpr ⟨true, hfirst⟩⟩
  · rw [hids]
  · simp [Work.outcome, hfirst, hsecond]
  · intro place free new
    change last.disk.at? place ≠ none at new
    rw [hdisk] at new
    let between : Disk := sharedDayDisk.putFile (["2022-11-01"] ++ [thumbnailFile]) replaced
    have hbefore : Disk.IsDirectoryAt sharedDayDisk.root ["2022-11-01"] [] := rfl
    have hbetween : Disk.IsDirectoryAt between.root ["2022-11-01"]
      [(thumbnailFile, .file replaced sharedDayDisk.now)] := rfl
    by_cases h : between.at? place = none
    · exact Disk.eq_of_at?_putFile hbetween h new
    · exact Disk.eq_of_at?_putFile hbefore free h

end Shared

/-- Without the two conditions, on links to where a strip is missing and on days with the same
directory, the strips of the days do change what a day shows, and fewer files are new than are
counted. -/
theorem strip_shown_or_replaced :
    let setting : Setting := ⟨Reader.files, 0⟩
    let diary := Diary.new [⟨"/"⟩] {} 60
    let dangling := diary.refresh ⟨setting, danglingDrawingDisk⟩
    let shared := diary.refresh ⟨setting, sharedDayDisk⟩
    let outcomes := Materializes (LooksAtOnce setting) ⟨setting, danglingDrawingDisk⟩ diary
    (∀ disk, View.NeverAborts ⟨setting, disk⟩) ∧
      ((∀ directory ∈ dangling.dayDirectories, TakesStrip danglingDrawingDisk directory) ∧
        (∃ outcome, outcomes outcome) ∧
        ∃ id ∈ dangling.newestFirst,
          ((dangling.shelf.day id).imageMask danglingDrawingDisk).has 5 = false ∧
          ∀ outcome, outcomes outcome →
            ((dangling.shelf.day id).imageMask outcome.state.1).has 5 = true) ∧
      (∀ directory ∈ shared.dayDirectories, TakesStrip sharedDayDisk directory) ∧
        ∃ outcome, Materializes (LooksAtOnce setting) ⟨setting, sharedDayDisk⟩ diary outcome ∧
          outcome.result = some (2, 2) ∧
          ∀ place, sharedDayDisk.at? place = none → outcome.state.1.at? place ≠ none →
            place = ["2022-11-01", thumbnailFile] := by
  intro setting diary dangling shared outcomes
  have never : ∀ disk, View.NeverAborts ⟨setting, disk⟩ := View.neverAborts_files 0
  exact ⟨never, has_imageMask_danglingDrawing never, takesStrip_sharedDay setting,
    exists_materializes_sharedDay never⟩

end DrawingDiary.Diary
