import DrawingDiary.Diary.Schedule
import DrawingDiary.Proofs.Diary.Strips
import DrawingDiary.Proofs.Diary.StripsMade

/-!
# Schedules of the days

Whatever order the days take their steps in, no schedule goes on for ever and none gets stuck
before all days are done (`Steps.le`, `exists_finished`), and to take the days one after the other
is a schedule (`materializes_materializeThumbnails`). Two days with the same directory may both
find the strip missing, and then both write it (`exists_written_twice`).
-/

namespace DrawingDiary.Diary

open Naming (thumbnailFile)
open Disk (Stands Speakable)

variable {looks : Disk → View → Prop} {ids : List DayId} {id other : DayId} {work next : Work}
  {n : Nat} {stage : Stage}

section Stages

@[simp] theorem Work.stage_enter_self : (work.enter id stage).stage id = stage := if_pos rfl

theorem Work.stage_enter_of_ne (h : other ≠ id) :
    (work.enter id stage).stage other = work.stage other := if_neg h

/-- The number of steps that a day has before it. -/
def Stage.left : Stage → Nat
  | .waiting => 4
  | .missing => 3
  | .noted => 2
  | .drawn => 1
  | .done _ => 0

/-- A step of a day leaves the stages of the others, and brings the day nearer to its end. -/
theorem Step.stage_of_ne (step : Step looks id work next) (h : other ≠ id) :
    next.stage other = work.stage other := by
  cases step <;> exact Work.stage_enter_of_ne h

theorem Step.left_lt (step : Step looks id work next) :
    (next.stage id).left < (work.stage id).left := by
  cases step with
  | found h _ | missing h _ | note h _ _ | draw h _ _ | save h =>
      rw [h]
      simp [Work.refresh, Work.save, Stage.left]

/-- The number of steps that all days have before them. -/
def Work.left (ids : List DayId) (work : Work) : Nat :=
  (ids.map fun id => (work.stage id).left).sum

theorem Work.left_lt (step : Step looks id work next) (hid : id ∈ ids) :
    next.left ids < work.left ids := by
  refine List.sum_lt_sum _ _ (fun other _ => ?_) ⟨id, hid, step.left_lt⟩
  by_cases h : other = id
  · subst h
    exact step.left_lt.le
  · rw [step.stage_of_ne h]

/-- A schedule has no more steps than its days have before them. -/
theorem Steps.le (steps : Steps looks ids n work next) : n + next.left ids ≤ work.left ids := by
  induction steps with
  | none => exact (Nat.zero_add _).le
  | step _ hid step ih =>
      have := Work.left_lt step hid
      omega

theorem Work.left_start (disk : Disk) (diary : Diary) :
    (Work.start disk diary).left ids = 4 * ids.length := by
  simp [Work.left, Work.start, Stage.left, Nat.mul_comm]

theorem Steps.trans {m : Nat} {last : Work} (first : Steps looks ids n work next)
    (second : Steps looks ids m next last) : Steps looks ids (n + m) work last := by
  induction second with
  | none => exact first
  | step _ hid step ih => exact .step (ih first) hid step

end Stages

section Progress

variable (never : ∀ disk view, looks disk view → view.NeverAborts)
  (sees : ∀ disk, ∃ view, looks disk view)

include never sees

theorem exists_step (unfinished : ∀ written, work.stage id ≠ .done written) :
    ∃ next, Step looks id work next := by
  obtain ⟨view, hview⟩ := sees work.disk
  cases h : work.stage id with
  | waiting =>
      cases hfile : work.disk.isFile (work.day id).thumbnailPath with
      | true => exact ⟨_, .found h hfile⟩
      | false => exact ⟨_, .missing h hfile⟩
  | missing =>
      exact ⟨_, .note h hview (Day.result_refreshKind_of_reads (never _ _ hview .event))⟩
  | noted =>
      exact ⟨_, .draw h hview (Day.result_refreshKind_of_reads (never _ _ hview .image))⟩
  | drawn => exact ⟨_, .save h⟩
  | done written => exact absurd h (unfinished written)

/-- However far the days have come, they can go on until all are done. -/
theorem exists_finished (ids : List DayId) (work : Work) :
    ∃ n last, Steps looks ids n work last ∧ last.Finished ids := by
  induction hleft : work.left ids using Nat.strong_induction_on generalizing work with
  | _ left ih =>
    by_cases finished : work.Finished ids
    · exact ⟨0, work, .none, finished⟩
    · obtain ⟨id, hid, unfinished⟩ : ∃ id ∈ ids, ∀ written, work.stage id ≠ .done written := by
        simpa [Work.Finished] using finished
      obtain ⟨next, step⟩ := exists_step never sees unfinished
      obtain ⟨n, last, steps, hlast⟩ := ih _ (hleft ▸ Work.left_lt step hid) next rfl
      exact ⟨_, last, (Steps.step .none hid step).trans steps, hlast⟩

theorem exists_materializes (view : View) (diary : Diary) :
    ∃ outcome, Materializes looks view diary outcome :=
  let ⟨n, work, steps, finished⟩ := exists_finished never sees (diary.refresh view).newestFirst
    (.start view.disk (diary.refresh view))
  ⟨_, n, work, steps, finished, rfl⟩

end Progress

section InTurn

variable {setting : Setting} {answer : Bool}

/-- What a day does in its turn when its file is missing and no read is aborted. -/
theorem exists_of_missing {disk : Disk} {day : Day}
    (missing : disk.isFile day.thumbnailPath = false)
    (answers : (Day.createThumbnailFile setting (disk, day)).result = some answer) :
    ∃ noted drawn, Day.refreshEvents ⟨setting, disk⟩ day = noted ∧ noted.result = some () ∧
      Day.refreshImages ⟨setting, disk⟩ noted.state = drawn ∧ drawn.result = some () ∧
      Day.createThumbnailFile setting (disk, day) =
        ⟨((Day.saveStrip drawn.state.images.strip drawn.state.thumbnailPath disk).1, drawn.state),
          noted.reads ++ drawn.reads,
          some (Day.saveStrip drawn.state.images.strip drawn.state.thumbnailPath disk).2⟩ := by
  have hday := Day.createThumbnailFile_eq setting disk day
  rw [missing, if_neg Bool.false_ne_true, Day.refreshForStrip, Run.bind_apply] at hday
  rw [hday] at answers ⊢
  cases hnoted : (Day.refreshEvents ⟨setting, disk⟩ day).result with
  | none => simp [hnoted] at answers
  | some _ =>
      cases hdrawn : (Day.refreshImages ⟨setting, disk⟩
          (Day.refreshEvents ⟨setting, disk⟩ day).state).result with
      | none => simp [hnoted, hdrawn] at answers
      | some _ => exact ⟨_, _, rfl, hnoted, rfl, hdrawn, by simp⟩

theorem Work.day_refresh (work : Work) (onShelf : id < work.diary.shelf.size) (run : Run Day Unit)
    (stage : Stage) : (work.refresh id run stage).day id = (run (work.day id)).state := by
  simp only [Work.day, Work.refresh, Shelf.day_replace]
  exact if_pos ⟨trivial, onShelf⟩

theorem Work.enter_enter (work : Work) (id : DayId) (first second : Stage) :
    (work.enter id first).enter id second = work.enter id second := by
  simp only [Work.enter, Work.mk.injEq, true_and, and_true]
  funext other
  split <;> rfl

theorem Work.refresh_refresh (work : Work) (onShelf : id < work.diary.shelf.size)
    {events images : Run Day Unit} {noted drawn : Outcome Day Unit}
    (hnoted : events (work.day id) = noted) (hdrawn : images noted.state = drawn)
    (first second : Stage) :
    (work.refresh id events first).refresh id images second =
      { work.enter id second with
        diary := { work.diary with shelf := work.diary.shelf.replace id drawn.state }
        reads := work.reads ++ (noted.reads ++ drawn.reads) } := by
  have hday := work.day_refresh onShelf events first
  rw [hnoted] at hday
  have hstage := congrArg Work.stage (work.enter_enter id first second)
  rw [Work.refresh, hday, hdrawn, Work.refresh, hnoted]
  simp only [Work.mk.injEq, Work.enter, Shelf.replace, Array.setIfInBounds_setIfInBounds,
    List.append_assoc, true_and, and_true]
  exact hstage

/-- A day whose file is missing comes in three steps to where it has drawn. -/
theorem steps_drawn (hid : id ∈ ids) (waiting : work.stage id = .waiting)
    (onShelf : id < work.diary.shelf.size)
    (missing : work.disk.isFile (work.day id).thumbnailPath = false)
    {noted drawn : Outcome Day Unit}
    (hnoted : Day.refreshEvents ⟨setting, work.disk⟩ (work.day id) = noted)
    (notedResult : noted.result = some ())
    (hdrawn : Day.refreshImages ⟨setting, work.disk⟩ noted.state = drawn)
    (drawnResult : drawn.result = some ()) :
    Steps (LooksAtOnce setting) ids 3 work
      { work.enter id .drawn with
        diary := { work.diary with shelf := work.diary.shelf.replace id drawn.state }
        reads := work.reads ++ (noted.reads ++ drawn.reads) } := by
  let first := work.enter id .missing
  let second := first.refresh id (Day.refreshEvents ⟨setting, work.disk⟩) .noted
  have hsecond : Day.refreshImages ⟨setting, work.disk⟩ (second.day id) = drawn := by
    rw [← hdrawn, ← hnoted]
    exact congrArg _ (first.day_refresh onShelf _ _)
  rw [← work.enter_enter id .missing .drawn]
  change Steps _ _ _ _ { first.enter id .drawn with
    diary := { first.diary with shelf := first.diary.shelf.replace id drawn.state }
    reads := first.reads ++ (noted.reads ++ drawn.reads) }
  rw [← first.refresh_refresh onShelf hnoted hdrawn .noted .drawn]
  exact .step (.step (.step .none hid (.missing waiting missing)) hid
    (.note Work.stage_enter_self rfl (hnoted ▸ notedResult))) hid
    (.draw Work.stage_enter_self rfl (hsecond ▸ drawnResult))

theorem exists_steps_createThumbnailFile (hid : id ∈ ids) (waiting : work.stage id = .waiting)
    (onShelf : id < work.diary.shelf.size)
    (answers : (createThumbnailFile setting id (work.disk, work.diary)).result = some answer) :
    ∃ n next reads, Steps (LooksAtOnce setting) ids n work next ∧
      createThumbnailFile setting id (work.disk, work.diary) =
        ⟨(next.disk, next.diary), reads, some answer⟩ ∧
      next.reads = work.reads ++ reads ∧ next.diary.shelf.size = work.diary.shelf.size ∧
      next.stage id = .done answer ∧ ∀ other, other ≠ id → next.stage other = work.stage other := by
  cases hfile : work.disk.isFile (work.day id).thumbnailPath with
  | true =>
      have hday := @createThumbnailFile_of_isFile setting work.disk work.diary id hfile
      rw [hday] at answers
      cases answers
      exact ⟨1, _, [], .step .none hid (.found waiting hfile), hday, (List.append_nil _).symm, rfl,
        Work.stage_enter_self, fun other h => Work.stage_enter_of_ne h⟩
  | false =>
      obtain ⟨noted, drawn, hnoted, notedResult, hdrawn, drawnResult, hday⟩ :=
        exists_of_missing hfile answers
      have steps := steps_drawn hid waiting onShelf hfile hnoted notedResult hdrawn drawnResult
      let saved := Day.saveStrip drawn.state.images.strip drawn.state.thumbnailPath work.disk
      have hwhole : createThumbnailFile setting id (work.disk, work.diary) =
          ⟨(saved.1, { work.diary with shelf := work.diary.shelf.replace id drawn.state }),
            noted.reads ++ drawn.reads, some saved.2⟩ := by
        simp only [createThumbnailFile, Run.onPart]
        rw [show work.diary.shelf.day id = work.day id from rfl, hday]
      rw [hwhole] at answers
      obtain rfl := Option.some.inj answers
      have hdrawnDay : (work.diary.shelf.replace id drawn.state).day id = drawn.state := by
        rw [Shelf.day_replace]
        exact if_pos ⟨rfl, onShelf⟩
      refine ⟨4, _, noted.reads ++ drawn.reads, .step steps hid (.save Work.stage_enter_self), ?_,
        rfl, Array.size_setIfInBounds, ?_, fun other h => ?_⟩
      · simp only [hwhole, Work.save, Work.day, hdrawnDay]
        rfl
      · simp only [Work.save, Work.day, hdrawnDay]
        exact Work.stage_enter_self
      · exact (Work.stage_enter_of_ne h).trans (Work.stage_enter_of_ne h)

theorem exists_steps_forEach {rest : List DayId} {answers : List Bool}
    (sub : ∀ id ∈ rest, id ∈ ids) (distinct : rest.Nodup)
    (waiting : ∀ id ∈ rest, work.stage id = .waiting)
    (onShelf : ∀ id ∈ rest, id < work.diary.shelf.size)
    (hanswers : (Run.forEach rest (createThumbnailFile setting)
      (work.disk, work.diary)).result = some answers) :
    ∃ n next reads, Steps (LooksAtOnce setting) ids n work next ∧
      Run.forEach rest (createThumbnailFile setting) (work.disk, work.diary) =
        ⟨(next.disk, next.diary), reads, some answers⟩ ∧
      next.reads = work.reads ++ reads ∧ rest.map next.stage = answers.map .done ∧
      ∀ other ∉ rest, next.stage other = work.stage other := by
  induction rest generalizing work answers with
  | nil =>
      cases hanswers
      exact ⟨0, work, [], .none, rfl, (List.append_nil _).symm, rfl, fun _ _ => rfl⟩
  | cons id rest ih =>
      obtain ⟨hid, distinctRest⟩ := List.nodup_cons.mp distinct
      rw [Run.forEach_cons, Run.bind_apply] at hanswers ⊢
      cases hanswer : (createThumbnailFile setting id (work.disk, work.diary)).result with
      | none => simp [hanswer] at hanswers
      | some answer =>
        obtain ⟨n, middle, reads, steps, hday, hreads, hsize, hdone, hothers⟩ :=
          exists_steps_createThumbnailFile (sub id List.mem_cons_self)
            (waiting id List.mem_cons_self) (onShelf id List.mem_cons_self) hanswer
        have hne {other : DayId} (hother : other ∈ rest) : other ≠ id :=
          fun h => hid (h ▸ hother)
        rw [hday] at hanswers ⊢
        simp only [Run.bind_apply] at hanswers ⊢
        cases hrest : (Run.forEach rest (createThumbnailFile setting)
            (middle.disk, middle.diary)).result with
        | none => simp [hrest] at hanswers
        | some others =>
          obtain ⟨m, last, more, steps', hrun, hmore, hdones, hothers'⟩ := ih
            (fun other hother => sub other (List.mem_cons_of_mem _ hother)) distinctRest
            (fun other hother => (hothers other (hne hother)).trans
              (waiting other (List.mem_cons_of_mem _ hother)))
            (fun other hother => hsize ▸ onShelf other (List.mem_cons_of_mem _ hother)) hrest
          rw [hrun] at hanswers ⊢
          cases hanswers
          refine ⟨n + m, last, reads ++ more, steps.trans steps', by simp, ?_, ?_, ?_⟩
          · rw [hmore, hreads, List.append_assoc]
          · rw [List.map_cons, List.map_cons, hdones, hothers' id hid, hdone]
          · intro other hother
            rw [List.mem_cons, not_or] at hother
            rw [hothers' other hother.2, hothers other hother.1]

/-- The days that take their turns one after the other follow a schedule. -/
theorem materializes_materializeThumbnails {roots : List Path} {settings : DaySettings}
    {cooldown : Nat} {diary : Diary} (reached : Reached roots settings cooldown diary)
    {disk : Disk} {answer : Nat × Nat}
    (answers : (materializeThumbnails setting (disk, diary)).result = some answer) :
    Materializes (LooksAtOnce setting) ⟨setting, disk⟩ diary
      (materializeThumbnails setting (disk, diary)) := by
  let refreshed := diary.refresh ⟨setting, disk⟩
  have wellFormed : refreshed.WellFormed := reached.wellFormed.refresh _
  have hwhole : materializeThumbnails setting (disk, diary) =
      (Run.forEach refreshed.newestFirst (createThumbnailFile setting) >>= fun written =>
        pure (refreshed.newestFirst.length, written.count true)) (disk, refreshed) := rfl
  have onShelf : ∀ id ∈ refreshed.newestFirst, id < refreshed.shelf.size := by
    intro id hid
    obtain ⟨date, hentry⟩ := mem_newestFirst_iff.mp hid
    exact (wellFormed.stands hentry).1
  rw [hwhole, Run.bind_apply] at answers ⊢
  cases hwritten : (Run.forEach refreshed.newestFirst (createThumbnailFile setting)
      (disk, refreshed)).result with
  | none => simp [hwritten] at answers
  | some written =>
    obtain ⟨n, last, reads, steps, hrun, hreads, hdone, -⟩ :=
      @exists_steps_forEach refreshed.newestFirst (.start disk refreshed) setting
        refreshed.newestFirst written (fun _ h => h) wellFormed.nodup_newestFirst
        (fun _ _ => rfl) onShelf hwritten
    change Run.forEach _ _ (disk, refreshed) = _ at hrun
    rw [hrun]
    refine ⟨n, last, steps, fun id hid => ?_, ?_⟩
    · have hmem := List.mem_map_of_mem (f := last.stage) hid
      rw [hdone] at hmem
      obtain ⟨written, -, heq⟩ := List.mem_map.mp hmem
      exact ⟨written, heq.symm⟩
    · have hcount : written.count true =
          refreshed.newestFirst.countP fun id => last.stage id = .done true := by
        have h := congrArg (List.countP (· = Stage.done true)) hdone
        rw [List.countP_map, List.countP_map] at h
        simpa [List.count, Function.comp_def, beq_iff_eq] using h.symm
      simp only [Run.pure_apply, List.append_nil, hcount, Work.outcome, hreads]
      rfl

end InTurn

section Shared

variable {setting : Setting} {settings : DaySettings} {ids : List DayId} {id other : DayId}
  {work next : Work} {place : Location}

/-- A day that has not begun and has the name of its strip free in a directory. -/
structure LacksStrip (settings : DaySettings) (work : Work) (id : DayId) (place : Location) :
    Prop where
  waiting : work.stage id = .waiting
  onShelf : id < work.diary.shelf.size
  undisturbed : Day.Undisturbed settings (work.day id)
  speakable : Speakable (work.day id).thumbnailPath
  free : ∃ children, Stands work.disk (work.day id).directory place children ∧
    Tree.lookup thumbnailFile children = none

theorem LacksStrip.isFile_eq_false (lacks : LacksStrip settings work id place) :
    work.disk.isFile (work.day id).thumbnailPath = false :=
  let ⟨_, stands, free⟩ := lacks.free
  stands.isFile_join_of_free Naming.plainName_thumbnailFile lacks.speakable free (by decide)

theorem LacksStrip.congr (lacks : LacksStrip settings work id place)
    (hdisk : next.disk = work.disk) (hsize : next.diary.shelf.size = work.diary.shelf.size)
    (hstage : next.stage id = work.stage id) (hday : next.day id = work.day id) :
    LacksStrip settings next id place where
  waiting := hstage.trans lacks.waiting
  onShelf := hsize.symm ▸ lacks.onShelf
  undisturbed := hday.symm ▸ lacks.undisturbed
  speakable := hday.symm ▸ lacks.speakable
  free := by
    rw [hdisk, hday]
    exact lacks.free

/-- A day whose file is missing can come to where it has drawn and only has to save its strip. -/
theorem exists_steps_to_save (hid : id ∈ ids) (lacks : LacksStrip settings work id place)
    (sides : AllowedSides settings.tileWidth settings.tileHeight)
    (never : View.NeverAborts ⟨setting, work.disk⟩) :
    ∃ next, Steps (LooksAtOnce setting) ids 3 work next ∧ next.disk = work.disk ∧
      next.stage id = .drawn ∧ next.diary.shelf.size = work.diary.shelf.size ∧
      (next.day id).thumbnailPath = (work.day id).thumbnailPath ∧
      (next.day id).images.strip.encode = some (next.day id).images.thumbnail ∧
      ∀ other, other ≠ id →
        next.stage other = work.stage other ∧ next.day other = work.day other := by
  let view : View := ⟨setting, work.disk⟩
  let noted := Day.refreshEvents view (work.day id)
  let drawn := Day.refreshImages view noted.state
  have named : (work.day id).Named (work.day id).date (work.day id).directory
      (work.day id).settings := ⟨rfl, rfl, rfl⟩
  have hnamed := (named.refreshKind view .event).refreshKind view .image
  have hundisturbed := (lacks.undisturbed.refreshKind never .event).refreshKind never .image
  refine ⟨_, steps_drawn hid lacks.waiting lacks.onShelf lacks.isFile_eq_false rfl
    (Day.result_refreshKind_of_reads (never .event)) rfl
    (Day.result_refreshKind_of_reads (never .image)), rfl, Work.stage_enter_self,
    Array.size_setIfInBounds, ?_, ?_, fun other h => ⟨Work.stage_enter_of_ne h, ?_⟩⟩
  · simp only [Work.day, Shelf.day_replace, Day.thumbnailPath]
    rw [if_pos ⟨trivial, lacks.onShelf⟩]
    exact congrArg (Path.join · thumbnailFile) hnamed.directory_eq
  · simp only [Work.day, Shelf.day_replace]
    rw [if_pos ⟨trivial, lacks.onShelf⟩]
    exact hundisturbed.encode_eq sides (Day.lastOpened_refreshImages view noted.state)
  · simp only [Work.day, Shelf.day_replace]
    exact if_neg fun hsame => h hsame.1.symm

theorem Work.save_of_writes {after : Disk} {bytes : ByteArray}
    (encode_eq : (work.day id).images.strip.encode = some bytes)
    (write_eq : work.disk.writeFile (work.day id).thumbnailPath bytes = .ok after) :
    work.save id = { work.enter id (.done true) with disk := after } := by
  simp only [Work.save, Day.saveStrip, encode_eq, Option.getD_some, write_eq, Option.isSome_some]

/-- Of two days with the same directory, without a strip there, both may write it: the second to
write replaces the strip of the first. -/
theorem exists_written_twice (distinct : id ≠ other) (hid : id ∈ ids) (hother : other ∈ ids)
    (lacks : LacksStrip settings work id place) (lacks' : LacksStrip settings work other place)
    (sides : AllowedSides settings.tileWidth settings.tileHeight)
    (never : View.NeverAborts ⟨setting, work.disk⟩) :
    ∃ last replaced kept, Steps (LooksAtOnce setting) ids 8 work last ∧
      last.stage id = .done true ∧ last.stage other = .done true ∧
      last.disk = (work.disk.putFile (place ++ [thumbnailFile]) replaced).putFile
        (place ++ [thumbnailFile]) kept := by
  obtain ⟨first, steps, hdisk, hdrawn, hsize, hpath, hencode, hothers⟩ :=
    exists_steps_to_save hid lacks sides never
  obtain ⟨hstage, hday⟩ := hothers other distinct.symm
  obtain ⟨second, steps', hdisk', hdrawn', -, hpath', hencode', hothers'⟩ :=
    exists_steps_to_save hother (lacks'.congr hdisk hsize hstage hday) sides (hdisk.symm ▸ never)
  obtain ⟨hstage', hday'⟩ := hothers' id distinct
  obtain ⟨children, stands, free⟩ := lacks.free
  let between := work.disk.putFile (place ++ [thumbnailFile]) (first.day id).images.thumbnail
  have hsave : second.save id = { second.enter id (.done true) with disk := between } := by
    refine Work.save_of_writes (hday'.symm ▸ hencode) ?_
    rw [hday', hdisk', hdisk, hpath]
    exact stands.writeFile_join_of_free Naming.plainName_thumbnailFile lacks.speakable free
      (by decide) _
  let third : Work := { second.enter id (.done true) with disk := between }
  have hthird : third.stage other = .drawn :=
    (Work.stage_enter_of_ne distinct.symm).trans hdrawn'
  have hagain : third.save other = { third.enter other (.done true) with
      disk := between.putFile (place ++ [thumbnailFile]) (second.day other).images.thumbnail } := by
    refine Work.save_of_writes hencode' ?_
    change between.writeFile (second.day other).thumbnailPath _ = _
    rw [hpath', hday]
    obtain ⟨children', stands', free'⟩ := lacks'.free
    obtain ⟨hfound, hat⟩ := stands'.found_of_putFile Naming.plainName_thumbnailFile
      lacks'.speakable free' (by decide) (first.day id).images.thumbnail
    exact Disk.writeFile_of_file hfound hat
  have saves : Step (LooksAtOnce setting) id second third := by
    change Step _ _ _ { second.enter id (.done true) with disk := between }
    rw [← hsave]
    exact .save (hstage'.trans hdrawn)
  refine ⟨third.save other, (first.day id).images.thumbnail, (second.day other).images.thumbnail,
    .step (.step (steps.trans steps') hid saves) hother (.save hthird), ?_, ?_, ?_⟩
  · rw [hagain]
    exact (Work.stage_enter_of_ne distinct).trans Work.stage_enter_self
  · rw [hagain]
    exact Work.stage_enter_self
  · rw [hagain]

theorem lacksStrip_new {disk : Disk} {diary : Diary} {date : String} {directory : Path}
    {children : List (String × Tree)} (onShelf : id < diary.shelf.size)
    (hday : diary.shelf.day id = Day.new date directory settings)
    (stands : Stands disk directory place children)
    (short : directory.text.utf8ByteSize + 1 + thumbnailFile.utf8ByteSize < Disk.pathLimit)
    (free : Tree.lookup thumbnailFile children = none) :
    LacksStrip settings (.start disk diary) id place where
  waiting := rfl
  onShelf := onShelf
  undisturbed := by
    rw [Work.day, show (Work.start disk diary).diary = diary from rfl, hday]
    exact Day.undisturbed_new date directory settings
  speakable := by
    rw [Work.day, show (Work.start disk diary).diary = diary from rfl, hday]
    exact stands.speakable.join Naming.plainName_thumbnailFile (by decide) short
  free := by
    rw [Work.day, show (Work.start disk diary).diary = diary from rfl, hday]
    exact ⟨children, stands, free⟩

end Shared

end DrawingDiary.Diary
