import DrawingDiary.Proofs.Diary.History

/-!
# Answers from the disk as it is

When nothing waits for a cooldown, the answer to the question for the drawing of an hour
depends on the disk at the moment of the question only, as if no look had been taken before
(`ReachedBy.dayHourImage_answers_now`). `AnswersNow` says what the answer is: first comes
whether there is such a day, then whether there is such an hour on a clock, and only then
what the first file of the hour holds.
-/

namespace DrawingDiary

section Shows

variable {view : View} {date : String} {directory : Path} {hour : Hour}

theorem View.picture?_eq_some_iff {path : Path} {picture : Picture} :
    view.picture? path = some picture ↔ view.reader.image view.disk path = .success picture ∧
      (Png.encode picture).isSome = true := by
  unfold View.picture?
  cases view.reader.image view.disk path with
  | success read =>
      by_cases hencode : (Png.encode read).isSome = true
      · simp only [if_pos hencode, Option.some.injEq, ReadResult.success.injEq]
        constructor
        · rintro rfl
          exact ⟨rfl, hencode⟩
        · exact fun h => h.1
      · simp only [if_neg hencode, reduceCtorEq, ReadResult.success.injEq, false_iff, not_and]
        rintro rfl
        exact hencode
  | failure cause => simp
  | aborted => simp

/-- Nothing is shown for an hour when no file is for it, or when the first one cannot be
read or encoded. -/
theorem View.not_shows_iff : (∀ image, ¬ view.Shows date directory hour image) ↔
    (∀ file, ¬ IsHourlyFile .image date directory view.disk hour file) ∨
      ∃ file, IsFirstFile .image date directory view.disk hour file ∧
        view.picture? (directory.join file) = none := by
  constructor
  · intro hnothing
    cases hfind : (hourlyFiles .image date directory view.disk).find?
        (fun file => file.hour = hour) with
    | none => exact .inl (find?_hourlyFiles_eq_none_iff.mp hfind)
    | some file =>
        obtain ⟨first, -⟩ := find?_hourlyFiles_eq_some_iff.mp hfind
        refine .inr ⟨file.name, first, Option.eq_none_iff_forall_ne_some.mpr ?_⟩
        intro picture hpicture
        obtain ⟨hread, hencode⟩ := View.picture?_eq_some_iff.mp hpicture
        obtain ⟨data, hdata⟩ := Option.isSome_iff_exists.mp hencode
        obtain ⟨moment, hmoment⟩ := Disk.exists_modified_of_isFile first.isFile
        exact hnothing ⟨data, moment⟩ ⟨file.name, picture, first, hmoment, hread, hdata⟩
  · rintro (hnone | ⟨file, first, hfails⟩) image ⟨name, picture, first', -, hread, hencode⟩
    · exact hnone name first'.toIsHourlyFile
    · obtain rfl := first.unique first'
      have hpicture := View.picture?_eq_some_iff.mpr ⟨hread, by rw [hencode]; rfl⟩
      rw [hfails] at hpicture
      cases hpicture

theorem HonestSince.cons_self {history : List View} (honest : HonestSince history view) :
    HonestSince (view :: history) view := by
  intro earlier hearlier date directory hour name name' picture first first' hmoment hread
  rcases List.mem_cons.mp hearlier with rfl | hmem
  · obtain rfl := first.unique first'
    exact hread
  · exact honest earlier hmem date directory hour name name' picture first first' hmoment hread

end Shows

namespace Diary

/-- The answer that the disk as it is calls for when the drawing of an hour is asked for. -/
structure AnswersNow (view : View) (roots : List Path) (name : String) (hour : UInt32)
    (answer : Except LookupError ByteArray) : Prop where
  noSuchDay : answer = .error (.noSuchDay name) ↔ ¬(Naming.IsWrittenDate name ∧
    ∃ root ∈ roots, (∃ names, view.disk.list root = .ok names ∧ name ∈ names) ∧
      view.disk.isDirectory (root.join name) = true)
  invalidHour : ∀ root, roots.find? (holdsDayOn view.disk name) = some root →
    (answer = .error (.invalidHour hour) ↔ 23 < hour.toNat)
  noSuchHour : ∀ root, roots.find? (holdsDayOn view.disk name) = some root →
    ∀ h : Hour, h.val = hour.toNat →
      (answer = .error (.noSuchHour name hour) ↔
        (∀ file, ¬ IsHourlyFile .image name (root.join name) view.disk h file) ∨
          ∃ file, IsFirstFile .image name (root.join name) view.disk h file ∧
            view.picture? ((root.join name).join file) = none)
  drawing : ∀ root, roots.find? (holdsDayOn view.disk name) = some root →
    ∀ h : Hour, h.val = hour.toNat → ∀ file picture data,
      IsFirstFile .image name (root.join name) view.disk h file →
      view.reader.image view.disk ((root.join name).join file) = .success picture →
      Png.encode picture = some data → answer = .ok data

section Answers

variable {roots : List Path} {view : View} {name : String} {hour : UInt32} {root : Path}

theorem exists_root_iff : (∃ root, roots.find? (holdsDayOn view.disk name) = some root) ↔
    Naming.IsWrittenDate name ∧
      ∃ root ∈ roots, (∃ names, view.disk.list root = .ok names ∧ name ∈ names) ∧
        view.disk.isDirectory (root.join name) = true := by
  rw [← Option.isSome_iff_exists, List.find?_isSome]
  simp only [holdsDayOn_iff]
  constructor
  · rintro ⟨root, hroot, hdate, hday⟩
    exact ⟨hdate, root, hroot, hday⟩
  · rintro ⟨hdate, root, hroot, hday⟩
    exact ⟨root, hroot, hdate, hday⟩

theorem answersNow_noSuchDay (hnone : ∀ root, roots.find? (holdsDayOn view.disk name) ≠ some root)
    (hour : UInt32) : AnswersNow view roots name hour (.error (.noSuchDay name)) where
  noSuchDay := by
    rw [← exists_root_iff]
    simpa using hnone
  invalidHour root hroot := absurd hroot (hnone root)
  noSuchHour root hroot := absurd hroot (hnone root)
  drawing root hroot := absurd hroot (hnone root)

theorem answersNow_invalidHour (hroot : roots.find? (holdsDayOn view.disk name) = some root)
    (hlate : ¬ hour.toNat < hoursPerDay) :
    AnswersNow view roots name hour (.error (.invalidHour hour)) where
  noSuchDay := by
    rw [← exists_root_iff]
    simp [hroot]
  invalidHour _ _ := iff_of_true rfl (Nat.lt_of_succ_le (Nat.le_of_not_lt hlate))
  noSuchHour _ _ h hhour := absurd (hhour ▸ h.isLt) hlate
  drawing _ _ h hhour := absurd (hhour ▸ h.isLt) hlate

/-- The answer for an hour of a clock, given the drawing stored for it. -/
def answerOfHour (name : String) (hour : UInt32) :
    Option ByteArray → Except LookupError ByteArray
  | none => .error (.noSuchHour name hour)
  | some data => .ok data

/-- The answer for an hour of a clock is read off what is shown for it. -/
theorem answersNow_of_shows (hroot : roots.find? (holdsDayOn view.disk name) = some root)
    (hlt : hour.toNat < hoursPerDay) {stored : Option ByteArray}
    (shows_iff : ∀ data, stored = some data ↔
      ∃ moment, view.Shows name (root.join name) ⟨hour.toNat, hlt⟩ ⟨data, moment⟩) :
    AnswersNow view roots name hour (answerOfHour name hour stored) where
  noSuchDay := by
    rw [← exists_root_iff]
    cases stored <;> simp [answerOfHour, hroot]
  invalidHour _ _ := by
    have hearly : ¬ 23 < hour.toNat := Nat.not_lt.mpr (Nat.le_of_lt_succ hlt)
    cases stored <;> simp [answerOfHour, hearly]
  noSuchHour root' hroot' h hhour := by
    obtain rfl : root = root' := Option.some.inj (hroot.symm.trans hroot')
    obtain rfl : h = ⟨hour.toNat, hlt⟩ := Fin.ext hhour
    rw [← View.not_shows_iff]
    cases stored with
    | none =>
        refine iff_of_true rfl fun image hshows => ?_
        have hstored := (shows_iff image.data).mpr ⟨image.modified, hshows⟩
        cases hstored
    | some data =>
        obtain ⟨moment, hshows⟩ := (shows_iff data).mp rfl
        exact iff_of_false (by simp [answerOfHour]) fun hnothing => hnothing _ hshows
  drawing root' hroot' h hhour file picture data first hread hencode := by
    obtain rfl : root = root' := Option.some.inj (hroot.symm.trans hroot')
    obtain rfl : h = ⟨hour.toNat, hlt⟩ := Fin.ext hhour
    obtain ⟨moment, hmoment⟩ := Disk.exists_modified_of_isFile first.isFile
    rw [(shows_iff data).mpr ⟨moment, file, picture, first, hmoment, hread, hencode⟩]
    rfl

end Answers

section Lookup

variable {roots : List Path} {settings : DaySettings} {history : List View} {diary : Diary}
  {view : View}

theorem result_dayHourImage (view : View) (date : String) (hour : UInt32) (diary : Diary) :
    (dayHourImage view date hour diary).result =
      match (diary.refresh view).days.lookup date with
      | none => some (.error (.noSuchDay date))
      | some id =>
        (Day.imageData view hour ((diary.refresh view).shelf.day id)).result.map fun
          | .error e => .error e
          | .ok stored => answerOfHour date hour stored := by
  rw [dayHourImage, Run.bind_apply, result_day?, state_day?]
  cases (diary.refresh view).days.lookup date with
  | none => rfl
  | some id =>
      have hanswer : (onDay id (Day.imageData view hour) (diary.refresh view)).result =
          (Day.imageData view hour ((diary.refresh view).shelf.day id)).result := rfl
      simp only
      rw [Run.bind_apply, hanswer]
      rcases (Day.imageData view hour ((diary.refresh view).shelf.day id)).result with
        _ | (e | (_ | data)) <;> rfl

/-- Without cooldowns, and over honest moments, a question for the drawing of an hour is
answered from the disk as it is, whatever came before. -/
theorem ReachedBy.dayHourImage_answers_now (reached : ReachedBy roots settings 0 history diary)
    (noCooldown : settings.imageCooldown = 0) (honest : HonestSince history view)
    (goes : ∀ path, view.reader.image view.disk path ≠ .aborted) (name : String)
    (hour : UInt32) :
    ∃ answer, (Diary.dayHourImage view name hour diary).result = some answer ∧
      AnswersNow view roots name hour answer := by
  have isOpen := Cooldown.isOpen_of_period_zero reached.reached.period view.now
  have refreshed := ReachedBy.refresh view reached
  rw [result_dayHourImage]
  cases hlookup : (diary.refresh view).days.lookup name with
  | none =>
      refine ⟨_, rfl, answersNow_noSuchDay (fun root hroot => ?_) hour⟩
      obtain ⟨rfl, -⟩ := reached.reached.roots_eq
      have hmem := (mem_dates_refresh_iff isOpen).mpr (exists_root_iff.mp ⟨root, hroot⟩)
      rw [List.lookup_eq_none_iff] at hlookup
      obtain ⟨entry, hentry, heq⟩ := List.mem_map.mp hmem
      simpa [heq] using hlookup entry hentry
  | some id =>
      have hmem : (name, id) ∈ (diary.refresh view).days := by
        obtain ⟨before, after, hdays, -⟩ := List.lookup_eq_some_iff.mp hlookup
        rw [hdays]
        simp
      obtain ⟨root, hroot, hdirectory⟩ := reached.exists_root_of_refresh isOpen hmem
      have hdate := (refreshed.reached.wellFormed.stands hmem).2
      have traced := refreshed.traced hmem
      simp only
      generalize (diary.refresh view).shelf.day id = day at hdirectory hdate traced
      by_cases hlt : hour.toNat < hoursPerDay
      · obtain ⟨stored, hresult, shows_iff⟩ := Day.result_imageData_of_honest traced.remembers
          honest.cons_self
          (Cooldown.isOpen_of_period_zero (traced.period.trans noCooldown) view.now) goes hlt
        rw [hdate, hdirectory] at shows_iff
        refine ⟨_, ?_, answersNow_of_shows hroot hlt shows_iff⟩
        rw [hresult]
        rfl
      · refine ⟨_, ?_, answersNow_invalidHour hroot hlt⟩
        rw [Day.imageData, checkHour_of_not_lt hlt]
        rfl

theorem get?_of_only {name first : String} {child t : Tree} {rest : Location}
    (h : (Tree.directory [(name, child)]).get? (first :: rest) = some t) :
    child.get? rest = some t := by
  rw [Tree.get?_cons_directory, Tree.lookup] at h
  split at h
  · exact h
  · cases h

/-- A root with one day that has a drawing of the third hour, which is later changed. -/
def changingDisk (later : Bool) : Disk where
  root := .directory [("b", .directory [("2022-11-01", .directory [
    ("rabbit-2022-11-01-3.png", .file ByteArray.empty (if later then ⟨2, 0⟩ else ⟨1, 0⟩))])])]

/-- A look at this disk, reading a white pixel first and a black one later. -/
def changingView (later : Bool) : View where
  reader := Reader.uniform ⟨1, 1, .l8, ⟨#[if later then 0 else 255]⟩, by cases later <;> rfl⟩
  now := 0
  disk := changingDisk later

theorem modified?_changingDisk {later : Bool} {path : Path} {moment : Timestamp}
    (h : (changingDisk later).modified? path = some moment) :
    moment = if later then ⟨2, 0⟩ else ⟨1, 0⟩ := by
  have hplaces (place : Location) (content : ByteArray)
      (hat : (changingDisk later).at? place = some (.file content moment)) :
      moment = if later then ⟨2, 0⟩ else ⟨1, 0⟩ := by
    rcases place with _ | ⟨root, _ | ⟨date, _ | ⟨name, rest⟩⟩⟩
    · cases hat
    · cases get?_of_only hat
    · cases get?_of_only (get?_of_only hat)
    · have hfile := get?_of_only (get?_of_only (get?_of_only hat))
      cases rest with
      | nil => cases hfile; rfl
      | cons => cases hfile
  unfold Disk.modified? at h
  split at h
  next content modified hstat =>
      obtain rfl := Option.some.inj h
      obtain ⟨place, -, hat⟩ := Disk.stat_eq_ok_iff.mp hstat
      exact hplaces place content hat
  · cases h

theorem honestSince_changingView {looks : List View} (h : looks ⊆ [changingView false]) :
    HonestSince looks (changingView true) := by
  intro earlier hearlier date directory hour name name' picture first first' hmoment
  obtain rfl := List.mem_singleton.mp (h hearlier)
  obtain ⟨moment, hbefore⟩ := Disk.exists_modified_of_isFile first.isFile
  have hnow : moment = ⟨2, 0⟩ := @modified?_changingDisk true _ _ (hmoment.symm.trans hbefore)
  rw [@modified?_changingDisk false _ _ hbefore] at hnow
  exact absurd hnow (by decide)

theorem ReachedBy.dayHourImage_answers_now_changing :
    let settings : DaySettings := { imageCooldown := 0 }
    let asked := Diary.dayHourImage (changingView false) "2022-11-01" 3
      (Diary.new [⟨"/b"⟩] settings 0)
    ∃ looks, ReachedBy [⟨"/b"⟩] settings 0 looks asked.state ∧
      HonestSince looks (changingView true) ∧
      ∃ answer, (Diary.dayHourImage (changingView true) "2022-11-01" 3 asked.state).result =
          some answer ∧
        AnswersNow (changingView true) [⟨"/b"⟩] "2022-11-01" 3 answer := by
  intro settings asked
  have reachedNew : ReachedBy [⟨"/b"⟩] settings 0 [] (Diary.new [⟨"/b"⟩] settings 0) := .new
  obtain ⟨looks, hlooks, reached⟩ :=
    reachedNew.dayHourImage (changingView false) "2022-11-01" 3
  rw [List.append_nil] at reached
  have honest := honestSince_changingView hlooks
  refine ⟨looks, reached, honest, ?_⟩
  exact reached.dayHourImage_answers_now rfl honest (fun _ h => by cases h) "2022-11-01" 3

end Lookup

end Diary

end DrawingDiary
