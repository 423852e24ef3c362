import DrawingDiary.Proofs.Day.First
import DrawingDiary.Proofs.Day.NewStart

/-!
# Where a remembered drawing comes from

A day stores nothing that it was not shown: each drawing that it remembers was, at one of
the looks at it so far, the drawing in the first file of the hour (`Remembers`). Over honest
moments this is all that has to be known of the past. After one more completed refresh the
day stores for an hour what the directory shows now and nothing else
(`at?_slots_settledImages_iff`), whatever was done with it before. Nothing is asked of the
size of its tiles, since only the stored drawings count here, not the strip.
-/

namespace DrawingDiary

open Naming (HourlyKind)

/-- The drawing as it is read from the first file of an hour and encoded, with the moment
at which the file was changed. -/
def View.Shows (view : View) (date : String) (directory : Path) (hour : Hour)
    (image : HourImage) : Prop :=
  ∃ name picture, IsFirstFile .image date directory view.disk hour name ∧
    view.disk.modified? (directory.join name) = some image.modified ∧
    view.reader.image view.disk (directory.join name) = .success picture ∧
    Png.encode picture = some image.data

/-- In no day directory a first file of an hour holds another picture than at an earlier
look although its moment of change is the same. -/
def HonestSince (history : List View) (view : View) : Prop :=
  ∀ earlier ∈ history, ∀ date directory hour name name' picture,
    IsFirstFile .image date directory earlier.disk hour name →
    IsFirstFile .image date directory view.disk hour name' →
    earlier.disk.modified? (directory.join name) = view.disk.modified? (directory.join name') →
    earlier.reader.image earlier.disk (directory.join name) = .success picture →
    view.reader.image view.disk (directory.join name') = .success picture

namespace ImageState

variable {s : ImageState} {looks : List ImageLook} {hour : Hour}

theorem at?_slots_accept (look : ImageLook) (hour : Hour) :
    (s.accept look).slots.at? hour =
      if look.hour = hour then
        match look.load with
        | .loaded _ image => some image
        | _ => s.slots.at? hour
      else s.slots.at? hour := by
  unfold accept
  cases look.load with
  | loaded tile image => rw [Slots.at?_put]
  | unchanged => simp
  | failed => simp
  | aborted => simp

theorem at?_slots_foldl_accept (distinct : looks.Pairwise fun a b => a.hour ≠ b.hour)
    (hour : Hour) :
    (looks.foldl accept s).slots.at? hour =
      match loadAt? looks hour with
      | some (.loaded _ image) => some image
      | _ => s.slots.at? hour := by
  induction looks generalizing s with
  | nil => rfl
  | cons look rest ih =>
      obtain ⟨hne, hrest⟩ := List.pairwise_cons.mp distinct
      rw [List.foldl_cons, ih hrest, at?_slots_accept, loadAt?_cons]
      by_cases heq : look.hour = hour
      · subst heq
        rw [loadAt?_eq_none_of_ne hne, if_pos rfl, if_pos rfl]
        cases look.load <;> rfl
      · rw [if_neg heq, if_neg heq]

theorem at?_slots_foldl_clear (hours : List Hour) (hour : Hour) :
    (hours.foldl clear s).slots.at? hour = if hour ∈ hours then none else s.slots.at? hour := by
  have hclear (s : ImageState) (cleared : Hour) : (s.clear cleared).slots.at? hour =
      if cleared = hour then none else s.slots.at? hour := by
    unfold clear
    split
    · rw [Slots.at?_put]
    next hempty =>
      split
      next heq =>
        subst heq
        simpa using hempty
      · rfl
  induction hours generalizing s with
  | nil => simp
  | cons first rest ih =>
      rw [List.foldl_cons, ih, hclear]
      by_cases heq : first = hour
      · simp [heq]
      · simp [heq, Ne.symm heq]

/-- What a refresh stores for an hour: a drawing that was read, the one that was there when
it was found unchanged, and else nothing. -/
theorem at?_slots_settle (distinct : looks.Pairwise fun a b => a.hour ≠ b.hour) (hour : Hour) :
    (s.settle looks).slots.at? hour =
      match loadAt? looks hour with
      | some (.loaded _ image) => some image
      | some .unchanged => s.slots.at? hour
      | _ => none := by
  have hpresent := any_isPresent_eq distinct hour
  change (List.foldl clear (looks.foldl accept s) _).slots.at? hour = _
  rw [at?_slots_foldl_clear, at?_slots_foldl_accept distinct]
  simp only [List.mem_filter, mem_allHours, true_and, hpresent]
  cases loadAt? looks hour with
  | none => rfl
  | some load => cases load <;> rfl

end ImageState

namespace Day

variable {view : View} {day : Day} {history : List View} {hour : Hour} {image : HourImage}

/-- Every drawing that a day remembers was shown to it at one of the looks. -/
def Remembers (history : List View) (day : Day) : Prop :=
  ∀ hour image, day.images.slots.at? hour = some image →
    ∃ earlier ∈ history, earlier.Shows day.date day.directory hour image

theorem remembers_new (history : List View) (date : String) (directory : Path)
    (settings : DaySettings) : (new date directory settings).Remembers history := by
  intro hour image hstored
  rw [new, Slots.at?_empty] at hstored
  cases hstored

theorem at?_slots_settledImages (view : View) (day : Day) (hour : Hour) :
    (day.settledImages view).slots.at? hour =
      match loadAt? (day.imageLooks view) hour with
      | some (.loaded _ image) => some image
      | some .unchanged => day.images.slots.at? hour
      | _ => none :=
  ImageState.at?_slots_settle (pairwise_hour_imageLooks view day) hour

theorem shows_iff_of_first {name : String} {moment : Timestamp}
    (first : IsFirstFile .image day.date day.directory view.disk hour name)
    (hmoment : view.disk.modified? (day.directory.join name) = some moment) :
    view.Shows day.date day.directory hour image ↔ image.modified = moment ∧
      ∃ picture, view.reader.image view.disk (day.directory.join name) = .success picture ∧
        Png.encode picture = some image.data := by
  constructor
  · rintro ⟨other, picture, first', hmodified, hread, hencode⟩
    obtain rfl := first.unique first'
    rw [hmoment] at hmodified
    exact ⟨(Option.some.inj hmodified).symm, picture, hread, hencode⟩
  · intro h
    rcases h with ⟨rfl, picture, hread, hencode⟩
    exact ⟨name, picture, first, hmoment, hread, hencode⟩

theorem shows_of_loaded {tile : Raster}
    (h : loadAt? (day.imageLooks view) hour = some (.loaded tile image)) :
    view.Shows day.date day.directory hour image := by
  rw [loadAt?_imageLooks] at h
  obtain ⟨file, hfile, hload⟩ := Option.map_eq_some_iff.mp h
  obtain ⟨first, heq⟩ := file?_eq_some_iff.mp hfile
  rw [load_ofFile] at hload
  split at hload
  · cases hload
  next moment hmoment =>
      split at hload
      · cases hload
      · rw [heq] at hmoment hload
        refine (shows_iff_of_first first hmoment).mpr ?_
        cases hread : view.reader.image view.disk (day.directory.join file.name) with
        | success picture =>
            rw [hread] at hload
            obtain ⟨-, hencode, hmodified⟩ := load_ofPicture hload
            exact ⟨hmodified, picture, rfl, hencode⟩
        | failure cause =>
            rw [hread] at hload
            cases hload
        | aborted =>
            rw [hread] at hload
            cases hload

section Calls

theorem Remembers.mono {longer : List View} (remembers : day.Remembers history)
    (sub : history ⊆ longer) : day.Remembers longer := by
  intro hour image hstored
  obtain ⟨earlier, hearlier, hshows⟩ := remembers hour image hstored
  exact ⟨earlier, sub hearlier, hshows⟩

theorem Remembers.settledImages (remembers : day.Remembers history) (hview : view ∈ history) :
    Remembers history { day with images := day.settledImages view } := by
  intro hour image hstored
  rw [at?_slots_settledImages] at hstored
  split at hstored
  next tile loaded hload =>
      obtain rfl := Option.some.inj hstored
      have shows : view.Shows day.date day.directory hour loaded := shows_of_loaded hload
      exact ⟨view, hview, shows⟩
  · exact remembers hour image hstored
  · cases hstored

theorem Remembers.refreshKind (remembers : day.Remembers history) (hview : view ∈ history)
    (kind : HourlyKind) : (refreshKind view kind day).state.Remembers history := by
  cases kind with
  | image =>
      change (refreshImages view day).state.Remembers history
      rcases refreshImages_cases view day with ⟨-, -, heq⟩ | ⟨-, -, heq⟩ | ⟨-, -, heq⟩
      · rw [heq]
        exact remembers
      · rw [heq]
        exact remembers
      · rw [heq]
        exact remembers.settledImages hview
  | event =>
      obtain ⟨notes, heq⟩ := exists_notes_refreshEvents view day
      change (refreshEvents view day).state.Remembers history
      rw [heq]
      exact remembers

theorem Remembers.after (remembers : day.Remembers history) (view : View) (call : Call) :
    (call.after view day).Remembers (view :: history) := by
  rw [Call.after_eq]
  refine holds_refreshKinds (motive := fun day _ => day.Remembers (view :: history)) view
    (fun kind _ _ remembers => remembers.refreshKind List.mem_cons_self kind) _ {} ?_
  exact remembers.mono (List.subset_cons_self view history)

theorem period_after (view : View) (call : Call) (day : Day) :
    (call.after view day).images.gate.period = day.images.gate.period := by
  rw [Call.after_eq]
  exact holds_refreshKinds
    (motive := fun after _ => after.images.gate.period = day.images.gate.period) view
    (fun kind _ _ period => (period_refreshKind view kind _).trans period) _ {} rfl

end Calls

/-- Over honest moments a completed refresh leaves for an hour what is shown now. -/
theorem at?_slots_settledImages_iff (remembers : day.Remembers history)
    (honest : HonestSince history view) :
    (day.settledImages view).slots.at? hour = some image ↔
      view.Shows day.date day.directory hour image := by
  rw [at?_slots_settledImages, loadAt?_imageLooks]
  cases hfile : day.file? .image view.disk hour with
  | none =>
      refine iff_of_false (by simp) ?_
      rintro ⟨name, picture, first, -⟩
      exact file?_eq_none_iff.mp hfile name first.toIsHourlyFile
  | some file =>
      obtain ⟨first, heq⟩ := file?_eq_some_iff.mp hfile
      have hpath : file.path = day.directory.join file.name := by rw [heq]
      rw [Option.map_some, load_ofFile, hpath]
      cases hmoment : view.disk.modified? (day.directory.join file.name) with
      | none =>
          refine iff_of_false (by simp) ?_
          rintro ⟨name, picture, first', hmodified, -⟩
          rw [← first.unique first', hmoment] at hmodified
          cases hmodified
      | some moment =>
          rw [shows_iff_of_first first hmoment]
          by_cases hknown : day.knownModified hour = some moment
          · -- the file was not read again, so it is to hold what it held when it was
            obtain ⟨stored, hstored, rfl⟩ := Option.map_eq_some_iff.mp hknown
            obtain ⟨earlier, hearlier, name, picture, first', hmodified, hread, hencode⟩ :=
              remembers hour stored hstored
            have hnow := honest earlier hearlier _ _ _ _ _ picture first' first
              (hmodified.trans hmoment.symm) hread
            simp only [hknown, if_true, hstored, hnow, ReadResult.success.injEq,
              exists_eq_left', hencode, Option.some.injEq]
            constructor
            · rintro rfl
              exact ⟨rfl, rfl⟩
            · intro h
              rcases h with ⟨hsame, hdata⟩
              exact congrArg₂ HourImage.mk hdata hsame.symm
          · simp only [if_neg hknown]
            cases hread : view.reader.image view.disk (day.directory.join file.name) with
            | success picture =>
                simp only [ImageLoad.ofRead, ImageLoad.ofPicture, ReadResult.success.injEq,
                  exists_eq_left']
                cases hencode : Png.encode picture with
                | none => simp
                | some data =>
                    obtain ⟨imageData, modified⟩ := image
                    simp only [Option.some.injEq, HourImage.mk.injEq]
                    exact ⟨fun h => ⟨h.2.symm, h.1⟩, fun h => ⟨h.2, h.1.symm⟩⟩
            | failure cause => simp [ImageLoad.ofRead]
            | aborted => simp [ImageLoad.ofRead]

/-- A day that is asked for the drawing of an hour answers what it stores after a refresh. -/
theorem result_imageData_of_done {asked : UInt32} (hlt : asked.toNat < hoursPerDay)
    (done : (refreshImages view day).result = some ()) :
    (imageData view asked day).result = some (.ok
      (((refreshImages view day).state.images.slots.at? ⟨asked.toNat, hlt⟩).map (·.data))) := by
  rw [imageData, checkHour_of_lt hlt]
  change ((refreshImages view >>= _) day).result = _
  rw [Run.bind_apply]
  simp only [done]
  rfl

/-- What a day answers when it is asked for the drawing of an hour: the drawing that is
shown now. -/
theorem result_imageData_of_honest (remembers : day.Remembers history)
    (honest : HonestSince history view) (isOpen : day.images.gate.isOpen view.now = true)
    (goes : ∀ path, view.reader.image view.disk path ≠ .aborted) {asked : UInt32}
    (hlt : asked.toNat < hoursPerDay) :
    ∃ answer, (imageData view asked day).result = some (.ok answer) ∧
      ∀ data, answer = some data ↔
        ∃ moment, view.Shows day.date day.directory ⟨asked.toNat, hlt⟩ ⟨data, moment⟩ := by
  have hresult : (refreshImages view day).result = some () := result_refreshImages_of_reads goes
  have hstate : (refreshImages view day).state =
      { day with images := day.settledImages view } := by
    rcases refreshImages_cases view day with ⟨hclosed, -⟩ | ⟨-, haborted, -⟩ | ⟨-, -, hstate⟩
    · rw [isOpen] at hclosed
      cases hclosed
    · rw [haborted] at hresult
      cases hresult
    · exact hstate
  refine ⟨((day.settledImages view).slots.at? ⟨asked.toNat, hlt⟩).map (·.data), ?_, ?_⟩
  · rw [result_imageData_of_done hlt hresult, hstate]
  · intro data
    rw [Option.map_eq_some_iff]
    simp only [at?_slots_settledImages_iff remembers honest]
    constructor
    · rintro ⟨image, hshows, rfl⟩
      exact ⟨image.modified, hshows⟩
    · intro h
      rcases h with ⟨moment, hshows⟩
      exact ⟨_, hshows, rfl⟩

end Day

end DrawingDiary
