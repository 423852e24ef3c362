import DrawingDiary.Day.Access
import DrawingDiary.Proofs.Day.Settle
import DrawingDiary.Proofs.Run

/-!
# Calls of a day as refreshes

Whatever a caller asks of a day, the day only changes by refreshes: `Call.kinds` lists
the kinds that a call refreshes, in order, and `Call.after_eq` says that the day after
the call is the day after these refreshes, up to the first one that is aborted. A
refresh of the drawings has three outcomes, which `refreshImages_cases` lists: the gate
is closed, a read is aborted, or everything is looked at and the state settles.
-/

namespace DrawingDiary

theorem checkHour_of_lt {hour : UInt32} (h : hour.toNat < hoursPerDay) :
    checkHour hour = .ok ⟨hour.toNat, h⟩ :=
  dif_pos h

theorem checkHour_of_not_lt {hour : UInt32} (h : ¬ hour.toNat < hoursPerDay) :
    checkHour hour = .error (.invalidHour hour) :=
  dif_neg h

namespace Day

open Naming (HourlyKind)

def refreshKind (view : View) : HourlyKind → Run Day Unit
  | .image => refreshImages view
  | .event => refreshEvents view

/-- Refreshes some kinds in order, up to the first refresh that is aborted. -/
def refreshKinds (view : View) : List HourlyKind → Run Day Unit
  | [] => pure ()
  | kind :: rest => do
    refreshKind view kind
    refreshKinds view rest

inductive Call where
  | refresh
  | refreshImages
  | refreshEvents
  | imageData (hour : UInt32)
  | event (hour : UInt32)
  | events
  | thumbnailData
  | eventMask
  | imageMask
  | imageCount
  | imageFileNames
  | createThumbnailFile
  | size
deriving DecidableEq, Repr

namespace Call

/-- The day after a call. Calls that only look at the day or its directory leave the day
as it is. -/
def after (view : View) (day : Day) : Call → Day
  | .refresh => (Day.refresh view day).state
  | .refreshImages => (Day.refreshImages view day).state
  | .refreshEvents => (Day.refreshEvents view day).state
  | .imageData hour => (Day.imageData view hour day).state
  | .event hour => (Day.event view hour day).state
  | .events => (Day.events view day).state
  | .thumbnailData => (Day.thumbnailData view day).state
  | .eventMask => (Day.eventMask view day).state
  | .createThumbnailFile =>
    (Day.createThumbnailFile view.toSetting (view.disk, day)).state.2
  | .imageMask | .imageCount | .imageFileNames | .size => day

/-- The kinds that a call refreshes, in order. -/
def kinds (disk : Disk) (day : Day) : Call → List HourlyKind
  | .refresh | .eventMask => [.image, .event]
  | .refreshImages => [.image]
  | .refreshEvents | .events => [.event]
  | .imageData hour => if hour.toNat < hoursPerDay then [.image] else []
  | .event hour => if hour.toNat < hoursPerDay then [.event] else []
  | .thumbnailData => [.event, .image]
  | .createThumbnailFile => if disk.isFile day.thumbnailPath then [] else [.event, .image]
  | .imageMask | .imageCount | .imageFileNames | .size => []

end Call

@[simp] theorem refreshKinds_nil (view : View) (day : Day) :
    refreshKinds view [] day = ⟨day, [], some ()⟩ := rfl

theorem state_refreshKinds_cons (view : View) (kind : HourlyKind) (rest : List HourlyKind)
    (day : Day) :
    (refreshKinds view (kind :: rest) day).state =
      match (refreshKind view kind day).result with
      | none => (refreshKind view kind day).state
      | some _ => (refreshKinds view rest (refreshKind view kind day).state).state := by
  rw [refreshKinds, Run.state_bind]
  cases (refreshKind view kind day).result <;> rfl

@[simp] theorem state_refreshKinds_singleton (view : View) (kind : HourlyKind) (day : Day) :
    (refreshKinds view [kind] day).state = (refreshKind view kind day).state := by
  rw [state_refreshKinds_cons]
  cases (refreshKind view kind day).result <;> rfl

/-- Two refreshes in a row, of which the second runs only when the first was not
aborted. -/
theorem state_refreshKinds_pair (view : View) (first second : HourlyKind) (day : Day) :
    (refreshKinds view [first, second] day).state =
      ((refreshKind view first >>= fun _ => refreshKind view second) day).state := by
  rw [state_refreshKinds_cons, Run.state_bind]
  cases (refreshKind view first day).result with
  | none => rfl
  | some _ => exact state_refreshKinds_singleton view second _

theorem state_imageData (view : View) (hour : UInt32) (day : Day) :
    (imageData view hour day).state =
      (refreshKinds view (Call.kinds view.disk day (.imageData hour)) day).state := by
  by_cases h : hour.toNat < hoursPerDay
  · simp only [imageData, checkHour_of_lt h, Call.kinds, if_pos h,
      state_refreshKinds_singleton]
    exact Run.state_bind_of_keeps _ (fun _ _ => rfl) day
  · simp only [imageData, checkHour_of_not_lt h, Call.kinds, if_neg h]
    rfl

theorem state_event (view : View) (hour : UInt32) (day : Day) :
    (event view hour day).state =
      (refreshKinds view (Call.kinds view.disk day (.event hour)) day).state := by
  by_cases h : hour.toNat < hoursPerDay
  · simp only [event, checkHour_of_lt h, Call.kinds, if_pos h, state_refreshKinds_singleton]
    exact Run.state_bind_of_keeps _ (fun _ _ => rfl) day
  · simp only [event, checkHour_of_not_lt h, Call.kinds, if_neg h]
    rfl

/-- The refreshes that stand before the strip is written. -/
def refreshForStrip (view : View) : Run Day Unit := do
  refreshEvents view
  refreshImages view

/-- Writing the strip's file: nothing is done when it is there already, and nothing is
written when a read is aborted. -/
theorem createThumbnailFile_eq (setting : Setting) (disk : Disk) (day : Day) :
    createThumbnailFile setting (disk, day) =
      if disk.isFile day.thumbnailPath then ⟨(disk, day), [], some false⟩
      else
        let o := refreshForStrip ⟨setting, disk⟩ day
        match o.result with
        | none => ⟨(disk, o.state), o.reads, none⟩
        | some _ =>
          let saved := saveStrip o.state.images.strip o.state.thumbnailPath disk
          ⟨(saved.1, o.state), o.reads, some saved.2⟩ := by
  rw [createThumbnailFile, Run.state_bind_apply]
  by_cases hfile : disk.isFile day.thumbnailPath
  · simp only [if_pos hfile]
    rfl
  · simp only [if_neg hfile]
    change ((Run.onPart _ _ (refreshForStrip ⟨setting, disk⟩)) >>= _) (disk, day) = _
    rw [Run.bind_apply]
    simp only [Run.onPart]
    cases hresult : (refreshForStrip ⟨setting, disk⟩ day).result with
    | none => rfl
    | some _ => simp [Run.bind_apply, Run.state, Run.update, -bind_pure_comp]

theorem state_createThumbnailFile (setting : Setting) (disk : Disk) (day : Day) :
    (createThumbnailFile setting (disk, day)).state.2 =
      (refreshKinds ⟨setting, disk⟩ (Call.kinds disk day .createThumbnailFile) day).state := by
  rw [createThumbnailFile_eq]
  by_cases hfile : disk.isFile day.thumbnailPath
  · simp [Call.kinds, hfile]
  · simp only [Call.kinds, if_neg hfile, state_refreshKinds_pair]
    change _ = (refreshForStrip ⟨setting, disk⟩ day).state
    cases (refreshForStrip ⟨setting, disk⟩ day).result <;> rfl

/-- The day after a call is the day after the refreshes that the call asks for. -/
theorem Call.after_eq (view : View) (day : Day) (call : Call) :
    call.after view day = (refreshKinds view (call.kinds view.disk day) day).state := by
  cases call with
  | refresh => exact (state_refreshKinds_pair view .image .event day).symm
  | refreshImages => exact (state_refreshKinds_singleton view .image day).symm
  | refreshEvents => exact (state_refreshKinds_singleton view .event day).symm
  | imageData hour => exact state_imageData view hour day
  | event hour => exact state_event view hour day
  | events =>
      refine Eq.trans ?_ (state_refreshKinds_singleton view .event day).symm
      exact Run.state_bind_of_keeps _ (fun _ _ => rfl) day
  | thumbnailData =>
      refine Eq.trans ?_ (state_refreshKinds_pair view .event .image day).symm
      refine Run.state_bind_congr _ (fun _ s => ?_) day
      exact Run.state_bind_of_keeps _ (fun _ _ => rfl) s
  | eventMask =>
      refine Eq.trans ?_ (state_refreshKinds_pair view .image .event day).symm
      refine Run.state_bind_congr _ (fun _ s => ?_) day
      exact Run.state_bind_of_keeps _ (fun _ _ => rfl) s
  | imageMask => rfl
  | imageCount => rfl
  | imageFileNames => rfl
  | createThumbnailFile => exact state_createThumbnailFile view.toSetting view.disk day
  | size => rfl

end Day

end DrawingDiary
