import DrawingDiary.Proofs.Day.Kinds
import DrawingDiary.Proofs.Day.StripFile

/-!
# What a day answers

`Call.perform` is what a caller sees of a call: the answer, the paths that were read, the
disk and the day that are left. All calls are of one shape (`Call.perform_eq`): the kinds
that the call asks for are refreshed in order, and if none of them is aborted the answer is
read off the day as it is then, and so is the strip that may be written. A run is a list of
calls, each at its own view of the disk; `visits` are the calls of a run with the days that
they find.
-/

namespace DrawingDiary.Day

open Naming (HourlyKind)

inductive Answer where
  | done
  | drawing (found : Except LookupError (Option ByteArray))
  | note (found : Except LookupError (Option String))
  | notes (notes : Slots String)
  | thumbnail (bytes : ByteArray)
  | hours (mask : HourMask)
  | count (number : UInt32)
  | names (names : Slots String)
  | written (isWritten : Bool)
  | size (bytes : Nat)

namespace Call

/-- Runs something on the day, with a view of the disk. -/
def onDay {α : Type} (setting : Setting) (run : View → Run Day α) : Run (Disk × Day) α := fun s =>
  Run.onPart (·.2) (fun s day => (s.1, day)) (run ⟨setting, s.1⟩) s

/-- Performs a call, on the disk as it is. -/
def perform (setting : Setting) : Call → Run (Disk × Day) Answer
  | .refresh => (fun _ => .done) <$> onDay setting Day.refresh
  | .refreshImages => (fun _ => .done) <$> onDay setting Day.refreshImages
  | .refreshEvents => (fun _ => .done) <$> onDay setting Day.refreshEvents
  | .imageData hour => .drawing <$> onDay setting (Day.imageData · hour)
  | .event hour => .note <$> onDay setting (Day.event · hour)
  | .events => .notes <$> onDay setting Day.events
  | .thumbnailData => .thumbnail <$> onDay setting Day.thumbnailData
  | .eventMask => .hours <$> onDay setting Day.eventMask
  | .imageMask => (fun s => .hours (s.2.imageMask s.1)) <$> Run.state
  | .imageCount => (fun s => .count (s.2.imageCount s.1)) <$> Run.state
  | .imageFileNames => (fun s => .names (s.2.imageFileNames s.1)) <$> Run.state
  | .createThumbnailFile => .written <$> Day.createThumbnailFile setting
  | .size => (fun s => .size s.2.size) <$> Run.state

/-- What a day answers to a call once it is refreshed. -/
def answer (disk : Disk) (day : Day) : Call → Answer
  | .refresh | .refreshImages | .refreshEvents => .done
  | .imageData hour =>
    .drawing ((checkHour hour).map fun h => (day.images.slots.at? h).map (·.data))
  | .event hour => .note ((checkHour hour).map fun h => day.notes.slots.at? h)
  | .events => .notes day.notes.slots
  | .thumbnailData => .thumbnail day.images.thumbnail
  | .eventMask => .hours day.notes.mask
  | .imageMask => .hours (day.imageMask disk)
  | .imageCount => .count (day.imageCount disk)
  | .imageFileNames => .names (day.imageFileNames disk)
  | .createThumbnailFile =>
    .written (!disk.isFile day.thumbnailPath &&
      (saveStrip day.images.strip day.thumbnailPath disk).2)
  | .size => .size day.size

/-- The disk after a call, given the day once it is refreshed. -/
def diskAfter (disk : Disk) (day : Day) : Call → Disk
  | .createThumbnailFile =>
    if disk.isFile day.thumbnailPath then disk
    else (saveStrip day.images.strip day.thumbnailPath disk).1
  | _ => disk

end Call

/-- What is left of a call whose refreshes ended in the given way. -/
def Call.finish (call : Call) (disk : Disk) (refreshed : Outcome Day Unit) :
    Outcome (Disk × Day) Answer :=
  match refreshed.result with
  | none => ⟨(disk, refreshed.state), refreshed.reads, none⟩
  | some _ => ⟨(call.diskAfter disk refreshed.state, refreshed.state), refreshed.reads,
      some (call.answer disk refreshed.state)⟩

section Perform

variable (setting : Setting) (disk : Disk) (day : Day)

theorem onDay_of_refreshes {α : Type} (call : Call) (read : Day → α) {f : α → Answer}
    {run : View → Run Day α}
    (hrun : run ⟨setting, disk⟩ =
      refreshKinds ⟨setting, disk⟩ (call.kinds disk day) >>= fun _ => read <$> Run.state)
    (hdisk : ∀ after, call.diskAfter disk after = disk)
    (hanswer : ∀ after, call.answer disk after = f (read after)) :
    (f <$> Call.onDay setting run) (disk, day) =
      call.finish disk (refreshKinds ⟨setting, disk⟩ (call.kinds disk day) day) := by
  rw [map_eq_pure_bind, Run.bind_apply]
  simp only [Call.onDay, Run.onPart, hrun, Run.bind_apply, Call.finish]
  cases (refreshKinds ⟨setting, disk⟩ (call.kinds disk day) day).result with
  | none => rfl
  | some _ => simp [Run.state, map_eq_pure_bind, Run.bind_apply, hdisk, hanswer]

theorem eq_bind_read_unit (run : Run Day Unit) :
    run = run >>= fun _ => (fun _ => ()) <$> Run.state :=
  (bind_pure run).symm

theorem refreshKinds_pair (view : View) (first second : HourlyKind) :
    refreshKinds view [first, second] =
      refreshKind view first >>= fun _ => refreshKind view second := by
  change refreshKind view first >>= (fun _ => refreshKinds view [second]) = _
  rw [refreshKinds_singleton]

theorem ask_hour_eq {α : Type} (view : View) (kind : HourlyKind) (hour : UInt32)
    (read : Day → Hour → α) :
    (match checkHour hour with
      | .error e => pure (.error e)
      | .ok h => refreshKind view kind >>= fun _ =>
          (fun after => .ok (read after h)) <$> Run.state : Run Day (Except LookupError α)) =
      refreshKinds view (if hour.toNat < hoursPerDay then [kind] else []) >>= fun _ =>
        (fun after => (checkHour hour).map (read after)) <$> Run.state := by
  by_cases h : hour.toNat < hoursPerDay
  · simp only [checkHour_of_lt h, if_pos h, refreshKinds_singleton]
    rfl
  · simp only [checkHour_of_not_lt h, if_neg h]
    rfl

theorem perform_createThumbnailFile_eq :
    Call.createThumbnailFile.perform setting (disk, day) =
      Call.createThumbnailFile.finish disk
        (refreshKinds ⟨setting, disk⟩ (Call.createThumbnailFile.kinds disk day) day) := by
  change (Answer.written <$> Day.createThumbnailFile setting) (disk, day) = _
  rw [map_eq_pure_bind, Run.bind_apply, createThumbnailFile_eq]
  by_cases hfile : disk.isFile day.thumbnailPath
  · simp [hfile, Call.finish, Call.kinds, Call.diskAfter, Call.answer]
  · have hpath := thumbnailPath_refreshForStrip ⟨setting, disk⟩ day
    have hkinds : refreshForStrip ⟨setting, disk⟩ =
        refreshKinds ⟨setting, disk⟩ (Call.createThumbnailFile.kinds disk day) := by
      rw [Call.kinds, if_neg hfile, refreshKinds_pair]
      rfl
    rw [hkinds] at hpath ⊢
    simp only [if_neg hfile, Call.finish]
    cases (refreshKinds ⟨setting, disk⟩ (Call.createThumbnailFile.kinds disk day) day).result with
    | none => rfl
    | some _ => simp [Call.diskAfter, Call.answer, hpath, hfile]

/-- Every call refreshes the kinds that it asks for and reads its answer off the day then. -/
theorem Call.perform_eq (call : Call) : call.perform setting (disk, day) =
    call.finish disk (refreshKinds ⟨setting, disk⟩ (call.kinds disk day) day) := by
  cases call with
  | refresh =>
      refine onDay_of_refreshes setting disk day .refresh (fun _ => ()) ?_ (fun _ => rfl)
        fun _ => rfl
      rw [← eq_bind_read_unit]
      exact (refreshKinds_pair _ .image .event).symm
  | refreshImages =>
      refine onDay_of_refreshes setting disk day .refreshImages (fun _ => ()) ?_ (fun _ => rfl)
        fun _ => rfl
      rw [← eq_bind_read_unit]
      exact (refreshKinds_singleton _ .image).symm
  | refreshEvents =>
      refine onDay_of_refreshes setting disk day .refreshEvents (fun _ => ()) ?_ (fun _ => rfl)
        fun _ => rfl
      rw [← eq_bind_read_unit]
      exact (refreshKinds_singleton _ .event).symm
  | imageData hour =>
      refine onDay_of_refreshes setting disk day (.imageData hour) (fun after =>
        (checkHour hour).map fun h => (after.images.slots.at? h).map (·.data)) ?_ (fun _ => rfl)
        fun _ => rfl
      exact ask_hour_eq ⟨setting, disk⟩ .image hour fun after h =>
        (after.images.slots.at? h).map (·.data)
  | event hour =>
      refine onDay_of_refreshes setting disk day (.event hour) (fun after =>
        (checkHour hour).map fun h => after.notes.slots.at? h) ?_ (fun _ => rfl) fun _ => rfl
      exact ask_hour_eq ⟨setting, disk⟩ .event hour fun after h => after.notes.slots.at? h
  | events =>
      refine onDay_of_refreshes setting disk day .events (fun after => after.notes.slots) ?_
        (fun _ => rfl) fun _ => rfl
      change _ = refreshKinds _ [.event] >>= _
      rw [refreshKinds_singleton]
      rfl
  | thumbnailData =>
      refine onDay_of_refreshes setting disk day .thumbnailData (fun after =>
        after.images.thumbnail) ?_ (fun _ => rfl) fun _ => rfl
      change _ = refreshKinds _ [.event, .image] >>= _
      rw [refreshKinds_pair, bind_assoc]
      rfl
  | eventMask =>
      refine onDay_of_refreshes setting disk day .eventMask (fun after => after.notes.mask) ?_
        (fun _ => rfl) fun _ => rfl
      change _ = refreshKinds _ [.image, .event] >>= _
      rw [refreshKinds_pair, bind_assoc]
      rfl
  | imageMask => rfl
  | imageCount => rfl
  | imageFileNames => rfl
  | createThumbnailFile => exact perform_createThumbnailFile_eq setting disk day
  | size => rfl

theorem Call.state_perform (call : Call) :
    (call.perform setting (disk, day)).state.2 = call.after ⟨setting, disk⟩ day := by
  rw [Call.perform_eq, Call.after_eq, finish]
  cases (refreshKinds ⟨setting, disk⟩ (call.kinds disk day) day).result <;> rfl

theorem Call.reads_perform (call : Call) : (call.perform setting (disk, day)).reads =
    (refreshKinds ⟨setting, disk⟩ (call.kinds disk day) day).reads := by
  rw [Call.perform_eq, finish]
  cases (refreshKinds ⟨setting, disk⟩ (call.kinds disk day) day).result <;> rfl

theorem Call.result_perform (call : Call) : (call.perform setting (disk, day)).result =
    (refreshKinds ⟨setting, disk⟩ (call.kinds disk day) day).result.map fun _ =>
      call.answer disk (call.after ⟨setting, disk⟩ day) := by
  rw [Call.perform_eq, Call.after_eq, finish]
  cases (refreshKinds ⟨setting, disk⟩ (call.kinds disk day) day).result <;> rfl

theorem Call.perform_of_aborted {call : Call}
    (aborted : (call.perform setting (disk, day)).result = none) :
    (refreshKinds ⟨setting, disk⟩ (call.kinds disk day) day).result = none ∧
      (call.perform setting (disk, day)).state =
        (disk, (refreshKinds ⟨setting, disk⟩ (call.kinds disk day) day).state) := by
  have hresult : (refreshKinds ⟨setting, disk⟩ (call.kinds disk day) day).result = none := by
    rwa [Call.result_perform, Option.map_eq_none_iff] at aborted
  refine ⟨hresult, ?_⟩
  rw [Call.perform_eq, finish, hresult]

end Perform

theorem Call.nodup_kinds (call : Call) (disk : Disk) (day : Day) : (call.kinds disk day).Nodup := by
  cases call <;> simp only [kinds] <;> (try split) <;> decide

/-- A call at a view of the disk, and the day that it finds. -/
structure Visit where
  view : View
  call : Call
  day : Day

namespace Visit

def outcome (visit : Visit) : Outcome (Disk × Day) Answer :=
  visit.call.perform visit.view.toSetting (visit.view.disk, visit.day)

def refreshes (visit : Visit) : List Refreshing :=
  refreshings visit.view (visit.call.kinds visit.view.disk visit.day) visit.day

end Visit

/-- The day after some calls, each at its own view. -/
def afterAll : List (View × Call) → Day → Day
  | [], day => day
  | (view, call) :: rest, day => afterAll rest (call.after view day)

/-- The calls of a run from a day on. -/
def visits : List (View × Call) → Day → List Visit
  | [], _ => []
  | (view, call) :: rest, day => ⟨view, call, day⟩ :: visits rest (call.after view day)

section Visits

variable {asked more : List (View × Call)} {day : Day}

theorem visits_append :
    visits (asked ++ more) day = visits asked day ++ visits more (afterAll asked day) := by
  induction asked generalizing day with
  | nil => rfl
  | cons first rest ih => rw [List.cons_append, visits, visits, ih]; rfl

/-- What holds of a day and is kept by every call of a run is found by every one of them, and
holds in the end. -/
theorem holds_visits {motive : Day → Prop}
    (kept : ∀ asking ∈ asked, ∀ day, motive day → motive (asking.2.after asking.1 day))
    (h : motive day) :
    (∀ visit ∈ visits asked day, motive visit.day) ∧ motive (afterAll asked day) := by
  induction asked generalizing day with
  | nil => exact ⟨by simp [visits], h⟩
  | cons first rest ih =>
      obtain ⟨hfirst, hrest⟩ := List.forall_mem_cons.mp kept
      obtain ⟨hvisits, hlast⟩ := ih hrest (hfirst day h)
      exact ⟨List.forall_mem_cons.mpr ⟨h, hvisits⟩, hlast⟩

/-- The refreshes that the calls of a run get to. -/
def trace (asked : List (View × Call)) (day : Day) : List Refreshing :=
  (visits asked day).flatMap (·.refreshes)

section Trace

variable {motive : List Refreshing → Day → Prop} {past : List Refreshing}

theorem holds_refreshings {view : View}
    (step : ∀ past kind day, motive past day →
      motive (past ++ [⟨view, kind, day⟩]) (refreshKind view kind day).state)
    (kinds : List HourlyKind) (h : motive past day) :
    motive (past ++ refreshings view kinds day) (refreshKinds view kinds day).state := by
  induction kinds generalizing past day with
  | nil => rwa [refreshings, List.append_nil]
  | cons kind rest ih =>
      have first := step past kind day h
      rw [state_refreshKinds_cons, refreshings]
      cases (refreshKind view kind day).result with
      | none => exact first
      | some _ =>
          have others := ih first
          rwa [List.append_assoc, List.singleton_append] at others

/-- What every refresh keeps, with itself put to the past, holds after a run, with all of its
refreshes in the past. -/
theorem holds_trace
    (step : ∀ past view kind day, motive past day →
      motive (past ++ [⟨view, kind, day⟩]) (refreshKind view kind day).state)
    (asked : List (View × Call)) (h : motive [] day) :
    motive (trace asked day) (afterAll asked day) := by
  suffices general : ∀ past day, motive past day →
      motive (past ++ trace asked day) (afterAll asked day) from general [] day h
  intro past day h
  induction asked generalizing past day with
  | nil => rwa [trace, visits, List.flatMap_nil, List.append_nil]
  | cons first rest ih =>
      obtain ⟨view, call⟩ := first
      have hcall := holds_refreshings (fun past => step past view) (call.kinds view.disk day) h
      rw [← Call.after_eq] at hcall
      have hrest := ih _ _ hcall
      rwa [List.append_assoc] at hrest

end Trace

theorem named_afterAll {date : String} {directory : Path} {settings : DaySettings}
    (named : day.Named date directory settings) :
    (afterAll asked day).Named date directory settings :=
  (holds_visits (fun asking _ _ named => named.after asking.1 asking.2) named).2

end Visits

end DrawingDiary.Day
