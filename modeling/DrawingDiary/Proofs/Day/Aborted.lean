import DrawingDiary.Proofs.Day.Answers
import DrawingDiary.Proofs.Day.Origin

/-!
# What an aborted refresh leaves

A refresh that is aborted stamps its gate and does nothing else, and a gate without a period
is open whenever it was stamped. So without a cooldown nobody can tell the day from one that
was never refreshed (`Reached.aborted_leaves_no_trace`): two days that differ in such a gate
only (`UpToGate`) answer all calls alike, read the same paths and leave the same disk, and
still differ in this gate only. The relation is kept by one refresh, so by a call, and so by
a run.
-/

namespace DrawingDiary

open Naming (HourlyKind)

theorem Cooldown.stamp_congr {gate other : Cooldown} (period : gate.period = other.period)
    (now : Instant) : gate.stamp now = other.stamp now := by
  rw [stamp, stamp, period]

namespace Day

/-- Outcomes that a caller cannot tell apart, with related states. -/
structure Alike {σ α : Type} (related : σ → σ → Prop) (o p : Outcome σ α) : Prop where
  state : related o.state p.state
  reads : p.reads = o.reads
  result : p.result = o.result

/-- Days that differ in the gate of one kind only, which has no period in either. -/
structure UpToGate (kind : HourlyKind) (day other : Day) : Prop where
  period : (day.gate kind).period = 0
  same : ∃ gate : Cooldown, gate.period = 0 ∧ other = day.withGate gate kind

section Gates

variable {view : View} {day : Day} {kind other : HourlyKind} {gate : Cooldown}

theorem gate_withGate_of_ne (hne : kind ≠ other) :
    (day.withGate gate kind).gate other = day.gate other := by
  rcases HourlyKind.eq_of_ne hne with ⟨rfl, rfl⟩ | ⟨rfl, rfl⟩ <;> rfl

theorem stamped_withGate_self (period : gate.period = (day.gate kind).period) (now : Instant) :
    (day.withGate gate kind).stamped now kind = day.stamped now kind := by
  rw [stamped, stamped, gate_withGate, withGate_withGate, Cooldown.stamp_congr period]

/-- What a refresh settles on is the same behind any gate that is stamped alike. -/
theorem settled_withGate_self (period : gate.period = (day.gate kind).period) :
    (day.withGate gate kind).settled view kind = day.settled view kind := by
  have hstamped := stamped_withGate_self period view.now
  cases kind with
  | image =>
      have himages := congrArg Day.images hstamped
      change { day with
        images := ((day.withGate gate .image).stamped view.now .image).images.settle _ } = _
      rw [himages]
      rfl
  | event =>
      have hnotes := congrArg Day.notes hstamped
      change { day with
        notes := ((day.withGate gate .event).stamped view.now .event).notes.settle _ _ } = _
      rw [hnotes]
      rfl

/-- Through a gate of the same period that is open too, a refresh does the same. -/
theorem refreshKind_withGate_self (period : gate.period = (day.gate kind).period)
    (isOpen : (day.gate kind).isOpen view.now = true) (isOpen' : gate.isOpen view.now = true) :
    refreshKind view kind (day.withGate gate kind) = refreshKind view kind day := by
  have haborts : (day.withGate gate kind).aborts view kind = day.aborts view kind := by
    cases kind <;> rfl
  have hreads : (day.withGate gate kind).readsBehind view kind = day.readsBehind view kind := by
    cases kind <;> rfl
  rw [refreshKind_eq, refreshKind_eq, gate_withGate, if_pos isOpen', if_pos isOpen, haborts, hreads,
    stamped_withGate_self period, settled_withGate_self period]

theorem refreshKind_withGate_of_ne (hne : kind ≠ other) :
    refreshKind view other (day.withGate gate kind) =
      ⟨(refreshKind view other day).state.withGate gate kind, (refreshKind view other day).reads,
        (refreshKind view other day).result⟩ := by
  have haborts : (day.withGate gate kind).aborts view other = day.aborts view other := by
    cases kind <;> cases other <;> rfl
  have hreads : (day.withGate gate kind).readsBehind view other = day.readsBehind view other := by
    cases kind <;> cases other <;> rfl
  have hgate := @gate_withGate_of_ne day kind other gate hne
  have hstamped : (day.withGate gate kind).stamped view.now other =
      (day.stamped view.now other).withGate gate kind := by
    rw [stamped, hgate]
    rcases HourlyKind.eq_of_ne hne with ⟨rfl, rfl⟩ | ⟨rfl, rfl⟩ <;> rfl
  have hsettled : (day.withGate gate kind).settled view other =
      (day.settled view other).withGate gate kind := by
    rcases HourlyKind.eq_of_ne hne with ⟨rfl, rfl⟩ | ⟨rfl, rfl⟩ <;> rfl
  rw [refreshKind_eq, refreshKind_eq, hgate, haborts, hreads, hstamped, hsettled]
  split
  · split <;> rfl
  · rfl

end Gates

section UpToGate

variable {day other : Day} {kind : HourlyKind}

theorem upToGate_withGate (period : (day.gate kind).period = 0) {gate : Cooldown}
    (period' : gate.period = 0) : UpToGate kind day (day.withGate gate kind) :=
  ⟨period, gate, period', rfl⟩

theorem upToGate_refl (period : (day.gate kind).period = 0) : UpToGate kind day day :=
  ⟨period, day.gate kind, period, (withGate_gate day kind).symm⟩

theorem UpToGate.refreshKind (same : UpToGate kind day other) (view : View)
    (refreshed : HourlyKind) :
    Alike (UpToGate kind) (refreshKind view refreshed day) (refreshKind view refreshed other) := by
  obtain ⟨period, gate, period', rfl⟩ := same
  have periodAfter : ((Day.refreshKind view refreshed day).state.gate kind).period = 0 :=
    (period_gate_refreshKind refreshed).trans period
  by_cases hne : kind = refreshed
  · subst hne
    rw [refreshKind_withGate_self (period'.trans period.symm)
      (Cooldown.isOpen_of_period_zero period view.now)
      (Cooldown.isOpen_of_period_zero period' view.now)]
    exact ⟨upToGate_refl periodAfter, rfl, rfl⟩
  · rw [refreshKind_withGate_of_ne hne]
    exact ⟨upToGate_withGate periodAfter period', rfl, rfl⟩

theorem UpToGate.refreshKinds (same : UpToGate kind day other) (view : View)
    (kinds : List HourlyKind) :
    Alike (UpToGate kind) (refreshKinds view kinds day) (refreshKinds view kinds other) := by
  induction kinds generalizing day other with
  | nil => exact ⟨same, rfl, rfl⟩
  | cons first rest ih =>
      obtain ⟨hstate, hreads, hresult⟩ := same.refreshKind view first
      have hrest := ih hstate
      simp only [Day.refreshKinds, Run.bind_apply, hreads, hresult]
      cases (Day.refreshKind view first day).result with
      | none => exact ⟨hstate, rfl, rfl⟩
      | some _ =>
          refine ⟨hrest.state, ?_, hrest.result⟩
          simp only [hrest.reads]

theorem UpToGate.perform (same : UpToGate kind day other) (setting : Setting) (disk : Disk)
    (call : Call) :
    Alike (fun s t => t.1 = s.1 ∧ UpToGate kind s.2 t.2) (call.perform setting (disk, day))
      (call.perform setting (disk, other)) := by
  have hkinds : call.kinds disk other = call.kinds disk day := by
    obtain ⟨-, gate, -, rfl⟩ := same
    cases kind <;> cases call <;> rfl
  obtain ⟨hstate, hreads, hresult⟩ := same.refreshKinds ⟨setting, disk⟩ (call.kinds disk day)
  rw [Call.perform_eq, Call.perform_eq, hkinds, Call.finish, Call.finish, hresult, hreads]
  cases (Day.refreshKinds ⟨setting, disk⟩ (call.kinds disk day) day).result with
  | none => exact ⟨⟨rfl, hstate⟩, rfl, rfl⟩
  | some _ =>
      obtain ⟨gate, -, heq⟩ := hstate.same
      refine ⟨⟨?_, hstate⟩, rfl, ?_⟩
      · rw [heq]
        cases kind <;> cases call <;> rfl
      · rw [heq]
        cases kind <;> cases call <;> rfl

end UpToGate

/-- What a caller sees of the calls of a run: the answer to each, the paths that it read and
the disk that it left. -/
def replies (asked : List (View × Call)) (day : Day) : List (Outcome Disk Answer) :=
  (visits asked day).map fun visit =>
    ⟨visit.outcome.state.1, visit.outcome.reads, visit.outcome.result⟩

theorem UpToGate.replies_eq {day other : Day} {kind : HourlyKind} (same : UpToGate kind day other)
    (asked : List (View × Call)) : replies asked other = replies asked day := by
  induction asked generalizing day other with
  | nil => rfl
  | cons first rest ih =>
      obtain ⟨⟨hdisk, hday⟩, hreads, hresult⟩ :=
        same.perform first.1.toSetting first.1.disk first.2
      rw [Call.state_perform, Call.state_perform] at hday
      simp only [replies, visits, List.map_cons, List.cons.injEq]
      refine ⟨?_, ih hday⟩
      simp only [Visit.outcome, hdisk, hreads, hresult]

section Aborted

variable {date : String} {directory : Path} {settings : DaySettings} {day : Day}

theorem Reached.period_gate {past : ImagePast} (reached : Reached date directory settings day past)
    (kind : HourlyKind) : (day.gate kind).period = settings.cooldown kind :=
  reached.induct (motive := fun day _ => (day.gate kind).period = settings.cooldown kind)
    (by cases kind <;> rfl) fun _ refreshed _ _ period =>
      (period_gate_refreshKind refreshed).trans period

/-- The second day is the first with the gate of a kind stamped, and without a cooldown no run
can tell them apart. -/
structure OnlyStamped (settings : DaySettings) (now : Instant) (kind : HourlyKind)
    (day other : Day) : Prop where
  eq_stamped : other = day.stamped now kind
  unseen : settings.cooldown kind = 0 → ∀ asked, replies asked other = replies asked day

theorem onlyStamped_of_aborted {view : View} {kind : HourlyKind}
    (period : (day.gate kind).period = settings.cooldown kind)
    (aborted : (refreshKind view kind day).result = none) :
    OnlyStamped settings view.now kind day (refreshKind view kind day).state := by
  have hstate := state_refreshKind_of_aborted aborted
  refine ⟨hstate, fun noCooldown asked => ?_⟩
  have same : UpToGate kind day (day.stamped view.now kind) :=
    upToGate_withGate (period.trans noCooldown) (period.trans noCooldown)
  rw [hstate]
  exact same.replies_eq asked

/-- In a row of refreshes of different kinds the one that is aborted finds its own kind as it
was, behind a gate that none of the others went through. -/
theorem onlyStamped_of_aborted_row {view : View} {kinds : List HourlyKind} (nodup : kinds.Nodup)
    (period : ∀ kind, (day.gate kind).period = settings.cooldown kind)
    (aborted : (refreshKinds view kinds day).result = none) :
    ∃ done kind rest, kinds = done ++ kind :: rest ∧
      (refreshKinds view done day).result = some () ∧
      Keeps day (refreshKinds view done day).state kind ∧
      OnlyStamped settings view.now kind (refreshKinds view done day).state
        (refreshKinds view kinds day).state := by
  obtain ⟨done, kind, rest, rfl, hdone, haborted, hstate⟩ := exists_aborted_of_refreshKinds aborted
  have hnew : kind ∉ done := fun hmem =>
    (List.nodup_append.mp nodup).2.2 kind hmem kind List.mem_cons_self rfl
  have keeps : Keeps day (refreshKinds view done day).state kind := keeps_refreshKinds kind day hnew
  refine ⟨done, kind, rest, rfl, hdone, keeps, ?_⟩
  rw [hstate]
  apply onlyStamped_of_aborted _ haborted
  rw [keeps.gate_eq]
  exact period kind

/-- An aborted refresh of the drawings or of the notes stamps its own gate and changes nothing
else, and without a cooldown it is for all later calls, on whatever disks, as if it had never
run. A call that is aborted gets through the kinds that it asks for up to one that was
untouched so far, and leaves the disk as it is and the day with the gate of this kind stamped. -/
theorem Reached.aborted_leaves_no_trace {past : ImagePast}
    (reached : Reached date directory settings day past) (view : View) :
    ((Day.refreshImages view day).result = none →
      (Day.refreshImages view day).state =
          { day with images := { day.images with gate := day.images.gate.stamp view.now } } ∧
        (settings.imageCooldown = 0 →
          ∀ asked, replies asked (Day.refreshImages view day).state = replies asked day)) ∧
    ((Day.refreshEvents view day).result = none →
      (Day.refreshEvents view day).state =
          { day with notes := { day.notes with gate := day.notes.gate.stamp view.now } } ∧
        (settings.eventCooldown = 0 →
          ∀ asked, replies asked (Day.refreshEvents view day).state = replies asked day)) ∧
    ∀ call : Call, (call.perform view.toSetting (view.disk, day)).result = none →
      (call.perform view.toSetting (view.disk, day)).state.1 = view.disk ∧
      ∃ done kind rest, call.kinds view.disk day = done ++ kind :: rest ∧
        (refreshKinds view done day).result = some () ∧
        Keeps day (refreshKinds view done day).state kind ∧
        OnlyStamped settings view.now kind (refreshKinds view done day).state
          (call.perform view.toSetting (view.disk, day)).state.2 := by
  have period := fun kind => reached.period_gate kind
  refine ⟨fun aborted => ?_, fun aborted => ?_, fun call aborted => ?_⟩
  · have only : OnlyStamped settings view.now .image day _ :=
      onlyStamped_of_aborted (period _) aborted
    exact ⟨only.eq_stamped, only.unseen⟩
  · have only : OnlyStamped settings view.now .event day _ :=
      onlyStamped_of_aborted (period _) aborted
    exact ⟨only.eq_stamped, only.unseen⟩
  · obtain ⟨hresult, hstate⟩ := Call.perform_of_aborted view.toSetting view.disk day aborted
    rw [hstate]
    exact ⟨rfl, onlyStamped_of_aborted_row (call.nodup_kinds view.disk day) period hresult⟩

/-- A day directory with a drawing and a note. -/
def drawnAndNotedDisk : Disk where
  root := .directory [("d", .directory
    [("rabbit-2022-11-01-3.png", .file ByteArray.empty ⟨0, 0⟩),
    ("event-2022-11-01-5.txt", .file ByteArray.empty ⟨0, 0⟩)])]

/-- A look at this directory with a reader that never gets through. -/
def abortingView : View where
  reader := { image := fun _ _ => .aborted, note := fun _ _ => .aborted }
  now := 0
  disk := drawnAndNotedDisk

theorem Reached.aborted_leaves_no_trace_drawnAndNoted :
    let settings : DaySettings := { imageCooldown := 0, eventCooldown := 0 }
    let day := Day.new "2022-11-01" ⟨"/d"⟩ settings
    Reached "2022-11-01" ⟨"/d"⟩ settings day {} ∧
      ((Day.refreshImages abortingView day).result = none ∧
        ∀ asked, replies asked (Day.refreshImages abortingView day).state = replies asked day) ∧
      ((Day.refreshEvents abortingView day).result = none ∧
        ∀ asked, replies asked (Day.refreshEvents abortingView day).state = replies asked day) := by
  intro settings day
  have stands : Disk.Stands drawnAndNotedDisk ⟨"/d"⟩ ["d"] _ := ⟨by cbv, by cbv⟩
  let drawing := day.directory.join "rabbit-2022-11-01-3.png"
  let note := day.directory.join "event-2022-11-01-5.txt"
  have himage : day.files .image abortingView.disk = [⟨3, "rabbit-2022-11-01-3.png", drawing⟩] :=
    files_of_single stands ⟨by decide, by decide⟩ (by decide) (by decide) rfl (by decide)
  have hnote : day.files .event abortingView.disk = [⟨5, "event-2022-11-01-5.txt", note⟩] :=
    files_of_single stands ⟨by decide, by decide⟩ (by decide) (by decide) rfl (by decide)
  have hlisted : ⟨3, "rabbit-2022-11-01-3.png", drawing⟩ ∈ day.files .image abortingView.disk := by
    rw [himage]
    exact List.mem_singleton_self _
  have himages : (Day.refreshImages abortingView day).result = none := by
    obtain ⟨moment, hmoment⟩ :=
      Disk.exists_modified_of_isFile (isHourlyFile_of_mem_files hlisted).1.isFile
    have hlook : day.imageLooks abortingView = [⟨3, some drawing, .aborted⟩] := by
      rw [imageLooks, himage, List.map_singleton, ImageLook.ofFile, hmoment]
      rfl
    rw [Day.refreshImages, hlook]
    rfl
  have hnotes : (Day.refreshEvents abortingView day).result = none := by
    have hlook : day.noteLooks abortingView = [⟨5, note, .aborted⟩] := by
      rw [noteLooks, hnote]
      rfl
    rw [Day.refreshEvents, hlook]
    rfl
  have reached : Reached "2022-11-01" ⟨"/d"⟩ settings day {} := .new
  obtain ⟨images, notes, -⟩ := reached.aborted_leaves_no_trace abortingView
  exact ⟨reached, ⟨himages, (images himages).2 rfl⟩, ⟨hnotes, (notes hnotes).2 rfl⟩⟩

end Aborted

end Day

end DrawingDiary
