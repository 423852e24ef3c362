import DrawingDiary.Proofs.Day.Answers
import DrawingDiary.Proofs.Day.Origin

/-!
# The two gates of a day

Each kind of a day has a gate of its own, and a call only touches the kinds that it asks for.
`Spares` says what it means to leave a kind alone, and a row of refreshes spares a kind when no
refresh of the kind in it goes through the gate (`spares_refreshKinds`). So the accessors keep to
their kinds (`actsByTable`), and when a gate stays shut behind the first call that goes through
it, what this call found is what the kind is answered from ever after
(`gates_are_independent`).
-/

namespace DrawingDiary

open Naming (HourlyKind)

/-- Whether a path ends like the names of a kind. -/
def Naming.HourlyKind.Ends (kind : HourlyKind) (path : Path) : Prop :=
  kind.ending <:+ path.text.toList

/-- A reader that reads the files of a kind as another one does. -/
def Reader.replaced (reader other : Reader) : HourlyKind → Reader
  | .image => { reader with image := other.image }
  | .event => { reader with note := other.note }

/-- The view with the files of a kind read as another reader does. -/
def View.reading (view : View) (kind : HourlyKind) (other : Reader) : View :=
  { view with reader := view.reader.replaced other kind }

theorem Path.suffix_text_join (directory : Path) (name : String) :
    name.toList <:+ (directory.join name).text.toList := by
  unfold join
  split
  · exact List.suffix_rfl
  · split
    · rw [String.toList_append]
      exact List.suffix_append _ _
    · rw [String.toList_append]
      exact List.suffix_append _ _

theorem Naming.ending_suffix_of_hourlyName? {kind : HourlyKind} {name : String}
    {parsed : HourlyName} (h : hourlyName? kind name = some parsed) :
    kind.ending <:+ name.toList := by
  obtain ⟨stem, hstem, -⟩ := Option.bind_eq_some_iff.mp h
  exact ⟨stem, (Text.dropSuffix?_eq_some_iff.mp hstem).symm⟩

theorem Naming.HourlyKind.not_ends_of_ends {kind other : HourlyKind} (hne : kind ≠ other)
    {path : Path} (h : other.Ends path) : ¬ kind.Ends path := by
  intro h'
  have hlength : kind.ending.length = other.ending.length := by
    cases kind <;> cases other <;> simp [HourlyKind.ending]
  have heq := (List.suffix_of_suffix_length_le h' h hlength.le).eq_of_length hlength
  rcases HourlyKind.eq_of_ne hne with ⟨rfl, rfl⟩ | ⟨rfl, rfl⟩
  · exact absurd heq (by decide)
  · exact absurd heq (by decide)

theorem ImageLook.path_of_ofFile {view : View} {settings : DaySettings} {known : Option Timestamp}
    {file : HourlyFile} {path : Path} (h : (ofFile view settings known file).path? = some path) :
    path = file.path := by
  unfold ofFile at h
  cases hmodified : view.disk.modified? file.path with
  | none => simp [hmodified] at h
  | some modified =>
      by_cases hknown : known = some modified
      · simp [hmodified, hknown] at h
      · simp only [hmodified, if_neg hknown] at h
        cases hread : view.reader.image view.disk file.path <;> simp_all

theorem Cooldown.isOpen_stamp_of_soon {gate : Cooldown} {last now : Instant}
    (soon : now - last < gate.period * 1000000000) : (gate.stamp last).isOpen now = false :=
  decide_eq_false (Nat.not_le.mpr soon)

namespace Day

/-- What is run at a view leaves a kind as the day has it, reads no file of the kind, and does
not depend on how such files are read. -/
structure Spares {σ α : Type} (kind : HourlyKind) (view : View) (day : Day) (dayOf : σ → Day)
    (run : View → Outcome σ α) : Prop where
  keeps : Keeps day (dayOf (run view).state) kind
  reads : ∀ path ∈ (run view).reads, ¬ kind.Ends path
  blind : ∀ other, run (view.reading kind other) = run view

section Rows

variable {view : View} {day : Day} {kind other : HourlyKind} {kinds : List HourlyKind}

theorem ends_of_mem_readsBehind {path : Path} (h : path ∈ day.readsBehind view kind) :
    kind.Ends path := by
  have hfile : ∃ file ∈ day.files kind view.disk, file.path = path := by
    cases kind with
    | image =>
        obtain ⟨look, hlook, hpath⟩ := List.mem_filterMap.mp h
        obtain ⟨file, hfile, rfl⟩ := List.mem_map.mp hlook
        exact ⟨file, hfile, (ImageLook.path_of_ofFile hpath).symm⟩
    | event =>
        obtain ⟨look, hlook, rfl⟩ := List.mem_map.mp h
        obtain ⟨file, hfile, rfl⟩ := List.mem_map.mp hlook
        exact ⟨file, List.mem_of_mem_filter hfile, rfl⟩
  obtain ⟨file, hmem, rfl⟩ := hfile
  obtain ⟨hourly, hpath⟩ := isHourlyFile_of_mem_files hmem
  rw [HourlyKind.Ends, hpath]
  exact (Naming.ending_suffix_of_hourlyName? hourly.named).trans (Path.suffix_text_join _ _)

/-- A refresh spares the other kind, and its own as well when it finds the gate closed. -/
theorem spares_refreshKind
    (h : other = kind → (day.gate kind).isOpen view.now = false) :
    Spares kind view day id fun view => refreshKind view other day := by
  by_cases hne : kind = other
  · subst hne
    have closed := h rfl
    have hdone := refreshKind_of_closed closed
    refine ⟨?_, ?_, fun reader => ?_⟩
    · rw [hdone]
      exact day.keeps_refl kind
    · rw [hdone]
      exact fun _ hpath => absurd hpath List.not_mem_nil
    · rw [hdone]
      exact refreshKind_of_closed closed
  · refine ⟨keeps_refreshKind hne, fun path hpath => ?_, fun reader => ?_⟩
    · rcases refreshKind_cases view day other with ⟨-, heq⟩ | ⟨-, heq | heq⟩ <;>
        simp only [heq] at hpath
      · cases hpath
      · exact HourlyKind.not_ends_of_ends hne (ends_of_mem_readsBehind hpath)
      · exact HourlyKind.not_ends_of_ends hne (ends_of_mem_readsBehind hpath)
    · rcases HourlyKind.eq_of_ne hne with ⟨rfl, rfl⟩ | ⟨rfl, rfl⟩ <;> rfl

/-- A row of refreshes spares a kind when none of them goes through the gate of the kind. -/
theorem spares_refreshKinds (h : ∀ r ∈ refreshings view kinds day,
      r.kind = kind → (r.found.gate kind).isOpen view.now = false) :
    Spares kind view day id fun view => refreshKinds view kinds day := by
  induction kinds generalizing day with
  | nil => exact ⟨day.keeps_refl kind, fun _ hpath => absurd hpath List.not_mem_nil, fun _ => rfl⟩
  | cons first rest ih =>
      obtain ⟨hfirst, hrest⟩ := List.forall_mem_cons.mp h
      obtain ⟨keeps, reads, blind⟩ := spares_refreshKind hfirst
      rcases hdone : refreshKind view first day with ⟨after, paths, _ | ⟨⟩⟩
      · have hcons := refreshKinds_cons_of_aborted view first rest day hdone
        simp only [hdone] at keeps reads hrest
        refine ⟨?_, ?_, fun reader => ?_⟩
        · rw [hcons]
          exact keeps
        · rw [hcons]
          exact reads
        · rw [hcons]
          exact refreshKinds_cons_of_aborted _ first rest day ((blind reader).trans hdone)
      · have hcons := refreshKinds_cons_of_done view first rest day hdone
        simp only [hdone] at keeps reads hrest
        obtain ⟨keeps', reads', blind'⟩ := ih hrest
        refine ⟨?_, ?_, fun reader => ?_⟩
        · rw [hcons]
          exact keeps.trans keeps'
        · rw [hcons]
          intro path hpath
          rcases List.mem_append.mp hpath with hmem | hmem
          · exact reads path hmem
          · exact reads' path hmem
        · rw [hcons, refreshKinds_cons_of_done _ first rest day ((blind reader).trans hdone)]
          simp only [blind' reader]

theorem gate_refreshKind_of_closed (closed : (day.gate kind).isOpen view.now = false) :
    (refreshKind view other day).state.gate kind = day.gate kind :=
  (spares_refreshKind fun _ => closed).keeps.gate_eq

theorem closed_of_mem_refreshings (closed : (day.gate kind).isOpen view.now = false) :
    ∀ r ∈ refreshings view kinds day, (r.found.gate kind).isOpen view.now = false := by
  induction kinds generalizing day with
  | nil => simp [refreshings]
  | cons first rest ih =>
      refine List.forall_mem_cons.mpr ⟨closed, ?_⟩
      cases (refreshKind view first day).result with
      | none => simp
      | some _ => exact ih (by rwa [gate_refreshKind_of_closed closed])

theorem refreshKinds_of_closed (closed : (day.gate kind).isOpen view.now = false) :
    refreshKinds view kinds day = refreshKinds view (kinds.filter (· ≠ kind)) day := by
  induction kinds generalizing day with
  | nil => rfl
  | cons first rest ih =>
      by_cases hfirst : first = kind
      · subst hfirst
        rw [refreshKinds_cons_of_done view first rest day (refreshKind_of_closed closed),
          List.filter_cons_of_neg (by simp), ← ih closed]
        rfl
      · rw [List.filter_cons_of_pos (by simpa using hfirst)]
        have closed' : ((refreshKind view first day).state.gate kind).isOpen view.now = false := by
          rwa [gate_refreshKind_of_closed closed]
        rcases hdone : refreshKind view first day with ⟨after, paths, _ | ⟨⟩⟩
        · rw [refreshKinds_cons_of_aborted view first rest day hdone,
            refreshKinds_cons_of_aborted view first _ day hdone]
        · rw [hdone] at closed'
          rw [refreshKinds_cons_of_done view first rest day hdone,
            refreshKinds_cons_of_done view first _ day hdone, ih closed']

/-- A row that gets to a kind once, and finds its gate open, leaves the gate stamped. -/
theorem gate_refreshKinds_of_reached (nodup : kinds.Nodup)
    (isOpen : (day.gate kind).isOpen view.now = true)
    (reached : ∃ r ∈ refreshings view kinds day, r.kind = kind) :
    (refreshKinds view kinds day).state.gate kind = (day.gate kind).stamp view.now := by
  induction kinds generalizing day with
  | nil => simp [refreshings] at reached
  | cons first rest ih =>
      obtain ⟨hnew, hrest⟩ := List.nodup_cons.mp nodup
      rw [state_refreshKinds_cons]
      by_cases hfirst : first = kind
      · subst hfirst
        have stamped := gate_refreshKind_of_open isOpen
        cases (refreshKind view first day).result with
        | none => exact stamped
        | some _ =>
            have keeps : Keeps (refreshKind view first day).state
                (refreshKinds view rest (refreshKind view first day).state).state first :=
              keeps_refreshKinds first _ hnew
            exact keeps.gate_eq.trans stamped
      · have hgate : (refreshKind view first day).state.gate kind = day.gate kind :=
          (keeps_refreshKind (Ne.symm hfirst)).gate_eq
        rw [refreshings, List.exists_mem_cons_iff] at reached
        have later := reached.resolve_left hfirst
        cases hresult : (refreshKind view first day).result with
        | none => simp [hresult] at later
        | some _ =>
            rw [hresult] at later
            rw [← hgate] at isOpen ⊢
            exact ih hrest isOpen later

theorem reached_singleton_iff :
    (∃ r ∈ refreshings view [other] day, r.kind = kind) ↔ other = kind := by
  cases h : (refreshKind view other day).result <;> simp [refreshings, h]

/-- A row of two kinds gets to the second one when the first one is not aborted. -/
theorem reached_pair_iff {first second : HourlyKind} :
    (∃ r ∈ refreshings view [first, second] day, r.kind = kind) ↔
      first = kind ∨ (refreshKind view first day).result = some () ∧ second = kind := by
  rw [refreshings, List.exists_mem_cons_iff]
  rcases h : (refreshKind view first day).result with _ | ⟨⟩
  · simp
  · simp [reached_singleton_iff]

end Rows

namespace Visit

variable {visit : Visit} {kind : HourlyKind}

def Spares (visit : Visit) (kind : HourlyKind) : Prop :=
  Day.Spares kind visit.view visit.day Prod.snd fun view =>
    visit.call.perform view.toSetting (view.disk, visit.day)

/-- The call gets to a refresh of a kind. -/
def Reaches (visit : Visit) (kind : HourlyKind) : Prop := ∃ r ∈ visit.refreshes, r.kind = kind

theorem spares (h : ∀ r ∈ visit.refreshes,
    r.kind = kind → (r.found.gate kind).isOpen visit.view.now = false) : visit.Spares kind := by
  obtain ⟨keeps, reads, blind⟩ := spares_refreshKinds h
  refine ⟨?_, ?_, fun other => ?_⟩
  · rw [Call.state_perform, Call.after_eq]
    exact keeps
  · rw [Call.reads_perform]
    exact reads
  · rw [Call.perform_eq, Call.perform_eq]
    exact congrArg (visit.call.finish visit.view.disk) (blind other)

theorem spares_of_not_reaches (h : ¬ visit.Reaches kind) : visit.Spares kind :=
  spares fun r hr hkind => absurd ⟨r, hr, hkind⟩ h

theorem spares_of_closed (closed : (visit.day.gate kind).isOpen visit.view.now = false) :
    visit.Spares kind :=
  spares fun r hr _ => closed_of_mem_refreshings closed r hr

theorem Spares.keeps_after (spares : visit.Spares kind) :
    Keeps visit.day (visit.call.after visit.view visit.day) kind := by
  have keeps := spares.keeps
  rwa [Call.state_perform] at keeps

theorem gate_after_of_reaches (isOpen : (visit.day.gate kind).isOpen visit.view.now = true)
    (reaches : visit.Reaches kind) :
    (visit.call.after visit.view visit.day).gate kind =
      (visit.day.gate kind).stamp visit.view.now := by
  rw [Call.after_eq]
  exact gate_refreshKinds_of_reached (visit.call.nodup_kinds _ _) isOpen reaches

end Visit

/-- The kind that the answer to a call is read from. -/
def Call.source? : Call → Option HourlyKind
  | .imageData _ | .thumbnailData => some .image
  | .event _ | .events | .eventMask => some .event
  | _ => none

theorem Call.answer_of_keeps {call : Call} {kind : HourlyKind} (source : call.source? = some kind)
    {day other : Day} (keeps : Keeps day other kind) (disk : Disk) :
    call.answer disk other = call.answer disk day := by
  cases kind with
  | image =>
      have images : other.images = day.images := keeps
      cases call with
      | imageData hour => simp only [answer, images]
      | thumbnailData => simp only [answer, images]
      | _ => cases source
  | event =>
      have notes : other.notes = day.notes := keeps
      cases call with
      | event hour => simp only [answer, notes]
      | events => simp only [answer, notes]
      | eventMask => simp only [answer, notes]
      | _ => cases source

section Table

/-- What calls do with a day: which kinds they leave alone, what they answer without a refresh,
and when they get to a refresh of a kind. -/
structure ActsByTable (date : String) (directory : Path) (view : View) (day : Day) : Prop where
  notes_only : ∀ call, (call = .refreshEvents ∨ call = .events ∨ ∃ hour, call = .event hour) →
    (Visit.mk view call day).Spares .image
  images_only : ∀ call, (call = .refreshImages ∨ ∃ hour, call = .imageData hour) →
    (Visit.mk view call day).Spares .event
  directory_now : ∃ mask count names,
    Call.imageMask.perform view.toSetting (view.disk, day) =
        ⟨(view.disk, day), [], some (.hours mask)⟩ ∧
      Call.imageCount.perform view.toSetting (view.disk, day) =
        ⟨(view.disk, day), [], some (.count count)⟩ ∧
      Call.imageFileNames.perform view.toSetting (view.disk, day) =
        ⟨(view.disk, day), [], some (.names names)⟩ ∧
      count.toNat = allHours.countP mask.has ∧
      ∀ hour, (mask.has hour = true ↔
          ∃ name, IsHourlyFile .image date directory view.disk hour name) ∧
        ∀ name, names.at? hour = some name ↔ IsFirstFile .image date directory view.disk hour name
  no_such_hour : ∀ hour : UInt32, hoursPerDay ≤ hour.toNat →
    (Call.imageData hour).perform view.toSetting (view.disk, day) =
        ⟨(view.disk, day), [], some (.drawing (.error (.invalidHour hour)))⟩ ∧
      (Call.event hour).perform view.toSetting (view.disk, day) =
        ⟨(view.disk, day), [], some (.note (.error (.invalidHour hour)))⟩
  reaches_images : ∀ call, (Visit.mk view call day).Reaches .image ↔
    (call = .refresh ∨ call = .refreshImages ∨ call = .eventMask) ∨
      (∃ hour, hour.toNat < hoursPerDay ∧ call = .imageData hour) ∨
      (call = .thumbnailData ∨ call = .createThumbnailFile ∧
          view.disk.isFile (directory.join Naming.thumbnailFile) = false) ∧
        (Day.refreshEvents view day).result = some ()
  reaches_notes : ∀ call, (Visit.mk view call day).Reaches .event ↔
    (call = .refreshEvents ∨ call = .events ∨ call = .thumbnailData) ∨
      (∃ hour, hour.toNat < hoursPerDay ∧ call = .event hour) ∨
      (call = .createThumbnailFile ∧
        view.disk.isFile (directory.join Naming.thumbnailFile) = false) ∨
      (call = .refresh ∨ call = .eventMask) ∧ (Day.refreshImages view day).result = some ()

variable {date : String} {directory : Path} {settings : DaySettings} {day : Day}

theorem Visit.reaches_eq (view : View) (call : Call) (day : Day) (kind : HourlyKind) :
    (Visit.mk view call day).Reaches kind =
      ∃ r ∈ refreshings view (call.kinds view.disk day) day, r.kind = kind := rfl

theorem reaches_image_iff (named : day.Named date directory settings) (view : View)
    (call : Call) : (Visit.mk view call day).Reaches .image ↔
    (call = .refresh ∨ call = .refreshImages ∨ call = .eventMask) ∨
      (∃ hour, hour.toNat < hoursPerDay ∧ call = .imageData hour) ∨
      (call = .thumbnailData ∨ call = .createThumbnailFile ∧
          view.disk.isFile (directory.join Naming.thumbnailFile) = false) ∧
        (Day.refreshEvents view day).result = some () := by
  obtain ⟨-, rfl, -⟩ := named
  rw [Visit.reaches_eq]
  cases call with
  | refresh | eventMask => simp [Call.kinds, reached_pair_iff]
  | refreshImages | refreshEvents | events => simp [Call.kinds, reached_singleton_iff]
  | imageData hour | event hour =>
      by_cases h : hour.toNat < hoursPerDay
      · simp [Call.kinds, h, reached_singleton_iff]
      · simp [Call.kinds, h, refreshings]
  | thumbnailData => simp [Call.kinds, reached_pair_iff, refreshKind]
  | createThumbnailFile =>
      cases h : view.disk.isFile (day.directory.join Naming.thumbnailFile) with
      | true => simp [Call.kinds, thumbnailPath, h, refreshings]
      | false => simp [Call.kinds, thumbnailPath, h, reached_pair_iff, refreshKind]
  | imageMask | imageCount | imageFileNames | size => simp [Call.kinds, refreshings]

theorem reaches_event_iff (named : day.Named date directory settings) (view : View)
    (call : Call) : (Visit.mk view call day).Reaches .event ↔
    (call = .refreshEvents ∨ call = .events ∨ call = .thumbnailData) ∨
      (∃ hour, hour.toNat < hoursPerDay ∧ call = .event hour) ∨
      (call = .createThumbnailFile ∧
        view.disk.isFile (directory.join Naming.thumbnailFile) = false) ∨
      (call = .refresh ∨ call = .eventMask) ∧ (Day.refreshImages view day).result = some () := by
  obtain ⟨-, rfl, -⟩ := named
  rw [Visit.reaches_eq]
  cases call with
  | refresh | eventMask => simp [Call.kinds, reached_pair_iff, refreshKind]
  | refreshImages | refreshEvents | events => simp [Call.kinds, reached_singleton_iff]
  | imageData hour | event hour =>
      by_cases h : hour.toNat < hoursPerDay
      · simp [Call.kinds, h, reached_singleton_iff]
      · simp [Call.kinds, h, refreshings]
  | thumbnailData => simp [Call.kinds, reached_pair_iff]
  | createThumbnailFile =>
      cases h : view.disk.isFile (day.directory.join Naming.thumbnailFile) with
      | true => simp [Call.kinds, thumbnailPath, h, refreshings]
      | false => simp [Call.kinds, thumbnailPath, h, reached_pair_iff]
  | imageMask | imageCount | imageFileNames | size => simp [Call.kinds, refreshings]

theorem perform_of_invalidHour (view : View) (day : Day) {hour : UInt32}
    (invalid : hoursPerDay ≤ hour.toNat) :
    (Call.imageData hour).perform view.toSetting (view.disk, day) =
        ⟨(view.disk, day), [], some (.drawing (.error (.invalidHour hour)))⟩ ∧
      (Call.event hour).perform view.toSetting (view.disk, day) =
        ⟨(view.disk, day), [], some (.note (.error (.invalidHour hour)))⟩ := by
  have hnot : ¬ hour.toNat < hoursPerDay := Nat.not_lt.mpr invalid
  rw [Call.perform_eq, Call.perform_eq]
  simp only [Call.kinds, if_neg hnot, refreshKinds_nil, Call.finish, Call.diskAfter, Call.answer,
    checkHour_of_not_lt hnot]
  exact ⟨rfl, rfl⟩

theorem toNat_count (mask : HourMask) : mask.count.toNat = allHours.countP mask.has := by
  have hle : allHours.countP mask.has ≤ hoursPerDay := by
    simpa [allHours] using allHours.countP_le_length (p := mask.has)
  rw [HourMask.count]
  exact Nat.mod_eq_of_lt (hle.trans_lt (by decide))

/-- A day under a name and in a directory acts by the table. -/
theorem actsByTable (named : day.Named date directory settings) (view : View) :
    ActsByTable date directory view day where
  notes_only call h := by
    apply Visit.spares_of_not_reaches
    rw [reaches_image_iff named]
    rcases h with rfl | rfl | ⟨hour, rfl⟩ <;> simp
  images_only call h := by
    apply Visit.spares_of_not_reaches
    rw [reaches_event_iff named]
    rcases h with rfl | ⟨hour, rfl⟩ <;> simp
  directory_now := by
    obtain ⟨rfl, rfl, -⟩ := named
    refine ⟨day.imageMask view.disk, day.imageCount view.disk, day.imageFileNames view.disk,
      rfl, rfl, rfl, toNat_count _, fun hour => ⟨has_imageMask_iff, fun name => ?_⟩⟩
    exact at?_imageFileNames_eq_some_iff
  no_such_hour hour invalid := perform_of_invalidHour view day invalid
  reaches_images := reaches_image_iff named view
  reaches_notes := reaches_event_iff named view

end Table

section Shut

variable {kind : HourlyKind} {day : Day} {asked : List (View × Call)}

theorem mem_of_mem_visits {visit : Visit} (h : visit ∈ visits asked day) :
    (visit.view, visit.call) ∈ asked := by
  induction asked generalizing day with
  | nil => cases h
  | cons first rest ih =>
      rcases List.mem_cons.mp h with rfl | hrest
      · exact List.mem_cons_self
      · exact List.mem_cons_of_mem _ (ih hrest)

theorem keeps_afterAll_of_not_reached (h : ∀ visit ∈ visits asked day, ¬ visit.Reaches kind) :
    Keeps day (afterAll asked day) kind := by
  induction asked generalizing day with
  | nil => exact day.keeps_refl kind
  | cons first rest ih =>
      obtain ⟨hfirst, hrest⟩ := List.forall_mem_cons.mp h
      exact (Visit.spares_of_not_reaches hfirst).keeps_after.trans (ih hrest)

/-- Behind a gate that is shut at every call, a kind stays as it is, and all calls spare it. -/
theorem spares_of_shut (shut : ∀ asking ∈ asked, (day.gate kind).isOpen asking.1.now = false) :
    ∀ visit ∈ visits asked day, Keeps day visit.day kind ∧
      (visit.day.gate kind).isOpen visit.view.now = false ∧ visit.Spares kind := by
  have kept : ∀ asking ∈ asked, ∀ other, Keeps day other kind →
      Keeps day (asking.2.after asking.1 other) kind := by
    intro asking hasking other keeps
    have closed : (other.gate kind).isOpen asking.1.now = false := by
      rw [keeps.gate_eq]
      exact shut asking hasking
    have spares : (Visit.mk asking.1 asking.2 other).Spares kind := Visit.spares_of_closed closed
    exact keeps.trans spares.keeps_after
  have hvisits := (holds_visits (motive := (Keeps day · kind)) kept (day.keeps_refl kind)).1
  intro visit hvisit
  have closed : (visit.day.gate kind).isOpen visit.view.now = false := by
    rw [(hvisits visit hvisit).gate_eq]
    exact shut _ (mem_of_mem_visits hvisit)
  exact ⟨hvisits visit hvisit, closed, Visit.spares_of_closed closed⟩

/-- What is answered when the gate of the kind that is asked for is shut: what there was before,
unless a refresh of the other kind is aborted. -/
theorem result_outcome_of_closed {visit : Visit} (source : visit.call.source? = some kind)
    (keeps : Keeps day visit.day kind)
    (closed : (visit.day.gate kind).isOpen visit.view.now = false) :
    visit.outcome.result =
      (refreshKinds visit.view ((visit.call.kinds visit.view.disk visit.day).filter (· ≠ kind))
        visit.day).result.map fun _ => visit.call.answer visit.view.disk day := by
  have spares : visit.Spares kind := Visit.spares_of_closed closed
  have hanswer := Call.answer_of_keeps source (keeps.trans spares.keeps_after) visit.view.disk
  rw [Visit.outcome, Call.result_perform, hanswer, ← refreshKinds_of_closed closed]

end Shut

/-- The two kinds of a day do not meddle with each other. Before each call of a run the day acts
by the table. Take a kind whose gate is not reached by the calls before one that does reach it,
and whose cooldown is not over at any call after that one. Then all the other calls spare the
kind: whatever is read of it is read in this one call. What is remembered of it then stays, and
is what the answers are read from, in this call and in all later ones, unless a refresh of the
other kind is aborted. -/
theorem gates_are_independent (date : String) (directory : Path) (settings : DaySettings)
    (earlier : List (View × Call)) :
    let start := new date directory settings
    let day := afterAll earlier start
    (∀ view, ActsByTable date directory view day) ∧
    ∀ kind view call later, (∀ visit ∈ visits earlier start, ¬ visit.Reaches kind) →
      (Visit.mk view call day).Reaches kind →
      (∀ asking ∈ later, asking.1.now - view.now < settings.cooldown kind * 1000000000) →
      let seen := call.after view day
      visits (earlier ++ (view, call) :: later) start =
          visits earlier start ++ ⟨view, call, day⟩ :: visits later seen ∧
      (∀ visit ∈ visits earlier start ++ visits later seen, visit.Spares kind) ∧
      (∀ visit ∈ visits later seen, Keeps seen visit.day kind ∧
        (visit.call.source? = some kind → visit.outcome.result =
          (refreshKinds visit.view ((visit.call.kinds visit.view.disk visit.day).filter (· ≠ kind))
            visit.day).result.map fun _ => visit.call.answer visit.view.disk seen)) ∧
      ∀ answer, (Visit.mk view call day).outcome.result = some answer →
        answer = call.answer view.disk seen := by
  intro start day
  have named : day.Named date directory settings := named_afterAll ⟨rfl, rfl, rfl⟩
  refine ⟨actsByTable named, fun kind view call later unreached reaches soon => ?_⟩
  intro seen
  have hgate : day.gate kind = Cooldown.ofSeconds (settings.cooldown kind) := by
    rw [(keeps_afterAll_of_not_reached unreached).gate_eq]
    cases kind <;> rfl
  have hseen : seen.gate kind = (Cooldown.ofSeconds (settings.cooldown kind)).stamp view.now := by
    have isOpen : (day.gate kind).isOpen view.now = true := by
      rw [hgate]
      rfl
    rw [← hgate]
    exact Visit.gate_after_of_reaches isOpen reaches
  have shut : ∀ asking ∈ later, (seen.gate kind).isOpen asking.1.now = false := by
    intro asking hasking
    rw [hseen]
    exact Cooldown.isOpen_stamp_of_soon (soon asking hasking)
  have hlater := spares_of_shut shut
  refine ⟨visits_append, fun visit hvisit => ?_, fun visit hvisit => ?_, fun answer hanswer => ?_⟩
  · rcases List.mem_append.mp hvisit with hmem | hmem
    · exact Visit.spares_of_not_reaches (unreached visit hmem)
    · exact (hlater visit hmem).2.2
  · obtain ⟨keeps, closed, -⟩ := hlater visit hvisit
    exact ⟨keeps, fun source => result_outcome_of_closed source keeps closed⟩
  · rw [Visit.outcome, Call.result_perform, Option.map_eq_some_iff] at hanswer
    obtain ⟨-, -, rfl⟩ := hanswer
    rfl

theorem gates_are_independent_firstMinute :
    let settings : DaySettings := { imageCooldown := 60, eventCooldown := 0 }
    let start := new "2022-11-01" ⟨"/d"⟩ settings
    let before := (Call.event 5).after (twoHoursView false) start
    let seen := (Call.imageData 3).after (twoHoursView false) before
    let late : Visit := ⟨{ twoHoursView true with now := 59999999999 }, .imageData 5, seen⟩
    ¬ (Visit.mk (twoHoursView false) (.event 5) start).Reaches .image ∧
      (Visit.mk (twoHoursView false) (.imageData 3) before).Reaches .image ∧
      late.Spares .image ∧
      late.outcome.result = some ((Call.imageData 5).answer (twoHoursDisk true) seen) := by
  intro settings start before seen late
  have named : start.Named "2022-11-01" ⟨"/d"⟩ settings := ⟨rfl, rfl, rfl⟩
  have unreached : ¬ (Visit.mk (twoHoursView false) (.event 5) start).Reaches .image := by
    rw [reaches_image_iff named]
    simp
  have reaches : (Visit.mk (twoHoursView false) (.imageData 3) before).Reaches .image := by
    rw [reaches_image_iff (named.after _ _)]
    exact .inr (.inl ⟨3, by decide, rfl⟩)
  obtain ⟨-, spared, answered, -⟩ := (gates_are_independent "2022-11-01" ⟨"/d"⟩ settings
    [(twoHoursView false, .event 5)]).2 .image (twoHoursView false) (.imageData 3)
    [(late.view, late.call)] (List.forall_mem_singleton.mpr unreached) reaches
    (List.forall_mem_singleton.mpr (by decide))
  have hlate : late ∈ visits [(late.view, late.call)] seen := List.mem_cons_self
  have hvalid : (5 : UInt32).toNat < hoursPerDay := by decide
  have hkinds : late.call.kinds late.view.disk late.day = [.image] := by
    change Call.kinds _ _ (.imageData 5) = _
    rw [Call.kinds, if_pos hvalid]
  refine ⟨unreached, reaches, spared late (List.mem_append_right _ hlate), ?_⟩
  have hresult := (answered late hlate).2 rfl
  rw [hkinds] at hresult
  exact hresult

end Day

end DrawingDiary
