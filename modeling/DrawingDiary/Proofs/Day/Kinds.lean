import DrawingDiary.Proofs.Day.Reached

/-!
# The two kinds of a day side by side

What a day remembers of its drawings and what it remembers of its notes are refreshed alike:
`refreshKind_cases` lists, for either kind, the three ways in which a refresh ends, and
`keeps_refreshKind` says that the other kind is left as it was. A call gets through the kinds
that it asks for in order, up to the first one that is aborted; `refreshings` are the
refreshes that it gets to, each with the day that it finds.
-/

namespace DrawingDiary

open Naming (HourlyKind)

/-- The least time between two looks at one kind, in seconds. -/
def DaySettings.cooldown (settings : DaySettings) : HourlyKind → Nat
  | .image => settings.imageCooldown
  | .event => settings.eventCooldown

theorem NoteState.gate_foldl_accept (s : NoteState) (looks : List NoteLook) :
    (looks.foldl accept s).gate = s.gate := by
  induction looks generalizing s with
  | nil => rfl
  | cons look rest ih =>
      rw [List.foldl_cons, ih]
      unfold accept
      split <;> rfl

@[simp] theorem NoteState.gate_settle (s : NoteState) (listed : List Hour)
    (looks : List NoteLook) : (s.settle listed looks).gate = s.gate := by
  simp only [settle, gate_foldl_accept]

theorem Naming.HourlyKind.eq_of_ne {kind other : HourlyKind} (hne : kind ≠ other) :
    kind = .image ∧ other = .event ∨ kind = .event ∧ other = .image := by
  cases kind <;> cases other <;> simp at hne ⊢

namespace Day

def gate (day : Day) : HourlyKind → Cooldown
  | .image => day.images.gate
  | .event => day.notes.gate

/-- The day with the gate of a kind replaced and everything else as it is. -/
def withGate (day : Day) (gate : Cooldown) : HourlyKind → Day
  | .image => { day with images := { day.images with gate := gate } }
  | .event => { day with notes := { day.notes with gate := gate } }

/-- The day after somebody went through the gate of a kind and no further. -/
def stamped (day : Day) (now : Instant) (kind : HourlyKind) : Day :=
  day.withGate ((day.gate kind).stamp now) kind

/-- What another day remembers of a kind, its gate included, is what a day remembers of it. -/
def Keeps (day other : Day) : HourlyKind → Prop
  | .image => other.images = day.images
  | .event => other.notes = day.notes

def settledNotes (view : View) (day : Day) : NoteState :=
  let stamped := { day.notes with gate := day.notes.gate.stamp view.now }
  stamped.settle ((day.files .event view.disk).map fun file => file.hour) (day.noteLooks view)

/-- The day after a completed refresh of a kind. -/
def settled (view : View) (day : Day) : HourlyKind → Day
  | .image => { day with images := day.settledImages view }
  | .event => { day with notes := day.settledNotes view }

/-- Whether a refresh of a kind is aborted once it is through the gate. -/
def aborts (view : View) (day : Day) : HourlyKind → Bool
  | .image => (day.imageLooks view).any (·.load.isAborted)
  | .event => (day.noteLooks view).any (·.read.isAborted)

/-- The paths that a refresh of a kind reads once it is through the gate. -/
def readsBehind (view : View) (day : Day) : HourlyKind → List Path
  | .image => (day.imageLooks view).filterMap (·.path?)
  | .event => (day.noteLooks view).map (·.path)

section Gates

variable (day other : Day) (gate : Cooldown) (now : Instant) (kind : HourlyKind)

@[simp] theorem gate_withGate : (day.withGate gate kind).gate kind = gate := by
  cases kind <;> rfl

@[simp] theorem withGate_withGate (later : Cooldown) :
    (day.withGate gate kind).withGate later kind = day.withGate later kind := by
  cases kind <;> rfl

@[simp] theorem withGate_gate : day.withGate (day.gate kind) kind = day := by
  cases kind <;> rfl

theorem keeps_refl : Keeps day day kind := by
  cases kind <;> rfl

variable {day other kind}

theorem Keeps.trans {last : Day} (first : Keeps day other kind) (second : Keeps other last kind) :
    Keeps day last kind := by
  cases kind
  · exact Eq.trans second first
  · exact Eq.trans second first

theorem Keeps.gate_eq (keeps : Keeps day other kind) : other.gate kind = day.gate kind := by
  cases kind
  · exact congrArg ImageState.gate keeps
  · exact congrArg NoteState.gate keeps

end Gates

section Refresh

variable (view : View) (day : Day) (kind : HourlyKind)

@[simp] theorem gate_settled :
    (day.settled view kind).gate kind = (day.gate kind).stamp view.now := by
  cases kind with
  | image =>
      change (day.settledImages view).gate = _
      rw [settledImages, ImageState.gate_settle]
      rfl
  | event =>
      change (day.settledNotes view).gate = _
      rw [settledNotes, NoteState.gate_settle]
      rfl

theorem refreshKind_eq : refreshKind view kind day =
    if (day.gate kind).isOpen view.now then
      if day.aborts view kind then ⟨day.stamped view.now kind, day.readsBehind view kind, none⟩
      else ⟨day.settled view kind, day.readsBehind view kind, some ()⟩
    else ⟨day, [], some ()⟩ := by
  cases kind with
  | image => exact refreshImages_eq view day
  | event => exact refreshEvents_eq view day

/-- A refresh of a kind stops at its gate, or is aborted and only stamps the gate, or is
completed and settles. -/
theorem refreshKind_cases :
    ((day.gate kind).isOpen view.now = false ∧ refreshKind view kind day = ⟨day, [], some ()⟩) ∨
      ((day.gate kind).isOpen view.now = true ∧
        (refreshKind view kind day = ⟨day.stamped view.now kind, day.readsBehind view kind, none⟩ ∨
          refreshKind view kind day =
            ⟨day.settled view kind, day.readsBehind view kind, some ()⟩)) := by
  rw [refreshKind_eq]
  cases (day.gate kind).isOpen view.now with
  | false => exact .inl ⟨rfl, rfl⟩
  | true =>
      cases day.aborts view kind with
      | true => exact .inr ⟨rfl, .inl rfl⟩
      | false => exact .inr ⟨rfl, .inr rfl⟩

variable {view day kind}

theorem keeps_withGate {other : HourlyKind} (hne : kind ≠ other) (gate : Cooldown) :
    Keeps day (day.withGate gate other) kind := by
  rcases HourlyKind.eq_of_ne hne with ⟨rfl, rfl⟩ | ⟨rfl, rfl⟩ <;> simp only [Keeps, withGate]

theorem keeps_settled {other : HourlyKind} (hne : kind ≠ other) :
    Keeps day (day.settled view other) kind := by
  rcases HourlyKind.eq_of_ne hne with ⟨rfl, rfl⟩ | ⟨rfl, rfl⟩ <;> simp only [Keeps, settled]

/-- A refresh of one kind leaves the other as it was. -/
theorem keeps_refreshKind {other : HourlyKind} (hne : kind ≠ other) :
    Keeps day (refreshKind view other day).state kind := by
  rcases refreshKind_cases view day other with ⟨-, heq⟩ | ⟨-, heq | heq⟩ <;> rw [heq]
  · exact day.keeps_refl kind
  · exact keeps_withGate hne _
  · exact keeps_settled hne

theorem refreshKind_of_closed (closed : (day.gate kind).isOpen view.now = false) :
    refreshKind view kind day = ⟨day, [], some ()⟩ := by
  rcases refreshKind_cases view day kind with ⟨-, heq⟩ | ⟨isOpen, -⟩
  · exact heq
  · rw [closed] at isOpen
    cases isOpen

theorem gate_refreshKind_of_open (isOpen : (day.gate kind).isOpen view.now = true) :
    (refreshKind view kind day).state.gate kind = (day.gate kind).stamp view.now := by
  rcases refreshKind_cases view day kind with ⟨closed, -⟩ | ⟨-, heq | heq⟩
  · rw [isOpen] at closed
    cases closed
  · rw [heq]
    exact gate_withGate day _ kind
  · rw [heq]
    exact gate_settled view day kind

theorem state_refreshKind_of_aborted (aborted : (refreshKind view kind day).result = none) :
    (refreshKind view kind day).state = day.stamped view.now kind := by
  rcases refreshKind_cases view day kind with ⟨-, heq⟩ | ⟨-, heq | heq⟩
  · rw [heq] at aborted
    cases aborted
  · rw [heq]
  · rw [heq] at aborted
    cases aborted

theorem period_gate_refreshKind (other : HourlyKind) :
    ((refreshKind view other day).state.gate kind).period = (day.gate kind).period := by
  by_cases hne : kind = other
  · subst hne
    rcases refreshKind_cases view day kind with ⟨-, heq⟩ | ⟨isOpen, -⟩
    · rw [heq]
    · rw [gate_refreshKind_of_open isOpen, Cooldown.stamp]
  · rw [(keeps_refreshKind hne).gate_eq]

end Refresh

section Refreshings

variable (view : View) (kind : HourlyKind) (rest : List HourlyKind) (day : Day)

/-- A refresh that a call gets to, and the day that it finds. -/
structure Refreshing where
  view : View
  kind : HourlyKind
  found : Day

/-- The refreshes that a row of kinds gets to. -/
def refreshings (view : View) : List HourlyKind → Day → List Refreshing
  | [], _ => []
  | kind :: rest, day =>
    ⟨view, kind, day⟩ ::
      match (refreshKind view kind day).result with
      | none => []
      | some _ => refreshings view rest (refreshKind view kind day).state

theorem refreshKinds_cons_of_aborted {reads : List Path} {after : Day}
    (h : refreshKind view kind day = ⟨after, reads, none⟩) :
    refreshKinds view (kind :: rest) day = ⟨after, reads, none⟩ := by
  rw [refreshKinds, Run.bind_apply, h]

theorem refreshKinds_cons_of_done {reads : List Path} {after : Day}
    (h : refreshKind view kind day = ⟨after, reads, some ()⟩) :
    refreshKinds view (kind :: rest) day =
      ⟨(refreshKinds view rest after).state, reads ++ (refreshKinds view rest after).reads,
        (refreshKinds view rest after).result⟩ := by
  rw [refreshKinds, Run.bind_apply, h]

theorem keeps_refreshKinds {view : View} {kinds : List HourlyKind} (h : kind ∉ kinds) :
    Keeps day (refreshKinds view kinds day).state kind := by
  induction kinds generalizing day with
  | nil => exact day.keeps_refl kind
  | cons first rest ih =>
      have hfirst := List.ne_of_not_mem_cons h
      have hrest := List.not_mem_of_not_mem_cons h
      have keeps : Keeps day (refreshKind view first day).state kind := keeps_refreshKind hfirst
      rw [state_refreshKinds_cons]
      cases (refreshKind view first day).result with
      | none => exact keeps
      | some _ => exact keeps.trans (ih _ hrest)

theorem exists_aborted_of_refreshKinds {view : View} {kinds : List HourlyKind} {day : Day}
    (aborted : (refreshKinds view kinds day).result = none) :
    ∃ done kind rest, kinds = done ++ kind :: rest ∧
      (refreshKinds view done day).result = some () ∧
      (refreshKind view kind (refreshKinds view done day).state).result = none ∧
      (refreshKinds view kinds day).state =
        (refreshKind view kind (refreshKinds view done day).state).state := by
  induction kinds generalizing day with
  | nil => cases aborted
  | cons first rest ih =>
      rcases hfirst : refreshKind view first day with ⟨after, reads, _ | ⟨⟩⟩
      · refine ⟨[], first, rest, rfl, rfl, ?_, ?_⟩
        · rw [refreshKinds_nil, hfirst]
        · rw [refreshKinds_cons_of_aborted view first rest day hfirst, refreshKinds_nil, hfirst]
      · have hcons := fun others => refreshKinds_cons_of_done view first others day hfirst
        rw [hcons] at aborted
        obtain ⟨done, kind, others, hkinds, hdone, hresult, hstate⟩ := ih aborted
        refine ⟨first :: done, kind, others, by rw [hkinds]; rfl, ?_⟩
        rw [hcons, hcons]
        exact ⟨hdone, hresult, hstate⟩

theorem refreshKinds_singleton : refreshKinds view [kind] = refreshKind view kind := by
  change refreshKind view kind >>= (fun _ => pure ()) = _
  exact bind_pure _

end Refreshings

end Day

end DrawingDiary
