import DrawingDiary.Proofs.Site.Inputs

/-!
# Runs that answer

`Answers` says what a run answers and which state it leaves behind. A run that answers has
answered in each of its steps (`answers_bind_iff`), and each kind of step says what the
state was changed by, so what has become of a finished site is collected from one step
after the other.
-/

namespace DrawingDiary.Site.Attempt

variable {α β : Type} {s t u : Disk × Diary} {a b : α}

/-- The attempt answers, and this is what it answers and leaves behind. -/
structure Answers (attempt : Attempt α) (s : Disk × Diary) (a : α) (t : Disk × Diary) :
    Prop where
  result_eq : (attempt s).result = some (.ok a)
  state_eq : (attempt s).state = t

theorem answers_bind_iff {first : Attempt α} {next : α → Attempt β} {b : β} :
    Answers (first >>= next) s b u ↔
      ∃ a t, Answers first s a t ∧ Answers (next a) t b u := by
  constructor
  · rintro ⟨hresult, hstate⟩
    rw [result_bind] at hresult
    rw [state_bind] at hstate
    split at hresult
    next a ha =>
      rw [ha] at hstate
      exact ⟨a, _, ⟨ha, rfl⟩, hresult, hstate⟩
    · cases hresult
    · cases hresult
  · rintro ⟨a, t, ⟨ha, rfl⟩, hresult, hstate⟩
    refine ⟨?_, ?_⟩
    · rw [result_bind, ha]
      exact hresult
    · rw [state_bind, ha]
      exact hstate

theorem answers_pure_iff : Answers (pure a) s b t ↔ b = a ∧ t = s := by
  constructor
  · rintro ⟨hresult, hstate⟩
    cases hresult
    exact ⟨rfl, hstate.symm⟩
  · rintro ⟨rfl, rfl⟩
    exact ⟨rfl, rfl⟩

theorem not_answers_throw {e : SiteError} : ¬ Answers (throw e) s a t := by
  rintro ⟨hresult, -⟩
  cases hresult

theorem answers_lift_iff {run : Run (Disk × Diary) α} :
    Answers (ExceptT.lift run) s a t ↔ (run s).result = some a ∧ (run s).state = t := by
  constructor
  · rintro ⟨hresult, hstate⟩
    rw [result_lift] at hresult
    rw [state_lift] at hstate
    exact ⟨by simpa using hresult, hstate⟩
  · rintro ⟨hresult, hstate⟩
    refine ⟨?_, ?_⟩
    · rw [result_lift, hresult]
      rfl
    · rw [state_lift, hstate]

theorem answers_state_iff {seen : Disk × Diary} :
    Answers (ExceptT.lift Run.state) s seen t ↔ seen = s ∧ t = s := by
  rw [answers_lift_iff]
  constructor
  · rintro ⟨hresult, hstate⟩
    exact ⟨(Option.some.inj hresult).symm, hstate.symm⟩
  · rintro ⟨rfl, rfl⟩
    exact ⟨rfl, rfl⟩

theorem answers_onDisk_iff {cause : DiskError → SiteError}
    {step : Disk → Except DiskError Disk} {answer : Unit} :
    Answers (onDisk cause step) s answer t ↔ ∃ disk, step s.1 = .ok disk ∧ t = (disk, s.2) := by
  constructor
  · rintro ⟨hresult, hstate⟩
    simp only [onDisk, ExceptT.mk] at hresult hstate
    cases hstep : step s.1 with
    | ok disk =>
        rw [hstep] at hstate
        exact ⟨disk, rfl, hstate.symm⟩
    | error e =>
        rw [hstep] at hresult
        cases hresult
  · rintro ⟨disk, hstep, rfl⟩
    refine ⟨?_, ?_⟩ <;> simp only [onDisk, ExceptT.mk, hstep]

theorem answers_onDiskWith_iff {cause : DiskError → SiteError}
    {steps : Disk → Disk × Option DiskError} {answer : Unit} :
    Answers (onDiskWith cause steps) s answer t ↔
      (steps s.1).2 = none ∧ t = ((steps s.1).1, s.2) := by
  constructor
  · rintro ⟨hresult, hstate⟩
    simp only [onDiskWith, ExceptT.mk] at hresult hstate
    cases hfailure : (steps s.1).2 with
    | none => exact ⟨rfl, hstate.symm⟩
    | some e =>
        rw [hfailure] at hresult
        cases hresult
  · rintro ⟨hfailure, rfl⟩
    refine ⟨?_, rfl⟩
    simp only [onDiskWith, ExceptT.mk, hfailure]

theorem answers_onShelf_iff {setting : Setting} {run : View → Run Shelf α} :
    Answers (onShelf setting run) s a t ↔
      (run { toSetting := setting, disk := s.1 } s.2.shelf).result = some a ∧
        t = (s.1, { s.2 with
          shelf := (run { toSetting := setting, disk := s.1 } s.2.shelf).state }) := by
  constructor
  · rintro ⟨hresult, hstate⟩
    simp only [onShelf, ExceptT.mk] at hresult hstate
    exact ⟨by simpa using hresult, hstate.symm⟩
  · rintro ⟨hresult, rfl⟩
    refine ⟨?_, rfl⟩
    simp only [onShelf, ExceptT.mk, hresult]
    rfl

end DrawingDiary.Site.Attempt
