import DrawingDiary.Proofs.Day.StripFile
import DrawingDiary.Proofs.Disk.Join
import DrawingDiary.Site.Generate

/-!
# Runs that only add to the disk

A run grows the disk when everything that stood before it stands after it, however it
ends. Runs in a row grow the disk when each of them does (`Run.Grows.bind`), so it is
enough to look at the single steps. All steps of making a site grow the disk but two:
deleting the target, and removing an old page from the root of the site.
-/

namespace DrawingDiary

namespace Run

variable {τ α β : Type}

def Grows (run : Run (Disk × τ) α) : Prop := ∀ s, Disk.Grown s.1 (run s).state.1

theorem Grows.bind {first : Run (Disk × τ) α} {next : α → Run (Disk × τ) β}
    (hfirst : first.Grows) (hnext : ∀ a, (next a).Grows) : (first >>= next).Grows := by
  intro s
  rw [state_bind]
  cases (first s).result with
  | none => exact hfirst s
  | some a => exact (hfirst s).trans (hnext a _)

theorem grows_pure (a : α) : (pure a : Run (Disk × τ) α).Grows := fun s => .refl s.1

theorem grows_state : (Run.state : Run (Disk × τ) (Disk × τ)).Grows := fun s => .refl s.1

/-- To work beside the disk leaves the disk as it is. -/
theorem grows_onPart_snd {σ : Type} (part : Disk × τ → σ) (replace : τ → σ → τ)
    (run : Run σ α) : (Run.onPart part (fun s t => (s.1, replace s.2 t)) run).Grows :=
  fun s => .refl s.1

theorem Grows.forEach {run : α → Run (Disk × τ) β} (h : ∀ x, (run x).Grows) (xs : List α) :
    (Run.forEach xs run).Grows := by
  induction xs with
  | nil => exact grows_pure []
  | cons x rest ih => exact (h x).bind fun y => ih.bind fun ys => grows_pure (y :: ys)

end Run

/-- Writing the strips of all days that lack their file only adds to the disk. -/
theorem Diary.grows_materializeThumbnails (setting : Setting) :
    (Diary.materializeThumbnails setting).Grows := by
  apply Run.grows_state.bind
  rintro ⟨disk, diary⟩
  apply Run.Grows.bind (Run.grows_onPart_snd _ (fun _ diary => diary) _)
  intro ids
  refine Run.Grows.bind (Run.Grows.forEach (fun id => ?_) ids) fun written => Run.grows_pure _
  intro s
  exact Day.grown_createThumbnailFile setting s.1 (s.2.shelf.day id)

namespace Site

variable {α β : Type}

namespace Attempt

/-- The state after two attempts in a row. -/
theorem state_bind (first : Attempt α) (next : α → Attempt β) (s : Disk × Diary) :
    ((first >>= next) s).state =
      match (first s).result with
      | some (.ok a) => (next a (first s).state).state
      | _ => (first s).state := by
  change (Run.bind first.run _ s).state = _
  simp only [Run.bind, ExceptT.run]
  cases (first s).result with
  | none => rfl
  | some answer => cases answer <;> rfl

def Grows (attempt : Attempt α) : Prop := ∀ s, Disk.Grown s.1 (attempt s).state.1

theorem Grows.bind {first : Attempt α} {next : α → Attempt β} (hfirst : first.Grows)
    (hnext : ∀ a, (next a).Grows) : (first >>= next).Grows := by
  intro s
  rw [state_bind]
  split
  · exact (hfirst s).trans (hnext _ _)
  · exact hfirst s

theorem grows_pure (a : α) : Grows (pure a : Attempt α) := fun s => .refl s.1

theorem grows_throw (e : SiteError) : Grows (throw e : Attempt α) := fun s => .refl s.1

theorem grows_state : Grows (ExceptT.lift Run.state) := fun s => .refl s.1

theorem grows_onShelf (setting : Setting) (run : View → Run Shelf α) :
    (onShelf setting run).Grows := fun s => .refl s.1

theorem grows_onDisk (cause : DiskError → SiteError) {step : Disk → Except DiskError Disk}
    (h : ∀ {before after}, step before = .ok after → Disk.Grown before after) :
    (onDisk cause step).Grows := by
  intro s
  simp only [onDisk, ExceptT.mk]
  cases hstep : step s.1 with
  | ok disk => exact h hstep
  | error e => exact .refl s.1

theorem grows_onDiskWith (cause : DiskError → SiteError)
    {steps : Disk → Disk × Option DiskError} (h : ∀ disk, Disk.Grown disk (steps disk).1) :
    (onDiskWith cause steps).Grows := fun s => h s.1

end Attempt

theorem grown_linkAssets (source target : Path) (names : List String) (disk : Disk) :
    Disk.Grown disk (linkAssets source target names disk).1 := by
  induction names generalizing disk with
  | nil => exact .refl disk
  | cons name rest ih =>
      unfold linkAssets
      split
      next linked hlink => exact (Disk.grown_of_makeLink hlink).trans (ih linked)
      · exact .refl disk

theorem grows_linkTemplate (source target : Path) : (linkTemplate source target).Grows := by
  unfold linkTemplate
  refine Attempt.grows_state.bind ?_
  rintro ⟨disk, diary⟩
  simp only
  split
  · exact Attempt.grows_throw _
  · exact (Attempt.grows_onDiskWith _ (grown_linkAssets source target _)).bind fun _ =>
      Attempt.grows_pure _

theorem grown_writeMonthPage (directory : Path) (lines : List String) (disk : Disk) :
    Disk.Grown disk (writeMonthPage directory lines disk).1 := by
  unfold writeMonthPage
  split
  · exact .refl disk
  next made hmade =>
    split
    · exact Disk.grown_of_makeDirectory hmade
    next written hwritten =>
      exact (Disk.grown_of_makeDirectory hmade).trans (Disk.grown_of_writeNewFile hwritten)

theorem grows_monthPage (setting : Setting) (target : Path) (template : List String)
    (months : List Month) (month : String) :
    (monthPage setting target template months month).Grows := by
  apply (Attempt.grows_onShelf setting _).bind
  intro lines s
  exact grown_writeMonthPage (target.join month) lines s.1

theorem grows_monthPages (setting : Setting) (target : Path) (template : List String)
    (months : List Month) (names : List String) :
    (monthPages setting target template months names).Grows := by
  induction names with
  | nil => exact Attempt.grows_pure []
  | cons month rest ih =>
      apply (grows_monthPage setting target template months month).bind
      intro failed
      exact ih.bind fun others => Attempt.grows_pure _

end Site

end DrawingDiary
