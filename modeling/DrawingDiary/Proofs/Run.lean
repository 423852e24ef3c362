import DrawingDiary.Run

/-!
# Laws and rules of runs

Runs are a lawful monad. What is known of the members of a sequence of runs is known of the
whole sequence: `Ensures` says what holds after a run that has a result, `Completes` that
there is always one, and `Steady` that it is the same one from all of some states, among which
the run stays. Each has a rule for runs in a row and for loops.
-/

namespace DrawingDiary.Run

variable {σ τ α β γ : Type}

section Laws

protected theorem id_map (run : Run σ α) : id <$> run = run := by
  funext s
  change (run >>= pure) s = run s
  rw [bind_apply]
  cases hresult : (run s).result with
  | none => simp [← hresult]
  | some a => simp [← hresult]

protected theorem pure_bind (a : α) (next : α → Run σ β) : pure a >>= next = next a := by
  funext s
  simp [bind_apply]

protected theorem bind_assoc (first : Run σ α) (next : α → Run σ β) (last : β → Run σ γ) :
    first >>= next >>= last = first >>= fun a => next a >>= last := by
  funext s
  simp only [bind_apply]
  cases (first s).result with
  | none => rfl
  | some a =>
      simp only
      cases (next a (first s).state).result with
      | none => rfl
      | some b => simp [List.append_assoc]

instance : LawfulMonad (Run σ) :=
  LawfulMonad.mk' (Run σ) Run.id_map Run.pure_bind Run.bind_assoc

/-- To go on with the state is to go on with what it is now. -/
theorem state_bind_apply (next : σ → Run σ β) (s : σ) : (Run.state >>= next) s = next s s := rfl

theorem forEach_nil (run : α → Run σ β) : Run.forEach [] run = pure [] := rfl

theorem forEach_cons (x : α) (rest : List α) (run : α → Run σ β) :
    Run.forEach (x :: rest) run =
      run x >>= fun y => Run.forEach rest run >>= fun ys => pure (y :: ys) := rfl

/-- What is made of each result can be made of all results at the end. -/
theorem forEach_map (xs : List α) (run : α → Run σ β) (f : α → β → γ) :
    (Run.forEach xs fun x => f x <$> run x) = List.zipWith f xs <$> Run.forEach xs run := by
  induction xs with
  | nil => simp [forEach_nil]
  | cons x rest ih => simp [forEach_cons, ih]

theorem forEach_map_const (xs : List α) (run : α → Run σ β) (f : β → γ) :
    (Run.forEach xs fun x => f <$> run x) = List.map f <$> Run.forEach xs run := by
  induction xs with
  | nil => simp [forEach_nil]
  | cons x rest ih => simp [forEach_cons, ih]

theorem onPart_map (part : σ → τ) (replace : σ → τ → σ) (run : Run τ α) (f : α → β) :
    Run.onPart part replace (f <$> run) = f <$> Run.onPart part replace run := by
  funext s
  change Run.onPart part replace (run >>= fun a => pure (f a)) s =
    (Run.onPart part replace run >>= fun a => pure (f a)) s
  simp only [onPart, bind_apply]
  cases (run (part s)).result <;> simp

end Laws

section States

theorem state_bind (first : Run σ α) (next : α → Run σ β) (s : σ) :
    ((first >>= next) s).state =
      match (first s).result with
      | none => (first s).state
      | some a => (next a (first s).state).state := by
  rw [bind_apply]
  cases (first s).result <;> rfl

theorem state_bind_of_keeps (first : Run σ α) {next : α → Run σ β}
    (keeps : ∀ a s, (next a s).state = s) (s : σ) :
    ((first >>= next) s).state = (first s).state := by
  rw [state_bind]
  cases (first s).result with
  | none => rfl
  | some a => exact keeps a _

theorem state_bind_congr (first : Run σ α) {next : α → Run σ β}
    {other : α → Run σ γ} (same : ∀ a s, (next a s).state = (other a s).state) (s : σ) :
    ((first >>= next) s).state = ((first >>= other) s).state := by
  rw [state_bind, state_bind]
  cases (first s).result with
  | none => rfl
  | some a => exact same a _

/-- What holds after each run if it did before, however the run ends, holds after all of them in
a row. -/
theorem forEach_invariant (inv : σ → Prop) {run : α → Run σ β} {xs : List α}
    (h : ∀ x ∈ xs, ∀ s, inv s → inv (run x s).state) (s : σ) (hs : inv s) :
    inv (Run.forEach xs run s).state := by
  induction xs generalizing s with
  | nil => exact hs
  | cons x rest ih =>
      obtain ⟨hx, hrest⟩ := List.forall_mem_cons.mp h
      rw [forEach_cons, state_bind]
      cases (run x s).result with
      | none => exact hx s hs
      | some y =>
          simp only
          rw [state_bind_of_keeps _ fun _ _ => rfl]
          exact ih hrest _ (hx s hs)

theorem forEach_keeps {run : α → Run σ β} (f : σ → γ)
    (keeps : ∀ x s, f (run x s).state = f s) (xs : List α) (s : σ) :
    f (Run.forEach xs run s).state = f s :=
  forEach_invariant (fun t => f t = f s) (fun x _ t ht => (keeps x t).trans ht) s rfl

end States

section Ensures

/-- From a state with the one property, a run that has a result ends with the other. -/
def Ensures (before : σ → Prop) (run : Run σ α) (after : α → σ → Prop) : Prop :=
  ∀ s a, before s → (run s).result = some a → after a (run s).state

variable {before : σ → Prop} {between : α → σ → Prop} {after : β → σ → Prop}

theorem ensures_pure {a : α} (h : ∀ s, before s → between a s) :
    Ensures before (pure a) between := by
  intro s b hs hb
  cases hb
  exact h s hs

theorem Ensures.bind {first : Run σ α} {next : α → Run σ β}
    (hfirst : Ensures before first between) (hnext : ∀ a, Ensures (between a) (next a) after) :
    Ensures before (first >>= next) after := by
  intro s b hs hb
  rw [bind_apply] at hb ⊢
  cases hresult : (first s).result with
  | none =>
      rw [hresult] at hb
      cases hb
  | some a =>
      rw [hresult] at hb
      exact hnext a _ b (hfirst s a hs hresult) hb

theorem Ensures.map {run : Run σ α} (h : Ensures before run between) (f : α → β) :
    Ensures before (f <$> run) fun b s => ∃ a, b = f a ∧ between a s := by
  rw [map_eq_pure_bind]
  exact h.bind fun a => ensures_pure fun s hs => ⟨a, rfl, hs⟩

/-- A loop keeps what each of its runs keeps, and all results are what each of them is. -/
theorem Ensures.forEach {run : α → Run σ β} {xs : List α} {good : β → Prop}
    (h : ∀ x ∈ xs, Ensures before (run x) fun y s => before s ∧ good y) :
    Ensures before (Run.forEach xs run) fun ys s => before s ∧ ∀ y ∈ ys, good y := by
  induction xs with
  | nil => exact ensures_pure fun s hs => ⟨hs, by simp⟩
  | cons x rest ih =>
      obtain ⟨hx, hrest⟩ := List.forall_mem_cons.mp h
      rw [forEach_cons]
      refine hx.bind fun y => ?_
      have hothers : Ensures (fun s => before s ∧ good y) (Run.forEach rest run) fun ys s =>
          (before s ∧ ∀ z ∈ ys, good z) ∧ good y :=
        fun s ys ⟨hs, hy⟩ hys => ⟨ih hrest s ys hs hys, hy⟩
      exact hothers.bind fun ys => ensures_pure fun s ⟨⟨hs, hys⟩, hy⟩ =>
        ⟨hs, List.forall_mem_cons.mpr ⟨hy, hys⟩⟩

/-- What a loop keeps while something is known of the result for each member is known of all
results. -/
theorem Ensures.forEach_map {run : α → Run σ β} {xs : List α} {f : β → γ} {g : α → γ}
    (h : ∀ x ∈ xs, Ensures before (run x) fun y s => before s ∧ f y = g x) :
    Ensures before (Run.forEach xs run) fun ys s => before s ∧ ys.map f = xs.map g := by
  induction xs with
  | nil => exact ensures_pure fun s hs => ⟨hs, rfl⟩
  | cons x rest ih =>
      obtain ⟨hx, hrest⟩ := List.forall_mem_cons.mp h
      rw [forEach_cons]
      refine hx.bind fun y => ?_
      have hothers : Ensures (fun s => before s ∧ f y = g x) (Run.forEach rest run) fun ys s =>
          (before s ∧ ys.map f = rest.map g) ∧ f y = g x :=
        fun s ys ⟨hs, hy⟩ hys => ⟨ih hrest s ys hs hys, hy⟩
      exact hothers.bind fun ys => ensures_pure fun s ⟨⟨hs, hys⟩, hy⟩ =>
        ⟨hs, by rw [List.map_cons, List.map_cons, hy, hys]⟩

end Ensures

section Completes

/-- The run has a result, whatever the state is. -/
def Completes (run : Run σ α) : Prop := ∀ s, ∃ a, (run s).result = some a

theorem completes_pure (a : α) : Completes (pure a : Run σ α) := fun _ => ⟨a, rfl⟩

theorem Completes.bind {first : Run σ α} {next : α → Run σ β} (hfirst : Completes first)
    (hnext : ∀ a, Completes (next a)) : Completes (first >>= next) := by
  intro s
  obtain ⟨a, ha⟩ := hfirst s
  rw [bind_apply, ha]
  exact hnext a _

theorem Completes.map {run : Run σ α} (h : Completes run) (f : α → β) :
    Completes (f <$> run) := by
  rw [map_eq_pure_bind]
  exact h.bind fun a => completes_pure (f a)

theorem Completes.onPart {run : Run τ α} (h : Completes run) (part : σ → τ)
    (replace : σ → τ → σ) : Completes (Run.onPart part replace run) := fun s => h (part s)

theorem Completes.forEach {run : α → Run σ β} {xs : List α} (h : ∀ x ∈ xs, Completes (run x)) :
    Completes (Run.forEach xs run) := by
  induction xs with
  | nil => exact completes_pure []
  | cons x rest ih =>
      obtain ⟨hx, hrest⟩ := List.forall_mem_cons.mp h
      exact hx.bind fun y => (ih hrest).bind fun ys => completes_pure (y :: ys)

end Completes

section Steady

/-- From all states with a property the run answers the same, and with an answer it ends in such
a state. -/
structure Steady (met : σ → Prop) (run : Run σ α) (answer : Option α) : Prop where
  result_eq : ∀ s, met s → (run s).result = answer
  met_state : ∀ s, met s → answer.isSome → met (run s).state

variable {met : σ → Prop}

theorem Steady.self {run : Run σ α} {answer : Option α} (h : Steady met run answer) {s : σ}
    (hs : met s) : Steady met run (run s).result := by
  rw [h.result_eq s hs]
  exact h

theorem steady_pure (a : α) : Steady met (pure a) (some a) :=
  ⟨fun _ _ => rfl, fun _ hs _ => hs⟩

theorem Steady.bind {first : Run σ α} {answer : Option α} {next : α → Run σ β}
    {answers : α → Option β} (hfirst : Steady met first answer)
    (hnext : ∀ a, Steady met (next a) (answers a)) :
    Steady met (first >>= next) (answer.bind answers) := by
  constructor
  case result_eq =>
    intro s hs
    rw [bind_apply, hfirst.result_eq s hs]
    cases answer with
    | none => rfl
    | some a => exact (hnext a).result_eq _ (hfirst.met_state s hs rfl)
  case met_state =>
    intro s hs hsome
    rw [bind_apply, hfirst.result_eq s hs]
    cases answer with
    | none => cases hsome
    | some a => exact (hnext a).met_state _ (hfirst.met_state s hs rfl) hsome

theorem Steady.map {run : Run σ α} {answer : Option α} (h : Steady met run answer) (f : α → β) :
    Steady met (f <$> run) (answer.map f) := by
  rw [map_eq_pure_bind, Option.map_eq_bind]
  exact h.bind fun a => steady_pure (f a)

theorem Steady.forEach {run : α → Run σ β} {answers : α → Option β} {xs : List α}
    (h : ∀ x ∈ xs, Steady met (run x) (answers x)) :
    Steady met (Run.forEach xs run) (xs.mapM answers) := by
  induction xs with
  | nil => exact steady_pure []
  | cons x rest ih =>
      obtain ⟨hx, hrest⟩ := List.forall_mem_cons.mp h
      rw [forEach_cons, List.mapM_cons]
      exact hx.bind fun y => (ih hrest).bind fun ys => steady_pure (y :: ys)

end Steady

end DrawingDiary.Run
