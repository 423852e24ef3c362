import DrawingDiary.Disk.Path

/-!
# Runs

A run goes from state to state and may be cut short by an aborted read. Then it
has no result, but the state reached so far stays, and so does the record of
the paths that were read. `onPart` runs on a part of a larger state.
-/

namespace DrawingDiary

/-- What a run leaves behind. -/
structure Outcome (σ α : Type) where
  state : σ
  /-- the paths whose content was asked for, in order -/
  reads : List Path
  /-- the result, unless a read was aborted -/
  result : Option α

def Run (σ α : Type) := σ → Outcome σ α

namespace Run

variable {σ τ α β : Type}

/-- Answers without reading anything. -/
protected def pure (a : α) : Run σ α := fun s => ⟨s, [], some a⟩

/-- Goes on with the result of a run, if it has one. -/
protected def bind (first : Run σ α) (next : α → Run σ β) : Run σ β := fun s =>
  let o := first s
  match o.result with
  | none => ⟨o.state, o.reads, none⟩
  | some a =>
    let p := next a o.state
    ⟨p.state, o.reads ++ p.reads, p.result⟩

instance : Monad (Run σ) where
  pure := Run.pure
  bind := Run.bind

def state : Run σ σ := fun s => ⟨s, [], some s⟩

def update (f : σ → σ) : Run σ Unit := fun s => ⟨f s, [], some ()⟩

def onPart (part : σ → τ) (replace : σ → τ → σ) (run : Run τ α) : Run σ α := fun s =>
  let o := run (part s)
  ⟨replace s o.state, o.reads, o.result⟩

/-- Runs for each member of a list in order and collects the results. -/
def forEach (xs : List α) (run : α → Run σ β) : Run σ (List β) :=
  match xs with
  | [] => Run.pure []
  | x :: rest => (run x).bind fun y => (forEach rest run).bind fun ys => Run.pure (y :: ys)

@[simp] theorem pure_apply (a : α) (s : σ) : (pure a : Run σ α) s = ⟨s, [], some a⟩ := rfl

theorem bind_apply (first : Run σ α) (next : α → Run σ β) (s : σ) :
    (first >>= next) s =
      match (first s).result with
      | none => ⟨(first s).state, (first s).reads, none⟩
      | some a =>
        ⟨(next a (first s).state).state, (first s).reads ++ (next a (first s).state).reads,
          (next a (first s).state).result⟩ := rfl

end Run

end DrawingDiary
