import DrawingDiary.Proofs.Disk.Changes

/-!
# A name below a path

A path joined with a plain name takes the steps of the path, however many slashes it ends
with, and then the step to the name (`steps_join`). So the joined path leads to this name
in the directory that the path leads to (`resolve_join`).
-/

namespace DrawingDiary

namespace Text

theorem splitAll_ne_nil (c : Char) (s : List Char) : splitAll c s ≠ [] := by
  cases s with
  | nil => simp [splitAll]
  | cons x s =>
      unfold splitAll
      split
      · simp
      · split <;> simp

theorem splitAll_append_cons (c : Char) (a b : List Char) :
    splitAll c (a ++ c :: b) = splitAll c a ++ splitAll c b := by
  induction a with
  | nil => simp [splitAll]
  | cons x a ih =>
      rw [List.cons_append, splitAll, splitAll]
      by_cases h : x = c
      · rw [if_pos h, if_pos h, ih, List.cons_append]
      · rw [if_neg h, if_neg h, ih]
        cases hpieces : splitAll c a with
        | nil => exact absurd hpieces (splitAll_ne_nil c a)
        | cons piece pieces => rfl

theorem splitAll_of_not_mem {c : Char} {s : List Char} (h : c ∉ s) : splitAll c s = [s] := by
  induction s with
  | nil => rfl
  | cons x s ih =>
      rw [List.mem_cons, not_or] at h
      obtain ⟨hx, hs⟩ := h
      rw [splitAll, if_neg (Ne.symm hx), ih hs]

theorem splitAll_replicate_append {c : Char} {s : List Char} (h : c ∉ s) (n : Nat) :
    splitAll c (List.replicate n c ++ s) = List.replicate n [] ++ [s] := by
  induction n with
  | zero => exact splitAll_of_not_mem h
  | succ n ih =>
      rw [List.replicate_succ, List.cons_append, splitAll, if_pos rfl, ih,
        List.replicate_succ, List.cons_append]

theorem not_mem_of_mem_splitAll {c : Char} {s piece : List Char} (h : piece ∈ splitAll c s) :
    c ∉ piece := by
  induction s generalizing piece with
  | nil =>
      obtain rfl := List.mem_singleton.mp h
      exact List.not_mem_nil
  | cons x s ih =>
      rw [splitAll] at h
      split at h
      · rcases List.mem_cons.mp h with rfl | hrest
        · exact List.not_mem_nil
        · exact ih hrest
      next hx =>
        cases hpieces : splitAll c s with
        | nil => exact absurd hpieces (splitAll_ne_nil c s)
        | cons first pieces =>
            rw [hpieces] at h
            rcases List.mem_cons.mp h with rfl | hrest
            · rw [List.mem_cons, not_or]
              exact ⟨Ne.symm hx, ih (by rw [hpieces]; exact List.mem_cons_self)⟩
            · exact ih (by rw [hpieces]; exact List.mem_cons_of_mem _ hrest)

end Text

namespace Path

open Text

/-- A name that is one step into a directory. -/
structure PlainName (name : String) : Prop where
  no_slash : '/' ∉ name.toList
  step : Step.ofPiece name.toList = .into name

theorem PlainName.ne_nil {name : String} (plain : PlainName name) : name.toList ≠ [] := by
  intro h
  have hstep := plain.step
  rw [h] at hstep
  cases hstep

/-- A name without a slash is one step, if there is more than dots in it. -/
theorem plainName_of_mem {name : String} {c : Char} (no_slash : '/' ∉ name.toList)
    (hc : c ∈ name.toList) (hdot : c ≠ '.') : PlainName name := by
  have hother : ∀ piece : List Char, c ∉ piece → name.toList ≠ piece :=
    fun piece hpiece heq => hpiece (heq ▸ hc)
  refine ⟨no_slash, ?_⟩
  rw [Step.ofPiece, if_neg, if_neg, String.ofList_toList]
  · exact hother _ (by simp [hdot])
  · rintro (h | h)
    · exact hother _ (by simp) h
    · exact hother _ (by simp [hdot]) h

theorem exists_slashes (p : Path) : ∃ n,
    p.text.toList = p.trimmed.text.toList ++ List.replicate n '/' ∧
      (p.endsWithSlash = true ↔ 0 < n) := by
  have hsplit := List.takeWhile_append_dropWhile (p := (· == '/')) (l := p.text.toList.reverse)
  have hslashes : ∀ c ∈ p.text.toList.reverse.takeWhile (· == '/'), c = '/' := by
    simpa using List.all_eq_true.mp (List.all_takeWhile (p := (· == '/')))
  have htext : p.text.toList = p.trimmed.text.toList ++
      List.replicate (p.text.toList.reverse.takeWhile (· == '/')).length '/' := by
    have hreverse := congrArg List.reverse hsplit
    rw [List.reverse_append, List.reverse_reverse, List.eq_replicate_of_mem hslashes,
      List.reverse_replicate] at hreverse
    simpa [trimmed] using hreverse.symm
  refine ⟨_, htext, ?_⟩
  have hlast : p.text.toList.getLast? = p.text.toList.reverse.head? := by
    rw [List.head?_reverse]
  rw [endsWithSlash, hlast]
  cases p.text.toList.reverse with
  | nil => simp
  | cons c rest => by_cases h : c = '/' <;> simp [h]

/-- A text that is one step of a path. -/
structure OneStep (text : String) (step : Step) : Prop where
  no_slash : '/' ∉ text.toList
  ne_nil : text.toList ≠ []
  step_eq : Step.ofPiece text.toList = step

theorem PlainName.oneStep {name : String} (plain : PlainName name) : OneStep name (.into name) :=
  ⟨plain.no_slash, plain.ne_nil, plain.step⟩

theorem oneStep_up : OneStep ".." .up := ⟨by decide, by decide, by decide⟩

namespace OneStep

variable {text : String} {step : Step}

theorem not_absolute (one : OneStep text step) : ¬ (text.toList.head? == some '/') = true := by
  rw [beq_iff_eq]
  exact fun h => one.no_slash (List.mem_of_head? h)

theorem endsWithSlash_join (one : OneStep text step) (p : Path) :
    (p.join text).endsWithSlash = false := by
  have hlast (before : List Char) : (before ++ text.toList).getLast? ≠ some '/' := by
    rw [List.getLast?_append, List.getLast?_eq_some_getLast one.ne_nil, Option.some_or]
    intro h
    exact one.no_slash (Option.some.inj h ▸ List.getLast_mem one.ne_nil)
  unfold join endsWithSlash
  split
  · simpa using hlast []
  · split
    · simpa [String.toList_append] using hlast p.text.toList
    · simpa [String.toList_append] using hlast (p.text.toList ++ ['/'])

end OneStep

theorem endsWithSlash_join (p : Path) {name : String} (plain : PlainName name) :
    (p.join name).endsWithSlash = false :=
  plain.oneStep.endsWithSlash_join p

theorem trimmed_of_not_endsWithSlash {p : Path} (h : p.endsWithSlash = false) :
    p.trimmed = p := by
  obtain ⟨n, htext, hslash⟩ := p.exists_slashes
  have hzero : n = 0 := by
    rw [h] at hslash
    simpa using hslash
  subst hzero
  rw [List.replicate_zero, List.append_nil] at htext
  have hsame : p.trimmed.text = p.text := String.toList_injective htext.symm
  cases p
  exact congrArg Path.mk hsame

/-- Joining one step to a path adds this step. -/
theorem OneStep.steps_join {text : String} {step : Step} (one : OneStep text step) {p : Path}
    (nonempty : p.text.isEmpty = false) :
    ∃ n, (p.join text).trimmed.steps =
      p.trimmed.steps ++ (List.replicate n .here ++ [step]) := by
  rw [trimmed_of_not_endsWithSlash (one.endsWithSlash_join p)]
  obtain ⟨n, htext, hslash⟩ := p.exists_slashes
  have hjoin : ∃ m, (p.join text).text.toList =
      p.trimmed.text.toList ++ '/' :: (List.replicate m '/' ++ text.toList) := by
    rw [join, if_neg one.not_absolute, nonempty, Bool.false_or]
    cases n with
    | zero =>
        have hends : ¬ p.endsWithSlash = true := by simp [hslash]
        rw [if_neg hends]
        exact ⟨0, by simp [String.toList_append, htext]⟩
    | succ m =>
        rw [if_pos (hslash.mpr (Nat.succ_pos m))]
        exact ⟨m, by simp [String.toList_append, htext, List.replicate_succ]⟩
  obtain ⟨m, hjoin⟩ := hjoin
  refine ⟨m, ?_⟩
  rw [steps, hjoin, splitAll_append_cons, splitAll_replicate_append one.no_slash, List.map_append,
    List.map_append, List.map_replicate, List.map_singleton, one.step_eq]
  rfl

/-- Joining a name to a path adds the step to this name. -/
theorem steps_join {p : Path} (nonempty : p.text.isEmpty = false) {name : String}
    (plain : PlainName name) :
    ∃ n, (p.join name).trimmed.steps =
      p.trimmed.steps ++ (List.replicate n .here ++ [.into name]) :=
  plain.oneStep.steps_join nonempty

theorem OneStep.isAbsolute_join {text : String} {step : Step} (one : OneStep text step) {p : Path}
    (nonempty : p.text.isEmpty = false) : (p.join text).isAbsolute = p.isAbsolute := by
  have hsome : p.text.toList ≠ [] := by simpa using nonempty
  obtain ⟨c, rest, htext⟩ := List.exists_cons_of_ne_nil hsome
  rw [join, if_neg one.not_absolute]
  split <;> simp [isAbsolute, String.toList_append, htext]

theorem isAbsolute_join {p : Path} (nonempty : p.text.isEmpty = false) {name : String}
    (plain : PlainName name) : (p.join name).isAbsolute = p.isAbsolute :=
  plain.oneStep.isAbsolute_join nonempty

theorem nonempty_of_isAbsolute {p : Path} (h : p.isAbsolute = true) :
    p.text.isEmpty = false := by
  rw [isAbsolute, beq_iff_eq] at h
  have hsome : p.text.toList ≠ [] := List.ne_nil_of_mem (List.mem_of_head? h)
  simpa using hsome

theorem nonempty_join {p : Path} (nonempty : p.text.isEmpty = false) (name : String) :
    (p.join name).text.isEmpty = false := by
  have hsome : p.text ≠ "" := by simpa using nonempty
  unfold join
  split
  next habsolute => exact nonempty_of_isAbsolute (p := ⟨name⟩) habsolute
  · split
    · simp [hsome]
    · simp

theorem isAbsolute_join_of_isAbsolute {p : Path} (absolute : p.isAbsolute = true)
    (name : String) : (p.join name).isAbsolute = true := by
  have hhead : p.text.toList.head? = some '/' := by simpa [isAbsolute] using absolute
  rw [join]
  split
  next hname => exact hname
  · split <;> simp [isAbsolute, String.toList_append, List.head?_append, hhead]

theorem isAbsolute_of_absolute? {p q workingDirectory : Path}
    (absolute : workingDirectory.isAbsolute = true)
    (h : p.absolute? workingDirectory = some q) : q.isAbsolute = true := by
  have hfold (steps : List Step) (start : Path) (hstart : start.isAbsolute = true) :
      (steps.foldl (fun q step => q.join step.text) start).isAbsolute = true := by
    induction steps generalizing start with
    | nil => exact hstart
    | cons step rest ih => exact ih _ (isAbsolute_join_of_isAbsolute hstart _)
  unfold absolute? at h
  split at h
  · cases h
  · cases h
    have hwalked := hfold (p.components.filter (· ≠ .here))
    split
    · refine isAbsolute_join_of_isAbsolute (hwalked _ ?_) ""
      split
      · exact absolute
      · decide
      · decide
    · refine hwalked _ ?_
      split
      · exact absolute
      · decide
      · decide

theorem nonempty_of_absolute? {p q workingDirectory : Path}
    (absolute : workingDirectory.isAbsolute = true)
    (h : p.absolute? workingDirectory = some q) : q.text.isEmpty = false :=
  nonempty_of_isAbsolute (isAbsolute_of_absolute? absolute h)

end Path

namespace Disk

open DrawingDiary.Path (Step PlainName)

theorem walk_replicate_here {root : Tree} {followLast : Bool} {place : Location}
    {children : List (String × Tree)} (hget : IsDirectoryAt root place children)
    (n links : Nat) (rest : List Step) :
    walk root followLast links place (List.replicate n .here ++ rest) =
      walk root followLast links place rest := by
  induction n with
  | zero => rfl
  | succ n ih => rw [List.replicate_succ, List.cons_append, walk_here hget, ih]

/-- A last step to a name finds what stands there or that the name is free. -/
theorem eq_of_walk_last {root : Tree} {place : Location} {children : List (String × Tree)}
    (hget : IsDirectoryAt root place children) {links : Nat} {name : String} {spot : Spot}
    (h : walk root false links place [.into name] = .ok spot) :
    spot = .found (place ++ [name]) ∨ spot = .vacant place name := by
  obtain ⟨-, ⟨-, hfree⟩ | ⟨-, hthere⟩ | ⟨hfollow, -⟩⟩ := cases_of_walk_last hget h
  · exact .inr hfree
  · exact .inl hthere
  · cases hfollow

/-- A name joined to the path of a directory leads to this name in the directory. -/
theorem resolve_join {disk : Disk} {p : Path} {name : String} (plain : PlainName name)
    {place : Location} {children : List (String × Tree)}
    (hplace : disk.resolve true p = .ok (.found place))
    (hget : IsDirectoryAt disk.root place children) {spot : Spot}
    (h : disk.resolve false (p.join name) = .ok spot) :
    spot = .found (place ++ [name]) ∨ spot = .vacant place name := by
  obtain ⟨hspeak, leads⟩ := walkAlong_eq_ok_iff.mp (resolve_eq_found_iff.mp hplace).1
  obtain ⟨-, leadsJoined⟩ := walkAlong_eq_ok_iff.mp (resolve_eq_ok_iff.mp h).1
  obtain ⟨n, hsteps⟩ := p.steps_join hspeak.nonempty plain
  have hstart : disk.startSteps (p.join name) = disk.startSteps p := by
    rw [startSteps, startSteps, Path.isAbsolute_join hspeak.nonempty plain]
  have happend : ∃ left, walk disk.root false linkLimit []
      (disk.startSteps p ++ p.trimmed.steps ++ (List.replicate n .here ++ [.into name])) =
        walk disk.root false left place (List.replicate n .here ++ [.into name]) :=
    leads.walk_append (by simp)
  obtain ⟨left, heq⟩ := happend
  have hwalk := leadsJoined.walk_eq
  rw [Path.endsWithSlash_join p plain, hstart, hsteps, ← List.append_assoc] at hwalk
  rw [Bool.false_or, heq, walk_replicate_here hget] at hwalk
  exact eq_of_walk_last hget hwalk

end Disk

end DrawingDiary
