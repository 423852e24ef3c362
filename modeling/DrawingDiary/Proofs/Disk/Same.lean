import DrawingDiary.Proofs.Disk.Join

/-!
# Paths that take the same steps

Standing still is no step that matters: two walks that move alike lead to the same
directory (`Leads.of_moving`). So paths that take the same steps, however they are written,
lead to the same directory of any disk, as long as neither is too long for the disk
(`resolve_of_moving`), and list the same names there (`list_eq_of_moving`).
-/

namespace DrawingDiary

namespace Path

open Text

/-- The steps of a walk that lead somewhere else. -/
def moving (steps : List Step) : List Step := steps.filter (· ≠ .here)

theorem moving_append (first rest : List Step) :
    moving (first ++ rest) = moving first ++ moving rest :=
  List.filter_append first rest

theorem moving_components (p : Path) : moving p.components = moving p.steps := by
  unfold components moving
  split
  next rest hsteps =>
    rw [hsteps]
    split <;> simp
  · simp

/-- The moves along a joined path are those along the path and then the joined one. -/
theorem OneStep.moving_steps_join {text : String} {step : Step} (one : OneStep text step)
    (hmoves : step ≠ .here) {p : Path} (nonempty : p.text.isEmpty = false) :
    moving (p.join text).trimmed.steps = moving p.trimmed.steps ++ [step] := by
  obtain ⟨n, hsteps⟩ := one.steps_join nonempty
  rw [hsteps, moving_append, moving_append]
  simp [moving, hmoves]

theorem moving_steps_join {p : Path} (nonempty : p.text.isEmpty = false) {name : String}
    (plain : PlainName name) :
    moving (p.join name).trimmed.steps = moving p.trimmed.steps ++ [.into name] :=
  plain.oneStep.moving_steps_join (by simp) nonempty

theorem exists_heres (p : Path) : ∃ n, p.steps = p.trimmed.steps ++ List.replicate n .here ∧
    (p.endsWithSlash = true ↔ 0 < n) := by
  obtain ⟨n, htext, hslash⟩ := p.exists_slashes
  refine ⟨n, ?_, hslash⟩
  cases n with
  | zero =>
      rw [List.replicate_zero, List.append_nil] at htext ⊢
      rw [steps, steps, htext]
  | succ m =>
      have hslashes : splitAll '/' (List.replicate m '/') = List.replicate (m + 1) [] := by
        have hsplit := splitAll_replicate_append (c := '/') (s := []) (by simp) m
        rwa [List.append_nil, ← List.replicate_succ'] at hsplit
      rw [steps, steps, htext, List.replicate_succ, splitAll_append_cons, hslashes,
        List.map_append, List.map_replicate]
      rfl

theorem moving_trimmed_steps (p : Path) : moving p.trimmed.steps = moving p.steps := by
  obtain ⟨n, hsteps, -⟩ := p.exists_heres
  rw [hsteps, moving_append]
  simp [moving]

/-- A path whose last step is to a name does not end with a slash. -/
theorem not_endsWithSlash_of_last {p : Path} {name : String}
    (h : p.steps.getLast? = some (.into name)) : p.endsWithSlash = false := by
  obtain ⟨n, hsteps, hslash⟩ := p.exists_heres
  refine Bool.eq_false_iff.mpr fun hends => ?_
  obtain ⟨m, rfl⟩ := Nat.exists_eq_succ_of_ne_zero (Nat.pos_iff_ne_zero.mp (hslash.mp hends))
  rw [hsteps, List.replicate_succ', ← List.append_assoc, List.getLast?_concat] at h
  cases h

/-- All that counts of a path seen from the root of the disk is its moves. -/
theorem components_of_isAbsolute {p : Path} (absolute : p.isAbsolute = true) :
    p.components = moving p.trimmed.steps := by
  have hhead : p.text.toList.head? = some '/' := by simpa [isAbsolute] using absolute
  obtain ⟨rest, htext⟩ := List.head?_eq_some_iff.mp hhead
  have hsteps : p.steps = .here :: (splitAll '/' rest).map Step.ofPiece := by
    rw [steps, htext, splitAll, if_pos rfl, List.map_cons]
    rfl
  rw [moving_trimmed_steps, components, hsteps]
  simp [absolute, moving]

theorem plainName_of_mem_steps {p : Path} {name : String} (h : .into name ∈ p.steps) :
    PlainName name := by
  obtain ⟨piece, hpiece, hstep⟩ := List.mem_map.mp h
  have hname : String.ofList piece = name := by
    unfold Step.ofPiece at hstep
    split at hstep
    · cases hstep
    · split at hstep <;> cases hstep
      rfl
  refine ⟨?_, ?_⟩
  · rw [← hname, String.toList_ofList]
    exact not_mem_of_mem_splitAll hpiece
  · rw [← hname, String.toList_ofList, hstep, hname]

theorem moving_foldl_join {steps : List Step}
    (moves : ∀ step ∈ steps, step ≠ .here ∧ OneStep step.text step) {start : Path}
    (nonempty : start.text.isEmpty = false) :
    (steps.foldl (fun q step => q.join step.text) start).isAbsolute = start.isAbsolute ∧
      moving (steps.foldl (fun q step => q.join step.text) start).trimmed.steps =
        moving start.trimmed.steps ++ steps := by
  induction steps generalizing start with
  | nil => exact ⟨rfl, (List.append_nil _).symm⟩
  | cons step rest ih =>
      obtain ⟨⟨hmoves, one⟩, hrest⟩ := List.forall_mem_cons.mp moves
      obtain ⟨habsolute, hsteps⟩ := ih hrest (nonempty_join nonempty step.text)
      rw [List.foldl_cons, habsolute, hsteps, one.isAbsolute_join nonempty,
        one.moving_steps_join hmoves nonempty, List.append_assoc]
      exact ⟨rfl, rfl⟩

theorem exists_moves_of_parent? {p parent : Path} (absolute : p.isAbsolute = true)
    (h : p.parent? = some parent) :
    ∃ above last, moving p.trimmed.steps = above ++ [last] ∧
      (∀ step ∈ above ++ [last], step ≠ .here ∧ OneStep step.text step) ∧
      parent = above.foldl (fun q step => q.join step.text) ⟨"/"⟩ := by
  have hcomponents := components_of_isAbsolute absolute
  have hsome : p.components ≠ [] := by
    intro hnil
    simp [parent?, hnil] at h
  refine ⟨p.components.dropLast, p.components.getLast hsome, ?_, ?_, ?_⟩
  · rw [← hcomponents, List.dropLast_concat_getLast hsome]
  · rw [List.dropLast_concat_getLast hsome]
    intro step hstep
    have hmem : step ∈ moving p.steps := moving_trimmed_steps p ▸ hcomponents ▸ hstep
    cases step with
    | here => simp [moving] at hmem
    | up => exact ⟨by simp, oneStep_up⟩
    | into name => exact ⟨by simp, (plainName_of_mem_steps (List.mem_filter.mp hmem).1).oneStep⟩
  · obtain ⟨first, rest, hcons⟩ := List.exists_cons_of_ne_nil hsome
    unfold parent? at h
    rw [hcons] at h ⊢
    simp only [absolute, if_true, Option.some.injEq] at h
    exact h.symm

theorem exists_move_of_parent? {p parent : Path} (absolute : p.isAbsolute = true)
    (h : p.parent? = some parent) :
    parent.isAbsolute = true ∧ ∃ last, last ≠ .here ∧
      moving p.trimmed.steps = moving parent.trimmed.steps ++ [last] := by
  obtain ⟨above, last, hmoves, hone, rfl⟩ := exists_moves_of_parent? absolute h
  obtain ⟨habove, hlast⟩ := List.forall_mem_append.mp hone
  obtain ⟨habsolute, hparent⟩ :=
    moving_foldl_join habove (by decide : (Path.mk "/").text.isEmpty = false)
  have hroot : moving (Path.mk "/").trimmed.steps = [] := by decide
  rw [hroot, List.nil_append] at hparent
  refine ⟨habsolute.trans (by decide), last, (hlast last (List.mem_singleton_self last)).1, ?_⟩
  rw [hmoves, hparent]

/-- Two paths take the same moves from the same start. -/
structure MovesLike (p q : Path) : Prop where
  isAbsolute_eq : p.isAbsolute = q.isAbsolute
  moving_eq : moving p.trimmed.steps = moving q.trimmed.steps

section Join

variable {p q : Path} {name : String} (plain : PlainName name)
  (nonempty : p.text.isEmpty = false) (nonempty' : q.text.isEmpty = false)

include plain nonempty nonempty'

theorem MovesLike.join (alike : MovesLike p q) : MovesLike (p.join name) (q.join name) where
  isAbsolute_eq := by
    rw [isAbsolute_join nonempty plain, isAbsolute_join nonempty' plain, alike.isAbsolute_eq]
  moving_eq := by
    rw [moving_steps_join nonempty plain, moving_steps_join nonempty' plain, alike.moving_eq]

/-- Where one name is joined to two paths and the results are the same path, the paths
move alike. -/
theorem movesLike_of_same_join (same : (p.join name).same (q.join name) = true) :
    MovesLike p q := by
  simp only [Path.same, Bool.and_eq_true, beq_iff_eq] at same
  obtain ⟨habsolute, hcomponents⟩ := same
  have hmoving := congrArg moving hcomponents
  rw [moving_components, moving_components,
    ← trimmed_of_not_endsWithSlash (endsWithSlash_join p plain),
    ← trimmed_of_not_endsWithSlash (endsWithSlash_join q plain),
    moving_steps_join nonempty plain, moving_steps_join nonempty' plain] at hmoving
  rw [isAbsolute_join nonempty plain, isAbsolute_join nonempty' plain] at habsolute
  exact ⟨habsolute, List.append_cancel_right hmoving⟩

end Join

end Path

namespace Disk

open DrawingDiary.Path (Step moving MovesLike)

section Walks

variable {root : Tree} {followLast : Bool} {links : Nat} {current place : Location}
  {children : List (String × Tree)} {steps other : List Step} {spot : Spot}

theorem leads_heres (hget : IsDirectoryAt root current children) {heres rest : List Step}
    (still : ∀ step ∈ heres, step = .here)
    (leads : Leads root followLast links current rest spot) :
    Leads root followLast links current (heres ++ rest) spot := by
  induction heres with
  | nil => exact leads
  | cons step heres ih =>
      obtain ⟨rfl, hrest⟩ := List.forall_mem_cons.mp still
      exact .here hget (ih hrest)

theorem exists_of_moving_eq_cons {step : Step} {moves : List Step}
    (h : moving other = step :: moves) : ∃ heres rest, other = heres ++ step :: rest ∧
      (∀ step ∈ heres, step = .here) ∧ moving rest = moves := by
  obtain ⟨heres, rest, hother, hstill, -, hrest⟩ := List.filter_eq_cons_iff.mp h
  exact ⟨heres, rest, hother, by simpa using hstill, hrest⟩

/-- A walk to a directory ends there too when it stands still more often or less often. -/
theorem Leads.of_moving (leads : Leads root true links current steps (.found place))
    (hget : IsDirectoryAt root place children) (same : moving other = moving steps) :
    Leads root true links current other (.found place) := by
  generalize hspot : Spot.found place = spot at leads ⊢
  induction leads generalizing other with
  | stop =>
      cases hspot
      have hstill : ∀ step ∈ other, step = .here := by
        simpa [moving, List.filter_eq_nil_iff] using same
      rw [← List.append_nil other]
      exact leads_heres hget hstill .stop
  | here _ _ ih => exact ih same hspot
  | up hdirectory _ ih =>
      obtain ⟨heres, rest, rfl, hstill, hrest⟩ := exists_of_moving_eq_cons same
      exact leads_heres hdirectory hstill (.up hdirectory (ih hrest hspot))
  | free => cases hspot
  | through hdirectory hshort hchild hplain _ ih =>
      obtain ⟨heres, rest, rfl, hstill, hrest⟩ := exists_of_moving_eq_cons same
      exact leads_heres hdirectory hstill
        (.through hdirectory hshort hchild hplain (ih hrest hspot))
  | last _ _ _ _ hstays => cases hstays
  | follow hdirectory hshort hchild htarget _ hsome _ ih =>
      obtain ⟨heres, rest, rfl, hstill, hrest⟩ := exists_of_moving_eq_cons same
      refine leads_heres hdirectory hstill
        (.follow hdirectory hshort hchild htarget (fun _ => rfl) hsome (ih ?_ hspot))
      rw [Path.moving_append, Path.moving_append, hrest]
      rfl

end Walks

variable {disk : Disk} {p q : Path} {place : Location} {children : List (String × Tree)}

/-- A path that moves like one to a directory leads there as well. -/
theorem resolve_of_moving (alike : MovesLike p q) (speakable : Speakable q)
    (hresolve : disk.resolve true p = .ok (.found place))
    (hget : IsDirectoryAt disk.root place children) :
    disk.resolve true q = .ok (.found place) := by
  obtain ⟨-, leads⟩ := walkAlong_eq_ok_iff.mp (resolve_eq_found_iff.mp hresolve).1
  rw [Bool.true_or] at leads
  have hstart : disk.startSteps q = disk.startSteps p := by
    rw [startSteps, startSteps, alike.isAbsolute_eq]
  refine resolve_eq_found_iff.mpr ⟨walkAlong_eq_ok_iff.mpr ⟨speakable, ?_⟩, fun _ => ⟨_, hget⟩⟩
  rw [Bool.true_or, hstart]
  refine leads.of_moving hget ?_
  rw [Path.moving_append, Path.moving_append, alike.moving_eq]

theorem list_eq_ok_iff {names : List String} :
    disk.list p = .ok names ↔ ∃ place children, disk.resolve true p = .ok (.found place) ∧
      IsDirectoryAt disk.root place children ∧ names = children.map (·.1) := by
  unfold list
  rw [bind_eq_ok_iff]
  constructor
  · intro h
    rcases h with ⟨t, hstat, h⟩
    obtain ⟨place, hresolve, hat⟩ := stat_eq_ok_iff.mp hstat
    cases t with
    | file content modified => exact absurd h throw_ne_ok
    | link target => exact absurd h throw_ne_ok
    | directory children => exact ⟨place, children, hresolve, hat, (pure_eq_ok_iff.mp h).symm⟩
  · intro h
    rcases h with ⟨place, children, hresolve, hget, rfl⟩
    exact ⟨_, stat_eq_ok_iff.mpr ⟨place, hresolve, hget⟩, rfl⟩

theorem speakable_of_resolve {followLast : Bool} {spot : Spot}
    (h : disk.resolve followLast p = .ok spot) : Speakable p :=
  (walkAlong_eq_ok_iff.mp (resolve_eq_ok_iff.mp h).1).1

theorem speakable_of_list {names : List String} (h : disk.list p = .ok names) : Speakable p := by
  obtain ⟨place, children, hresolve, -⟩ := list_eq_ok_iff.mp h
  exact speakable_of_resolve hresolve

theorem speakable_of_isDirectory (h : disk.isDirectory p = true) : Speakable p := by
  obtain ⟨place, children, hresolve, -⟩ := isDirectory_iff.mp h
  exact speakable_of_resolve hresolve

theorem list_eq_of_moving (alike : MovesLike p q) (speakable : Speakable q)
    {names : List String} (h : disk.list p = .ok names) : disk.list q = .ok names := by
  obtain ⟨place, children, hresolve, hget, hnames⟩ := list_eq_ok_iff.mp h
  exact list_eq_ok_iff.mpr
    ⟨place, children, resolve_of_moving alike speakable hresolve hget, hget, hnames⟩

theorem isDirectory_of_moving (alike : MovesLike p q) (speakable : Speakable q)
    (h : disk.isDirectory p = true) : disk.isDirectory q = true := by
  obtain ⟨place, children, hresolve, hget⟩ := isDirectory_iff.mp h
  exact isDirectory_iff.mpr
    ⟨place, children, resolve_of_moving alike speakable hresolve hget, hget⟩

end Disk

end DrawingDiary
