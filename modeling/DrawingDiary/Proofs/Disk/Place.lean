import DrawingDiary.Proofs.Disk.Added
import Mathlib.Data.List.Induction

/-!
# The place of a path

Where a path itself stands, or would stand, is decided by what is above it: links there are
followed as far as the path leads to directories, and what is missing comes after that, name
by name (`placeOf`). What stands under the last name is not asked, so a link there is a thing
of its own, and its place is not the place that it leads to. When a path that ends with a name
is found without following its last link, it is found at its place (`placeOf_of_resolve`). The
main lemma for this is that a walk can be cut in two anywhere (`Leads.split`).
-/

namespace DrawingDiary

namespace Disk

open DrawingDiary.Path (Step PlainName moving)

variable {root : Tree} {followLast : Bool} {links : Nat} {current place directory : Location}
  {children : List (String × Tree)} {name : String} {rest : List String} {spot : Spot}
  {steps front : List Step}

section Split

/-- A walk gets to where its first steps lead and goes on from there; only at the end it may
stay at a link. -/
theorem Leads.split {first more : List Step}
    (leads : Leads root followLast links current steps spot) (hsteps : steps = first ++ more)
    (hmore : more ≠ []) :
    ∃ place left, Leads root true links current first (.found place) ∧
      Leads root followLast left place more spot := by
  induction leads generalizing first with
  | stop => exact absurd (List.append_eq_nil_iff.mp hsteps.symm).2 hmore
  | here hget hleads ih =>
      cases first with
      | nil =>
          cases hsteps
          exact ⟨_, _, .stop, .here hget hleads⟩
      | cons step first =>
          cases hsteps
          obtain ⟨place, left, hfirst, hrest⟩ := ih rfl
          exact ⟨place, left, .here hget hfirst, hrest⟩
  | up hget hleads ih =>
      cases first with
      | nil =>
          cases hsteps
          exact ⟨_, _, .stop, .up hget hleads⟩
      | cons step first =>
          cases hsteps
          obtain ⟨place, left, hfirst, hrest⟩ := ih rfl
          exact ⟨place, left, .up hget hfirst, hrest⟩
  | free hget hshort hchild =>
      cases first with
      | nil =>
          cases hsteps
          exact ⟨_, 0, .stop, .free hget hshort hchild⟩
      | cons step first =>
          exact absurd (List.append_eq_nil_iff.mp (List.cons.inj hsteps).2.symm).2 hmore
  | through hget hshort hchild hplain hleads ih =>
      cases first with
      | nil =>
          cases hsteps
          exact ⟨_, _, .stop, .through hget hshort hchild hplain hleads⟩
      | cons step first =>
          cases hsteps
          obtain ⟨place, left, hfirst, hrest⟩ := ih rfl
          exact ⟨place, left, .through hget hshort hchild hplain hfirst, hrest⟩
  | last hget hshort hchild htarget hstays =>
      cases first with
      | nil =>
          cases hsteps
          exact ⟨_, 0, .stop, .last hget hshort hchild htarget hstays⟩
      | cons step first =>
          exact absurd (List.append_eq_nil_iff.mp (List.cons.inj hsteps).2.symm).2 hmore
  | follow hget hshort hchild htarget hgoes hsome hleads ih =>
      cases first with
      | nil =>
          cases hsteps
          exact ⟨_, _, .stop, .follow hget hshort hchild htarget hgoes hsome hleads⟩
      | cons step first =>
          cases hsteps
          obtain ⟨place, left, hfirst, hrest⟩ := ih (List.append_assoc _ _ _).symm
          exact ⟨place, left,
            .follow hget hshort hchild htarget (fun _ => rfl) hsome hfirst, hrest⟩

theorem Leads.exists_last
    (leads : Leads root followLast links current (steps ++ [.into name]) spot) :
    ∃ directory children left, Leads root true links current steps (.found directory) ∧
      IsDirectoryAt root directory children ∧
      walk root followLast left directory [.into name] = .ok spot := by
  obtain ⟨directory, left, hfirst, hlast⟩ := leads.split rfl (List.cons_ne_nil _ _)
  obtain ⟨children, hget⟩ := exists_directory hlast.walk_eq
  exact ⟨directory, children, left, hfirst, hget, hlast.walk_eq⟩

end Split

/-- A last step that ends at a free name ends at the name it is to, unless there is a link. -/
theorem eq_vacant_of_walk_last {left : Nat} {parent : Location} {last : String}
    (hget : IsDirectoryAt root place children)
    (h : walk root followLast left place [.into name] = .ok (.vacant parent last)) :
    (parent = place ∧ last = name ∧ Tree.lookup name children = none) ∨
      ∃ target, Tree.lookup name children = some (.link target) := by
  obtain ⟨-, ⟨hfree, hspot⟩ | ⟨-, hspot⟩ | ⟨-, hlink⟩⟩ := cases_of_walk_last hget h
  · cases hspot
    exact .inl ⟨rfl, rfl, hfree⟩
  · cases hspot
  · exact .inr hlink

/-- The directory that steps from the root lead to, all links followed. -/
def directoryAlong (root : Tree) (steps : List Step) : Option Location :=
  match walk root true linkLimit [] steps with
  | .ok (.found place) =>
    match root.get? place with
    | some (.directory _) => some place
    | _ => none
  | _ => none

theorem directoryAlong_eq_some_iff :
    directoryAlong root steps = some place ↔
      Leads root true linkLimit [] steps (.found place) ∧
        ∃ children, IsDirectoryAt root place children := by
  unfold directoryAlong
  constructor
  · intro h
    split at h
    next other hwalk =>
      split at h
      next children hget =>
        cases h
        exact ⟨walk_eq_ok_iff.mp hwalk, children, hget⟩
      · cases h
    · cases h
  · rintro ⟨leads, children, hget⟩
    simp only [leads.walk_eq, hget]

theorem directoryAlong_eq_none (hfront : directoryAlong root front = some directory)
    (free : root.get? (directory ++ [name]) = none) (more : List Step) :
    directoryAlong root (front ++ .into name :: more) = none := by
  obtain ⟨leads, children, hget⟩ := directoryAlong_eq_some_iff.mp hfront
  rw [Tree.get?_snoc hget] at free
  obtain ⟨left, hwalk⟩ : ∃ left, walk root true linkLimit [] (front ++ .into name :: more) =
      walk root true left directory (.into name :: more) :=
    leads.walk_append (List.cons_ne_nil _ _)
  rw [directoryAlong, hwalk, walk_into hget, free]
  split
  next other hfound =>
    split at hfound
    · cases hfound
    · simp only at hfound
      split at hfound <;> cases hfound
  · rfl

/-- The place of a path with the given steps from the root, the last one first. -/
def placeAlong (root : Tree) : List Step → Location
  | [] => []
  | step :: above =>
    (directoryAlong root above.reverse).getD (placeAlong root above) ++ [step.text]

/-- Where a path itself stands or would stand, a link under its last name not followed. -/
def placeOf (disk : Disk) (p : Path) : Location :=
  placeAlong disk.root (moving (disk.startSteps p ++ p.steps)).reverse

theorem placeAlong_of_directory (hfront : directoryAlong root front = some directory)
    (name : String) :
    placeAlong root (front ++ [Step.into name]).reverse = directory ++ [name] := by
  rw [List.reverse_append, List.reverse_singleton, List.singleton_append, placeAlong,
    List.reverse_reverse, hfront]
  rfl

/-- The moves lead to a directory, where the next name is free; more names may follow. -/
structure FirstMissing (root : Tree) (moves : List Step) (directory : Location) (name : String)
    (rest : List String) : Prop where
  leads : ∃ front, moves = front ++ Step.into name :: rest.map Step.into ∧
    directoryAlong root front = some directory
  free : root.get? (directory ++ [name]) = none

theorem FirstMissing.placeAlong_eq (missing : FirstMissing root steps directory name rest) :
    placeAlong root steps.reverse = directory ++ name :: rest := by
  obtain ⟨⟨front, rfl, hfront⟩, free⟩ := missing
  induction rest using List.reverseRecOn with
  | nil => exact placeAlong_of_directory hfront name
  | append_singleton rest last ih =>
      have hnone := directoryAlong_eq_none hfront free (rest.map Step.into)
      rw [List.map_append, List.map_singleton, ← List.cons_append, ← List.append_assoc,
        List.reverse_append, List.reverse_singleton, List.singleton_append, placeAlong,
        List.reverse_reverse, hnone, Option.getD_none, ih, List.append_assoc]
      rfl

theorem FirstMissing.snoc (missing : FirstMissing root steps directory name rest)
    (last : String) :
    FirstMissing root (steps ++ [.into last]) directory name (rest ++ [last]) := by
  obtain ⟨⟨front, rfl, hfront⟩, free⟩ := missing
  exact ⟨⟨front, by simp, hfront⟩, free⟩

section Paths

variable {disk before after : Disk} {p : Path} {fresh : Location → Tree → Prop}

theorem placeOf_of_isAbsolute (absolute : p.isAbsolute = true) :
    disk.placeOf p = placeAlong disk.root (moving p.steps).reverse := by
  rw [placeOf, startSteps, if_pos absolute, List.nil_append]

theorem moving_concat (front : List Step) (name : String) :
    moving (front ++ [.into name]) = moving front ++ [.into name] :=
  Path.moving_append front [.into name]

theorem exists_directoryAlong (absolute : p.isAbsolute = true)
    (hsteps : p.trimmed.steps = front ++ [.into name])
    (h : disk.walkAlong followLast p = .ok spot) :
    ∃ directory children left, directoryAlong disk.root (moving front) = some directory ∧
      IsDirectoryAt disk.root directory children ∧
      walk disk.root followLast left directory [.into name] = .ok spot := by
  obtain ⟨-, leads⟩ := walkAlong_eq_ok_iff.mp h
  rw [startSteps, if_pos absolute, List.nil_append, hsteps] at leads
  obtain ⟨directory, children, left, hfront, hget, hlast⟩ := leads.exists_last
  have hmoves : moving (moving front) = moving front := by simp [moving]
  exact ⟨directory, children, left,
    directoryAlong_eq_some_iff.mpr ⟨hfront.of_moving hget hmoves, children, hget⟩, hget, hlast⟩

theorem exists_above_of_resolve (absolute : p.isAbsolute = true)
    (hlast : p.steps.getLast? = some (.into name)) (h : disk.resolve followLast p = .ok spot) :
    ∃ front directory children left, moving p.steps = front ++ [.into name] ∧
      directoryAlong disk.root front = some directory ∧
      IsDirectoryAt disk.root directory children ∧
      walk disk.root followLast left directory [.into name] = .ok spot := by
  have hslash := Path.not_endsWithSlash_of_last hlast
  obtain ⟨front, hsteps⟩ := List.getLast?_eq_some_iff.mp hlast
  rw [resolve_of_not_endsWithSlash hslash] at h
  have htrimmed := (congrArg Path.steps (Path.trimmed_of_not_endsWithSlash hslash)).trans hsteps
  obtain ⟨directory, children, left, hfront, hget, hwalk⟩ :=
    exists_directoryAlong absolute htrimmed h
  exact ⟨moving front, directory, children, left, by rw [hsteps, moving_concat], hfront, hget,
    hwalk⟩

theorem placeOf_of_directory (absolute : p.isAbsolute = true)
    (moves : moving p.steps = front ++ [.into name])
    (hfront : directoryAlong disk.root front = some directory) :
    disk.placeOf p = directory ++ [name] := by
  rw [placeOf_of_isAbsolute absolute, moves, placeAlong_of_directory hfront]

/-- What a path that ends with a name is found at is its place. -/
theorem placeOf_of_resolve (absolute : p.isAbsolute = true)
    (hlast : p.steps.getLast? = some (.into name))
    (h : disk.resolve false p = .ok (.found place)) : disk.placeOf p = place := by
  obtain ⟨front, directory, children, left, moves, hfront, hget, hwalk⟩ :=
    exists_above_of_resolve absolute hlast h
  rw [placeOf_of_directory absolute moves hfront]
  rcases eq_of_walk_last hget hwalk with hspot | hspot
  · exact (Spot.found.inj hspot).symm
  · cases hspot

theorem exists_stands_of_join (nonempty : p.text.isEmpty = false) (plain : PlainName name)
    (h : disk.resolve followLast (p.join name) = .ok spot) :
    ∃ directory children left, Stands disk p directory children ∧
      walk disk.root followLast left directory [.into name] = .ok spot := by
  rw [resolve_of_not_endsWithSlash (p.endsWithSlash_join plain)] at h
  obtain ⟨hspeak, leads⟩ := walkAlong_eq_ok_iff.mp h
  obtain ⟨n, hsteps⟩ := p.steps_join nonempty plain
  have hstart : disk.startSteps (p.join name) = disk.startSteps p := by
    rw [startSteps, startSteps, Path.isAbsolute_join nonempty plain]
  rw [hstart, hsteps, ← List.append_assoc, ← List.append_assoc] at leads
  obtain ⟨directory, children, left, hfirst, hget, hlast⟩ := leads.exists_last
  have hmoves : moving (disk.startSteps p ++ p.trimmed.steps) =
      moving (disk.startSteps p ++ p.trimmed.steps ++ List.replicate n .here) := by
    rw [Path.moving_append _ (List.replicate n .here)]
    simp [moving]
  refine ⟨directory, children, left,
    ⟨resolve_eq_found_iff.mpr ⟨?_, fun _ => ⟨_, hget⟩⟩, hget⟩, hlast⟩
  rw [Bool.true_or]
  exact walkAlong_eq_ok_iff.mpr ⟨hspeak.of_join plain nonempty, hfirst.of_moving hget hmoves⟩

theorem directoryAlong_of_grown (grown : Grown before after)
    (h : directoryAlong before.root steps = some directory) :
    directoryAlong after.root steps = some directory := by
  obtain ⟨leads, children, hget⟩ := directoryAlong_eq_some_iff.mp h
  exact directoryAlong_eq_some_iff.mpr
    ⟨leads.of_keptOn (fun _ _ => trivial) grown trivial fun _ _ => trivial,
      grown.directory trivial hget⟩

end Paths

end Disk

end DrawingDiary
