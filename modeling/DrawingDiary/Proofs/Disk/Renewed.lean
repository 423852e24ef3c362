import DrawingDiary.Proofs.Disk.Place

/-!
# A directory that was made anew

Removing a path with all below it and then making its directories leaves an empty directory
at the end of the path (`exists_stands_of_renewed`), as long as each `..` of the path comes
behind a directory that is left (`UpsLead`). After the removal the path leads to no directory
(`not_isDirectory_of_removeAll`), and what is made above it is empty, too, so that its last
name is still free then (`exists_makeDirectory_of_makeDirectoriesUpTo`). A path that goes up from
something that was missing before may lead to what was not removed.
-/

namespace DrawingDiary

namespace Disk

open DrawingDiary.Path (Step moving PlainName)

section Removed

variable {root : Tree} {links : Nat} {current place : Location} {steps : List Step}
  {disk before : Disk} {p : Path}

theorem Leads.exists_stays (leads : Leads root true links current steps (.found place))
    {here : Tree} (hhere : root.get? current = some here) :
    ∃ stays t, Leads root false links current steps (.found stays) ∧
      root.get? stays = some t := by
  generalize hspot : Spot.found place = spot at leads
  induction leads generalizing here with
  | stop => exact ⟨_, here, .stop, hhere⟩
  | here hget _ ih =>
      obtain ⟨stays, t, hleads, hstands⟩ := ih hhere hspot
      exact ⟨stays, t, .here hget hleads, hstands⟩
  | @up _ current _ _ _ hget _ ih =>
      obtain ⟨parent, hparent⟩ : ∃ parent, root.get? current.dropLast = some parent := by
        refine Option.ne_none_iff_exists'.mp fun hnone => ?_
        rw [IsDirectoryAt, Tree.get?_eq_none_of_prefix (List.dropLast_prefix _) hnone] at hget
        cases hget
      obtain ⟨stays, t, hleads, hstands⟩ := ih hparent hspot
      exact ⟨stays, t, .up hget hleads, hstands⟩
  | free => cases hspot
  | through hget hshort hchild hplain _ ih =>
      obtain ⟨stays, t, hleads, hstands⟩ := ih ((Tree.get?_snoc hget _).trans hchild) hspot
      exact ⟨stays, t, .through hget hshort hchild hplain hleads, hstands⟩
  | last _ _ _ _ hstays => cases hstays
  | @follow _ current _ _ _ target rest _ hget hshort hchild htarget _ hsome _ ih =>
      cases rest with
      | nil =>
          exact ⟨_, _, .last hget hshort hchild htarget rfl, (Tree.get?_snoc hget _).trans hchild⟩
      | cons step rest =>
          obtain ⟨start, hstart⟩ : ∃ start, root.get? (linkStart current target) = some start := by
            unfold linkStart
            split
            · exact ⟨root, Tree.get?_nil root⟩
            · exact ⟨_, hget⟩
          obtain ⟨stays, t, hleads, hstands⟩ := ih hstart hspot
          exact ⟨stays, t, .follow hget hshort hchild htarget (fun h => by cases h) hsome hleads,
            hstands⟩

/-- A walk whose last step is to a name does not end at the root of the disk, unless it
follows a link there. -/
theorem Leads.found_ne_nil {name : String}
    (leads : Leads root false links current steps (.found place))
    (hlast : steps.getLast? = some (.into name)) : place ≠ [] := by
  generalize hspot : Spot.found place = spot at leads
  induction leads with
  | stop => cases hlast
  | @here _ _ _ rest _ _ _ ih =>
      cases rest with
      | nil => cases hlast
      | cons step rest => exact ih (by rwa [List.getLast?_cons_cons] at hlast) hspot
  | @up _ _ _ rest _ _ _ ih =>
      cases rest with
      | nil => cases hlast
      | cons step rest => exact ih (by rwa [List.getLast?_cons_cons] at hlast) hspot
  | free => cases hspot
  | @through _ _ _ _ _ rest _ _ _ _ _ hrest ih =>
      cases rest with
      | nil =>
          cases hrest
          cases hspot
          simp
      | cons step rest => exact ih (by rwa [List.getLast?_cons_cons] at hlast) hspot
  | last =>
      cases hspot
      simp
  | @follow _ _ _ _ _ _ rest _ _ _ _ _ hgoes _ _ ih =>
      cases rest with
      | nil => exact absurd (hgoes rfl) (by decide)
      | cons step rest =>
          rw [List.getLast?_cons_cons] at hlast
          refine ih ?_ hspot
          rw [List.getLast?_append, hlast]
          rfl

theorem exists_stays_of_isDirectory (h : disk.isDirectory p = true) :
    (∃ stays, disk.walkAlong false p = .ok (.found stays)) ∧
      ∃ place t, disk.resolve false p = .ok (.found place) ∧ disk.at? place = some t := by
  obtain ⟨place, children, hresolve, hget⟩ := isDirectory_iff.mp h
  obtain ⟨hwalk, -⟩ := resolve_eq_found_iff.mp hresolve
  obtain ⟨hspeak, leads⟩ := walkAlong_eq_ok_iff.mp hwalk
  rw [Bool.true_or] at leads
  obtain ⟨stays, t, hstays, hstands⟩ := leads.exists_stays (Tree.get?_nil disk.root)
  have hwalkStays := walkAlong_eq_ok_iff.mpr ⟨hspeak, hstays⟩
  refine ⟨⟨stays, hwalkStays⟩, ?_⟩
  cases hslash : p.endsWithSlash with
  | false =>
      refine ⟨stays, t, ?_, hstands⟩
      rw [resolve_of_not_endsWithSlash hslash, hwalkStays]
  | true =>
      refine ⟨place, _, resolve_eq_found_iff.mpr ⟨?_, fun _ => ⟨children, hget⟩⟩, hget⟩
      rw [hslash]
      exact hwalk

theorem steps_ne_nil (p : Path) : p.steps ≠ [] := by
  rw [Path.steps, Ne, List.map_eq_nil_iff]
  exact Text.splitAll_ne_nil '/' _

theorem exists_last_of_removeEmptyDirectory {after : Disk}
    (h : before.removeEmptyDirectory p = .ok after) :
    ∃ name, p.trimmed.steps.getLast? = some (.into name) := by
  have hsteps := steps_ne_nil p.trimmed
  unfold removeEmptyDirectory at h
  rw [List.getLast?_eq_some_getLast hsteps] at h ⊢
  cases hlast : p.trimmed.steps.getLast hsteps with
  | here =>
      simp only [hlast] at h
      exact absurd h throw_ne_ok
  | up =>
      simp only [hlast] at h
      obtain ⟨spot, -, habsurd⟩ := bind_eq_ok_iff.mp h
      exact absurd habsurd throw_ne_ok
  | into name => exact ⟨name, rfl⟩

theorem not_isDirectory_of_removeEmptyDirectory
    (h : disk.removeEmptyDirectory p = .error .notFound) : disk.isDirectory p = false := by
  refine Bool.eq_false_iff.mpr fun hdirectory => ?_
  obtain ⟨⟨stays, hwalk⟩, place, t, hresolve, -⟩ := exists_stays_of_isDirectory hdirectory
  unfold removeEmptyDirectory at h
  split at h
  · cases h
  · rw [hresolve] at h
    cases h
  · rw [hwalk] at h
    simp only [bind, Except.bind] at h
    split at h <;> cases h

theorem grown_removeAll (before : Disk) (p : Path) : Grown (before.removeAll p).1 before := by
  unfold removeAll
  split
  · exact .refl before
  · exact .refl before
  · exact .refl before
  next place hresolve =>
    split
    next children hat =>
      have hemptied := grown_of_emptied hat
      simp only
      split
      next removed hremoved =>
        rw [(eq_of_emptied hresolve hat hremoved).2]
        exact (grown_of_removed _ place).trans hemptied
      · exact hemptied
      · exact hemptied
    · exact grown_of_removed before place

/-- When removing a path with all below it goes well, the path led to nothing, or what it led to
is gone, or in the end nothing is there to be removed as an empty directory. -/
theorem removeAll_cases (h : (before.removeAll p).2 = none) :
    (∀ place, before.resolve false p ≠ .ok (.found place)) ∨
      (∃ place, before.resolve false p = .ok (.found place) ∧
        (before.removeAll p).1.at? place = none) ∨
      (before.removeAll p).1.removeEmptyDirectory p = .error .notFound := by
  cases hresolve : before.resolve false p with
  | error e => exact .inl (by simp)
  | ok spot =>
      cases spot with
      | vacant parent name => exact .inl (by simp)
      | found place =>
          rw [removeAll, hresolve] at h ⊢
          simp only at h ⊢
          split at h
          next children hat =>
            split at h
            next removed hremoved =>
              obtain ⟨hwalk, hremovedEq⟩ := eq_of_emptied hresolve hat hremoved
              obtain ⟨hspeak, leads⟩ := walkAlong_eq_ok_iff.mp hwalk
              obtain ⟨name, hlast⟩ := exists_last_of_removeEmptyDirectory hremoved
              have hplace : place ≠ [] := by
                refine @Leads.found_ne_nil _ _ _ _ _ name leads ?_
                rw [List.getLast?_append, hlast]
                rfl
              rw [hremovedEq]
              exact .inr (.inl ⟨place, rfl, Tree.get?_setAt_none _ hplace⟩)
            next hnone => exact .inr (.inr hnone)
            · cases h
          next hat =>
            have hplace : place ≠ [] := by
              rintro rfl
              obtain ⟨hspeak, leads⟩ :=
                walkAlong_eq_ok_iff.mp (resolve_eq_found_iff.mp hresolve).1
              obtain ⟨step, rest, hsteps⟩ : ∃ step rest,
                  before.startSteps p ++ p.trimmed.steps = step :: rest :=
                List.exists_cons_of_ne_nil (by simp [steps_ne_nil])
              have hwalk := leads.walk_eq
              rw [hsteps] at hwalk
              obtain ⟨children, hget⟩ := exists_directory hwalk
              exact hat children hget
            exact .inr (.inl ⟨place, rfl, Tree.get?_setAt_none _ hplace⟩)

theorem removeAll_of_not_found (h : ∀ place, before.resolve false p ≠ .ok (.found place)) :
    (before.removeAll p).1 = before := by
  unfold removeAll
  split
  · rfl
  · rfl
  · rfl
  next place hresolve => exact absurd hresolve (h place)

/-- After a path was removed with all below it, it leads to no directory. -/
theorem not_isDirectory_of_removeAll (h : (before.removeAll p).2 = none) :
    (before.removeAll p).1.isDirectory p = false := by
  have shrunk := grown_removeAll before p
  refine Bool.eq_false_iff.mpr fun hdirectory => ?_
  obtain ⟨-, place, t, hresolve, hstands⟩ := exists_stays_of_isDirectory hdirectory
  have hbefore : before.resolve false p = .ok (.found place) :=
    (resolve_found_of_keptOn (fun _ _ => trivial) shrunk (fun _ _ => trivial) hresolve).1
  rcases removeAll_cases h with hnothing | ⟨gone, hfound, hgone⟩ | hnone
  · exact hnothing place hbefore
  · rw [hbefore] at hfound
    cases hfound
    rw [hgone] at hstands
    cases hstands
  · rw [not_isDirectory_of_removeEmptyDirectory hnone] at hdirectory
    cases hdirectory

end Removed

section Ups

variable {root : Tree} {front more steps : List Step} {directory : Location}
  {disk before after : Disk} {p : Path}

/-- What comes before each `..` leads to a directory. -/
def UpsLead (root : Tree) (steps : List Step) : Prop :=
  ∀ front more, steps = front ++ .up :: more → directoryAlong root front ≠ none

theorem UpsLead.of_append (ups : UpsLead root (steps ++ more)) : UpsLead root steps := by
  rintro front rest rfl
  exact ups front (rest ++ more) (by simp)

theorem UpsLead.of_grown (ups : UpsLead before.root steps) (grown : Grown before after) :
    UpsLead after.root steps := by
  intro front rest hsteps
  obtain ⟨directory, hfront⟩ := Option.ne_none_iff_exists'.mp (ups front rest hsteps)
  rw [directoryAlong_of_grown grown hfront]
  exact Option.some_ne_none _

theorem isDirectoryAt_of_prefix {above : Location} (h : above <+: directory)
    {children : List (String × Tree)} (hget : IsDirectoryAt root directory children) :
    ∃ others, IsDirectoryAt root above others := by
  obtain ⟨below, rfl⟩ := h
  cases below with
  | nil =>
      rw [List.append_nil] at hget
      exact ⟨children, hget⟩
  | cons name rest =>
      rw [IsDirectoryAt, Tree.get?_append] at hget
      obtain ⟨t, habove, hname⟩ := Option.bind_eq_some_iff.mp hget
      cases t with
      | directory others => exact ⟨others, habove⟩
      | file | link => cases hname

theorem exists_directoryAlong_of_append
    (h : directoryAlong root (front ++ more) = some directory) :
    ∃ between, directoryAlong root front = some between := by
  cases more with
  | nil =>
      rw [List.append_nil] at h
      exact ⟨directory, h⟩
  | cons step rest =>
      obtain ⟨leads, -⟩ := directoryAlong_eq_some_iff.mp h
      obtain ⟨between, left, hfirst, hrest⟩ := leads.split rfl (List.cons_ne_nil step rest)
      exact ⟨between, directoryAlong_eq_some_iff.mpr ⟨hfirst, exists_directory hrest.walk_eq⟩⟩

theorem upsLead_of_directoryAlong (h : directoryAlong root steps = some directory) :
    UpsLead root steps := by
  rintro front rest rfl
  obtain ⟨between, hfront⟩ := exists_directoryAlong_of_append h
  rw [hfront]
  exact Option.some_ne_none between

theorem UpsLead.concat_into (ups : UpsLead root steps) (name : String) :
    UpsLead root (steps ++ [.into name]) := by
  intro front rest hsteps
  rcases List.eq_nil_or_concat rest with rfl | ⟨between, last, rfl⟩
  · obtain ⟨-, hlast⟩ := List.append_inj' hsteps rfl
    cases hlast
  · rw [List.concat_eq_append, ← List.cons_append, ← List.append_assoc] at hsteps
    obtain ⟨rfl, -⟩ := List.append_inj' hsteps rfl
    exact ups front between rfl

theorem directoryAlong_up (hfront : directoryAlong root front = some directory) :
    directoryAlong root (front ++ [.up]) = some directory.dropLast := by
  obtain ⟨leads, children, hget⟩ := directoryAlong_eq_some_iff.mp hfront
  obtain ⟨left, hwalk⟩ : ∃ left, walk root true linkLimit [] (front ++ [.up]) =
      walk root true left directory [.up] := leads.walk_append (List.cons_ne_nil _ _)
  rw [walk_up hget, walk_nil] at hwalk
  exact directoryAlong_eq_some_iff.mpr
    ⟨walk_eq_ok_iff.mp hwalk, isDirectoryAt_of_prefix (List.dropLast_prefix directory) hget⟩

theorem isDirectory_of_directoryAlong (absolute : p.isAbsolute = true) (speakable : Speakable p)
    (h : directoryAlong disk.root (moving p.trimmed.steps) = some directory) :
    disk.isDirectory p = true := by
  obtain ⟨leads, children, hget⟩ := directoryAlong_eq_some_iff.mp h
  have hmoves : moving p.trimmed.steps = moving (moving p.trimmed.steps) := by simp [moving]
  refine isDirectory_iff.mpr ⟨directory, children, resolve_eq_found_iff.mpr
    ⟨walkAlong_eq_ok_iff.mpr ⟨speakable, ?_⟩, fun _ => ⟨children, hget⟩⟩, hget⟩
  rw [Bool.true_or, startSteps, if_pos absolute, List.nil_append]
  exact leads.of_moving hget hmoves

/-- A path that can be walked along at all leads to a directory if it goes up from one in the
end. -/
theorem isDirectory_of_up (absolute : p.isAbsolute = true) (speakable : Speakable p)
    (moves : moving p.trimmed.steps = front ++ [.up]) (ups : UpsLead disk.root (front ++ [.up])) :
    disk.isDirectory p = true := by
  obtain ⟨directory, hfront⟩ := Option.ne_none_iff_exists'.mp (ups front [] rfl)
  exact isDirectory_of_directoryAlong absolute speakable (moves ▸ directoryAlong_up hfront)

theorem speakable_of_makeDirectory (nonempty : p.text.isEmpty = false)
    (h : disk.makeDirectory p = .error .notFound ∨ disk.makeDirectory p = .ok after) :
    Speakable p := by
  have hzero : ¬ p.text.contains '\x00' = true := by
    intro hzero
    rw [makeDirectory, walkAlong, if_pos hzero] at h
    rcases h with h | h <;> cases h
  have hshort : ¬ pathLimit ≤ p.text.utf8ByteSize := by
    intro hlong
    rw [makeDirectory, walkAlong, if_neg hzero, if_neg (by simp [nonempty]), if_pos hlong] at h
    rcases h with h | h <;> cases h
  exact ⟨by simpa using hzero, nonempty, Nat.lt_of_not_le hshort⟩

theorem exists_into_of_makeDirectory (absolute : p.isAbsolute = true) {last : Step}
    (hlast : last ≠ .here) (moves : moving p.trimmed.steps = front ++ [last])
    (ups : UpsLead disk.root (moving p.trimmed.steps))
    (h : disk.makeDirectory p = .error .notFound ∨ disk.makeDirectory p = .ok after) :
    ∃ name, last = .into name := by
  cases last with
  | here => exact absurd rfl hlast
  | into name => exact ⟨name, rfl⟩
  | up =>
      have speakable := speakable_of_makeDirectory (Path.nonempty_of_isAbsolute absolute) h
      have hdirectory := isDirectory_of_up absolute speakable moves (moves ▸ ups)
      obtain ⟨⟨stays, hwalk⟩, -⟩ := exists_stays_of_isDirectory hdirectory
      rw [makeDirectory, hwalk] at h
      rcases h with h | h <;> cases h

end Ups

section Made

variable {before disk : Disk} {p parent : Path} {place : Location} {name : String}

theorem makeDirectoriesUpTo_of_isDirectory (h : before.isDirectory p = true) (above : Nat) :
    makeDirectoriesUpTo above before p = (before, none) := by
  obtain ⟨⟨stays, hwalk⟩, -⟩ := exists_stays_of_isDirectory h
  have hmade : before.makeDirectory p = .error .alreadyExists := by
    rw [makeDirectory, hwalk]
    rfl
  cases above <;> simp [makeDirectoriesUpTo, hmade, settleDirectory, h]

theorem makeDirectories_of_found (h : before.walkAlong false p = .ok (.found place)) :
    (before.makeDirectories p).1 = before := by
  have hmade : before.makeDirectory p = .error .alreadyExists := by
    rw [makeDirectory, h]
    rfl
  unfold makeDirectories
  split
  · rfl
  · cases p.steps.length <;> simp [makeDirectoriesUpTo, hmade, settleDirectory]

theorem makeDirectory_of_settleDirectory (hnew : before.isDirectory p = false)
    (h : (before.settleDirectory p (before.makeDirectory p)).2 = none) :
    before.makeDirectory p = .ok (before.settleDirectory p (before.makeDirectory p)).1 := by
  cases hmade : before.makeDirectory p with
  | ok made => rfl
  | error e =>
      rw [hmade] at h
      simp [settleDirectory, hnew] at h

theorem exists_stands_of_makeDirectory (h : before.makeDirectory p = .ok disk) :
    ∃ place, Stands disk p place [] := by
  obtain ⟨place, hresolve, hget⟩ := resolve_of_makeDirectory h
  exact ⟨place, hresolve, hget⟩

theorem not_isDirectory_of_parent (absolute : p.isAbsolute = true)
    (parentAbsolute : parent.isAbsolute = true)
    (moves : moving p.trimmed.steps = moving parent.trimmed.steps ++ [.into name])
    (stands : Stands disk parent place []) : disk.isDirectory p = false := by
  refine Bool.eq_false_iff.mpr fun h => ?_
  obtain ⟨other, children, hresolve, hget⟩ := isDirectory_iff.mp h
  obtain ⟨-, leads⟩ := walkAlong_eq_ok_iff.mp (resolve_eq_found_iff.mp hresolve).1
  obtain ⟨-, leadsParent⟩ :=
    walkAlong_eq_ok_iff.mp (resolve_eq_found_iff.mp stands.resolve_eq).1
  rw [Bool.true_or, startSteps, if_pos absolute, List.nil_append] at leads
  rw [Bool.true_or, startSteps, if_pos parentAbsolute, List.nil_append] at leadsParent
  have hmoves : moving (parent.trimmed.steps ++ [.into name]) = moving p.trimmed.steps := by
    rw [moves, Path.moving_append]
    rfl
  have hwalk := (leads.of_moving hget hmoves).walk_eq
  have hmore : [Step.into name] ≠ [] := List.cons_ne_nil _ _
  obtain ⟨left, heq⟩ := @Leads.walk_append _ true _ _ _ _ leadsParent _ hmore
  rw [heq] at hwalk
  obtain ⟨-, ⟨-, hspot⟩ | ⟨⟨child, hchild⟩, -⟩ | ⟨-, target, hlink⟩⟩ :=
    cases_of_walk_last stands.directory hwalk
  · cases hspot
  · cases hchild
  · cases hlink

theorem exists_name_of_parent? (absolute : p.isAbsolute = true)
    (ups : UpsLead before.root (moving p.trimmed.steps))
    (hmissing : before.makeDirectory p = .error .notFound) (h : p.parent? = some parent) :
    parent.isAbsolute = true ∧ UpsLead before.root (moving parent.trimmed.steps) ∧
      ∃ name, moving p.trimmed.steps = moving parent.trimmed.steps ++ [.into name] := by
  obtain ⟨parentAbsolute, last, hlast, moves⟩ := Path.exists_move_of_parent? absolute h
  have hmissing' :
      before.makeDirectory p = .error .notFound ∨ before.makeDirectory p = .ok before :=
    .inl hmissing
  obtain ⟨name, rfl⟩ := exists_into_of_makeDirectory absolute hlast moves ups hmissing'
  exact ⟨parentAbsolute, (moves ▸ ups).of_append, name, moves⟩

theorem makeDirectoriesUpTo_of_notFound {above : Nat} {between : Disk}
    (hmissing : before.makeDirectory p = .error .notFound) (hparent : p.parent? = some parent)
    (hupper : makeDirectoriesUpTo above before parent = (between, none)) :
    makeDirectoriesUpTo (above + 1) before p =
      between.settleDirectory p (between.makeDirectory p) := by
  rw [makeDirectoriesUpTo, hmissing, hparent]
  simp only [hupper]

/-- Where no directory was, the last one of a path is made in the end. -/
theorem exists_makeDirectory_of_makeDirectoriesUpTo (absolute : p.isAbsolute = true)
    (ups : UpsLead before.root (moving p.trimmed.steps)) (hnew : before.isDirectory p = false)
    {above : Nat} (h : (makeDirectoriesUpTo above before p).2 = none) :
    ∃ disk : Disk, disk.makeDirectory p = .ok (makeDirectoriesUpTo above before p).1 := by
  induction above generalizing p with
  | zero => exact ⟨before, makeDirectory_of_settleDirectory hnew h⟩
  | succ above ih =>
      unfold makeDirectoriesUpTo at h ⊢
      split at h
      · cases h
      next parent hmissing hparent =>
        obtain ⟨parentAbsolute, upsParent, name, moves⟩ :=
          exists_name_of_parent? absolute ups hmissing hparent
        split at h
        next disk hdisk =>
          refine ⟨disk, makeDirectory_of_settleDirectory ?_ h⟩
          cases hthere : before.isDirectory parent with
          | true =>
              rw [makeDirectoriesUpTo_of_isDirectory hthere] at hdisk
              cases hdisk
              exact hnew
          | false =>
              obtain ⟨upper, hupper⟩ := ih parentAbsolute upsParent hthere (by rw [hdisk])
              obtain ⟨place, stands⟩ := exists_stands_of_makeDirectory hupper
              rw [hdisk] at stands
              exact not_isDirectory_of_parent absolute parentAbsolute moves stands
        · cases h
      · exact ⟨before, makeDirectory_of_settleDirectory hnew h⟩

theorem exists_makeDirectory_of_makeDirectories (absolute : p.isAbsolute = true)
    (ups : UpsLead before.root (moving p.steps)) (hnew : before.isDirectory p = false)
    (h : (before.makeDirectories p).2 = none) :
    ∃ disk : Disk, disk.makeDirectory p = .ok (before.makeDirectories p).1 := by
  rw [← Path.moving_trimmed_steps] at ups
  unfold makeDirectories at h ⊢
  rw [Path.nonempty_of_isAbsolute absolute] at h ⊢
  exact exists_makeDirectory_of_makeDirectoriesUpTo absolute ups hnew h

/-- A path that was removed and then made leads to an empty directory. -/
theorem exists_stands_of_renewed (absolute : p.isAbsolute = true)
    (ups : UpsLead (before.removeAll p).1.root (moving p.steps))
    (hremoved : (before.removeAll p).2 = none)
    (hmade : ((before.removeAll p).1.makeDirectories p).2 = none) :
    ∃ place, Stands ((before.removeAll p).1.makeDirectories p).1 p place [] := by
  obtain ⟨disk, hlast⟩ := exists_makeDirectory_of_makeDirectories absolute ups
    (not_isDirectory_of_removeAll hremoved) hmade
  exact exists_stands_of_makeDirectory hlast

theorem at?_placeOf_of_makeDirectory (absolute : p.isAbsolute = true)
    (hlast : p.steps.getLast? = some (.into name)) (h : before.makeDirectory p = .ok disk) :
    disk.at? (disk.placeOf p) = some (.directory []) := by
  have grown := grown_of_makeDirectory h
  obtain ⟨parent, last, hwalk, rfl⟩ := makeDirectory_eq_ok_iff.mp h
  rw [← resolve_of_not_endsWithSlash (Path.not_endsWithSlash_of_last hlast)] at hwalk
  obtain ⟨front, directory, children, left, moves, hfront, hget, hlastWalk⟩ :=
    exists_above_of_resolve absolute hlast hwalk
  rw [placeOf_of_directory absolute moves (directoryAlong_of_grown grown hfront)]
  rcases eq_of_walk_last hget hlastWalk with hspot | hspot
  · cases hspot
  · cases hspot
    exact Tree.get?_setAt_snoc hget name _

end Made

end Disk

end DrawingDiary
