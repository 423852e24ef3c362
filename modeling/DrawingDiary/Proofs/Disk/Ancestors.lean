import DrawingDiary.Proofs.Disk.Renewed

/-!
# Directories made on the way to a path

Making a directory with those above it that are missing adds nothing but directories, each of
them on the way to the place of the path (`makeDirectoriesUpTo_cases`): the first missing one
under a name that was free in a directory, and then one below the other. For a path that was
removed before, this place is at or below the place that it had (`renewed_cases`): it is a
different one only if the way to the path came by what was removed.
-/

namespace DrawingDiary

namespace Path

variable {p parent : Path}

/-- The path is that of the root, or it ends with a move. -/
def EndsMoved (p : Path) : Prop :=
  moving p.trimmed.steps = [] ∨ ∃ front last, p.trimmed.steps = front ++ [last] ∧ last ≠ .here

theorem endsMoved_of_last {name : String} (h : p.steps.getLast? = some (.into name)) :
    p.EndsMoved := by
  rw [EndsMoved, trimmed_of_not_endsWithSlash (not_endsWithSlash_of_last h)]
  obtain ⟨front, hsteps⟩ := List.getLast?_eq_some_iff.mp h
  exact .inr ⟨front, .into name, hsteps, by simp⟩

theorem endsMoved_of_parent? (absolute : p.isAbsolute = true) (h : p.parent? = some parent) :
    parent.EndsMoved := by
  obtain ⟨above, _, -, hone, rfl⟩ := exists_moves_of_parent? absolute h
  rcases List.eq_nil_or_concat above with rfl | ⟨first, last, rfl⟩
  · exact .inl (by decide)
  · rw [List.concat_eq_append] at hone ⊢
    obtain ⟨habove, -⟩ := List.forall_mem_append.mp hone
    obtain ⟨hfirst, -⟩ := List.forall_mem_append.mp habove
    obtain ⟨hmoves, one⟩ := hone last (by simp)
    obtain ⟨habsolute, -⟩ :=
      moving_foldl_join hfirst (by decide : (Path.mk "/").text.isEmpty = false)
    obtain ⟨n, hsteps⟩ := one.steps_join (nonempty_of_isAbsolute (habsolute.trans (by decide)))
    rw [← List.append_assoc] at hsteps
    rw [List.foldl_append]
    exact .inr ⟨_, last, hsteps, hmoves⟩

end Path

namespace Disk

open DrawingDiary.Path (Step PlainName moving)

variable {before after disk : Disk} {p parent : Path} {place directory : Location}
  {children : List (String × Tree)} {name last : String} {rest : List String}

theorem Stands.directoryAlong_eq (stands : Stands disk p place children)
    (absolute : p.isAbsolute = true) :
    directoryAlong disk.root (moving p.trimmed.steps) = some place := by
  obtain ⟨-, leads⟩ := walkAlong_eq_ok_iff.mp (resolve_eq_found_iff.mp stands.resolve_eq).1
  rw [Bool.true_or, startSteps, if_pos absolute, List.nil_append] at leads
  have hmoves : moving (moving p.trimmed.steps) = moving p.trimmed.steps := by simp [moving]
  exact directoryAlong_eq_some_iff.mpr
    ⟨leads.of_moving stands.directory hmoves, children, stands.directory⟩

theorem Leads.eq_found_of_still {root : Tree} {followLast : Bool} {links : Nat}
    {current : Location} {steps : List Step} {spot : Spot}
    (leads : Leads root followLast links current steps spot) (still : moving steps = []) :
    spot = .found current := by
  induction leads with
  | stop => rfl
  | here _ _ ih => exact ih still
  | up | free | through | last | follow => simp [moving] at still

/-- A directory on the way to a place. -/
def DirectoryOnWay (goal place : Location) (t : Tree) : Prop :=
  t = .directory [] ∧ place <+: goal

/-- The first missing directory of a path was made and perhaps some below it; when nothing
failed the path leads to the last one. -/
structure MakesWay (before : Disk) (p : Path) (made : Disk × Option DiskError)
    (directory : Location) (name : String) (rest : List String) : Prop where
  missing : FirstMissing before.root (moving p.trimmed.steps) directory name rest
  adds : Adds (DirectoryOnWay (directory ++ name :: rest)) before made.1
  stands : made.2 = none → Stands made.1 p (directory ++ name :: rest) []

theorem makesWay_of_makeDirectory (absolute : p.isAbsolute = true) (ends : p.EndsMoved)
    (ups : UpsLead before.root (moving p.trimmed.steps))
    (h : before.makeDirectory p = .ok after) :
    ∃ directory name, MakesWay before p (after, none) directory name [] := by
  obtain ⟨parent, name, hwalk, rfl⟩ := makeDirectory_eq_ok_iff.mp h
  rcases ends with hnone | ⟨front, last, hsteps, hlast⟩
  · obtain ⟨-, leads⟩ := walkAlong_eq_ok_iff.mp hwalk
    rw [startSteps, if_pos absolute, List.nil_append] at leads
    cases leads.eq_found_of_still hnone
  · have moves : moving p.trimmed.steps = moving front ++ [last] := by
      rw [hsteps, Path.moving_append]
      simp [moving, hlast]
    obtain ⟨last, rfl⟩ := exists_into_of_makeDirectory absolute hlast moves ups (.inr h)
    obtain ⟨directory, children, left, hfront, hget, hwalkLast⟩ :=
      exists_directoryAlong absolute hsteps hwalk
    rcases eq_of_walk_last hget hwalkLast with hspot | hspot
    · cases hspot
    · cases hspot
      have free := at?_vacant hwalk
      have hput : Adds (fun place t => place = parent ++ [name] ∧ t = .directory []) before
          (before.setAt (parent ++ [name]) (some (.directory []))) :=
        adds_put hget ((Tree.get?_snoc hget name).symm.trans free) rfl rfl rfl
      refine ⟨parent, name, ⟨⟨moving front, moves, hfront⟩, free⟩, ?_, fun _ => ?_⟩
      · refine hput.mono (fun _ h => h) fun place t _ hnew => ?_
        exact ⟨hnew.2, hnew.1 ▸ List.prefix_refl _⟩
      · obtain ⟨hresolve, hempty⟩ := resolve_of_vacant hwalk
        exact ⟨hresolve, hempty⟩

theorem settleDirectory_cases (absolute : p.isAbsolute = true) (ends : p.EndsMoved)
    (ups : UpsLead before.root (moving p.trimmed.steps)) :
    (before.settleDirectory p (before.makeDirectory p)).1 = before ∨ ∃ directory name rest,
      MakesWay before p (before.settleDirectory p (before.makeDirectory p)) directory name
        rest := by
  cases hmade : before.makeDirectory p with
  | error e => exact .inl rfl
  | ok made =>
      obtain ⟨directory, name, way⟩ := makesWay_of_makeDirectory absolute ends ups hmade
      exact .inr ⟨directory, name, [], way⟩

/-- What is made when the parent of a path is there is the last directory of the path. -/
theorem Stands.makeDirectory_last (stands : Stands disk parent place children)
    (absolute : p.isAbsolute = true) (parentAbsolute : parent.isAbsolute = true)
    (ends : p.EndsMoved) (ups : UpsLead disk.root (moving p.trimmed.steps))
    (moves : moving p.trimmed.steps = moving parent.trimmed.steps ++ [.into last])
    (h : disk.makeDirectory p = .ok after) :
    Adds (DirectoryOnWay (place ++ [last])) disk after ∧ Stands after p (place ++ [last]) [] := by
  obtain ⟨directory, name, missing, adds, hstands⟩ :=
    makesWay_of_makeDirectory absolute ends ups h
  obtain ⟨front, hmoves, hfront⟩ := missing.leads
  rw [moves] at hmoves
  obtain ⟨rfl, hlast⟩ := List.append_inj' hmoves rfl
  cases hlast
  rw [stands.directoryAlong_eq parentAbsolute] at hfront
  cases hfront
  exact ⟨adds, hstands rfl⟩

section Parent

variable {failure : Option DiskError}
  (moves : moving p.trimmed.steps = moving parent.trimmed.steps ++ [.into last])

include moves

theorem MakesWay.snoc (way : MakesWay before parent (disk, failure) directory name rest) :
    FirstMissing before.root (moving p.trimmed.steps) directory name (rest ++ [last]) ∧
      Adds (DirectoryOnWay (directory ++ name :: (rest ++ [last]))) before disk := by
  rw [moves]
  refine ⟨way.missing.snoc last, way.adds.mono (fun _ h => h) fun place t _ h => ⟨h.1, ?_⟩⟩
  refine h.2.trans ⟨[last], ?_⟩
  rw [List.append_assoc, List.cons_append]

theorem MakesWay.settle (way : MakesWay before parent (disk, none) directory name rest)
    (absolute : p.isAbsolute = true) (parentAbsolute : parent.isAbsolute = true)
    (ends : p.EndsMoved) (ups : UpsLead before.root (moving p.trimmed.steps)) :
    MakesWay before p (disk.settleDirectory p (disk.makeDirectory p)) directory name
      (rest ++ [last]) := by
  have stands := way.stands rfl
  obtain ⟨missing, wider⟩ := way.snoc moves
  cases hmade : disk.makeDirectory p with
  | error e =>
      refine ⟨missing, wider, fun hnone => ?_⟩
      have hnew := not_isDirectory_of_parent absolute parentAbsolute moves stands
      simp [settleDirectory, hnew] at hnone
  | ok made =>
      obtain ⟨adds, standsMade⟩ := stands.makeDirectory_last absolute parentAbsolute ends
        (ups.of_grown way.adds.toKeptOn) moves hmade
      rw [List.append_assoc, List.cons_append] at adds standsMade
      exact ⟨missing, wider.trans adds, fun _ => standsMade⟩

end Parent

/-- Making a directory with those above it makes nothing, or the missing ones in order. -/
theorem makeDirectoriesUpTo_cases (absolute : p.isAbsolute = true)
    (ups : UpsLead before.root (moving p.trimmed.steps)) (ends : p.EndsMoved) (above : Nat) :
    (makeDirectoriesUpTo above before p).1 = before ∨ ∃ directory name rest,
      MakesWay before p (makeDirectoriesUpTo above before p) directory name rest := by
  induction above generalizing p with
  | zero => exact settleDirectory_cases absolute ends ups
  | succ above ih =>
      unfold makeDirectoriesUpTo
      split
      · exact .inl rfl
      next parent hmissing hparent =>
        obtain ⟨parentAbsolute, upsParent, last, moves⟩ :=
          exists_name_of_parent? absolute ups hmissing hparent
        have hupper := ih parentAbsolute upsParent (Path.endsMoved_of_parent? absolute hparent)
        split
        next disk hdisk =>
          rw [hdisk] at hupper
          rcases hupper with rfl | ⟨directory, name, rest, way⟩
          · -- the parent is there already, so the path failed for another reason
            rw [hmissing]
            exact .inl rfl
          · exact .inr ⟨directory, name, rest ++ [last],
              way.settle moves absolute parentAbsolute ends ups⟩
        next disk e hdisk =>
          rw [hdisk] at hupper
          rcases hupper with hsame | ⟨directory, name, rest, way⟩
          · exact .inl hsame
          · obtain ⟨missing, wider⟩ := way.snoc moves
            exact .inr ⟨directory, name, rest ++ [last], missing, wider, fun habsurd => by
              cases habsurd⟩
      · exact settleDirectory_cases absolute ends ups

theorem makeDirectories_cases (before : Disk) (absolute : p.isAbsolute = true)
    (ups : UpsLead before.root (moving p.steps))
    (hlast : p.steps.getLast? = some (.into last)) :
    (before.makeDirectories p).1 = before ∨ ∃ directory name rest,
      MakesWay before p (before.makeDirectories p) directory name rest := by
  rw [← Path.moving_trimmed_steps] at ups
  rw [makeDirectories, Path.nonempty_of_isAbsolute absolute]
  exact makeDirectoriesUpTo_cases absolute ups (Path.endsMoved_of_last hlast) _

section Ways

/-- The directories that the path comes by on the disk. -/
def OnWay (disk : Disk) (p : Path) (place : Location) : Prop :=
  ∃ front more, moving p.trimmed.steps = front ++ more ∧
    directoryAlong disk.root front = some place

theorem OnWay.of_grown (way : OnWay before p place) (grown : Grown before after) :
    OnWay after p place := by
  obtain ⟨front, more, moves, hfront⟩ := way
  exact ⟨front, more, moves, directoryAlong_of_grown grown hfront⟩

theorem adds_of_makeDirectory (absolute : p.isAbsolute = true)
    (h : before.makeDirectory p = .ok after) :
    Adds (fun place t => t = .directory [] ∧ OnWay after p place) before after := by
  obtain ⟨parent, name, hwalk, rfl⟩ := makeDirectory_eq_ok_iff.mp h
  obtain ⟨children, hget, -, free⟩ := (walkAlong_eq_ok_iff.mp hwalk).2.vacant
  obtain ⟨hresolve, hempty⟩ := resolve_of_vacant hwalk
  have hfront := Stands.directoryAlong_eq ⟨hresolve, hempty⟩ absolute
  have put : Adds (fun place t => place = parent ++ [name] ∧ t = .directory []) before
      (before.setAt (parent ++ [name]) (some (.directory []))) := adds_put hget free rfl rfl rfl
  refine put.mono (fun _ h => h) ?_
  rintro _ _ - ⟨rfl, rfl⟩
  exact ⟨rfl, _, [], (List.append_nil _).symm, hfront⟩

theorem adds_settleDirectory (before : Disk) (absolute : p.isAbsolute = true) :
    Adds (fun place t => t = .directory [] ∧
        OnWay (before.settleDirectory p (before.makeDirectory p)).1 p place)
      before (before.settleDirectory p (before.makeDirectory p)).1 := by
  cases hmade : before.makeDirectory p with
  | error e => exact .refl before
  | ok made => exact adds_of_makeDirectory absolute hmade

theorem adds_makeDirectoriesUpTo (before : Disk) (absolute : p.isAbsolute = true) (above : Nat) :
    Adds (fun place t => t = .directory [] ∧ OnWay (makeDirectoriesUpTo above before p).1 p place)
      before (makeDirectoriesUpTo above before p).1 := by
  induction above generalizing p with
  | zero => exact adds_settleDirectory before absolute
  | succ above ih =>
      unfold makeDirectoriesUpTo
      split
      · exact .refl before
      next parent hmissing hparent =>
        obtain ⟨parentAbsolute, last, -, moves⟩ := Path.exists_move_of_parent? absolute hparent
        have hupper := ih parentAbsolute
        have onward {disk later : Disk} (grown : Grown disk later) (place : Location)
            (way : OnWay disk parent place) : OnWay later p place := by
          obtain ⟨front, more, hfront, hplace⟩ := way.of_grown grown
          exact ⟨front, more ++ [last], by rw [moves, hfront, List.append_assoc], hplace⟩
        split
        next disk hdisk =>
          rw [hdisk] at hupper
          have settled := adds_settleDirectory disk absolute
          have grown := settled.toKeptOn
          exact (hupper.mono (fun _ h => h) fun place t _ h => ⟨h.1, onward grown place h.2⟩).trans
            settled
        next disk e hdisk =>
          rw [hdisk] at hupper
          exact hupper.mono (fun _ h => h) fun place t _ h => ⟨h.1, onward (.refl _) place h.2⟩
      · exact adds_settleDirectory before absolute

theorem adds_makeDirectories (before : Disk) (absolute : p.isAbsolute = true) :
    Adds (fun place t => t = .directory [] ∧ OnWay (before.makeDirectories p).1 p place)
      before (before.makeDirectories p).1 := by
  rw [makeDirectories, Path.nonempty_of_isAbsolute absolute]
  exact adds_makeDirectoriesUpTo before absolute _

/-- A path to a directory that ends with a name leads to its own place, unless it ends at a
link. -/
theorem exists_stands_placeOf (absolute : p.isAbsolute = true)
    (hlast : p.steps.getLast? = some (.into last)) (h : disk.isDirectory p = true)
    (unlinked : ∀ target, disk.at? (disk.placeOf p) ≠ some (.link target)) :
    ∃ children, Stands disk p (disk.placeOf p) children := by
  obtain ⟨place, children, hresolve, hget⟩ := isDirectory_iff.mp h
  obtain ⟨front, directory, others, left, moves, hfront, hgetFront, hwalk⟩ :=
    exists_above_of_resolve absolute hlast hresolve
  have hplace := placeOf_of_directory absolute moves hfront
  rw [hplace, at?, Tree.get?_snoc hgetFront] at unlinked
  rw [hplace]
  obtain ⟨-, ⟨-, hspot⟩ | ⟨-, hspot⟩ | ⟨-, target, hlink⟩⟩ := cases_of_walk_last hgetFront hwalk
  · cases hspot
  · cases hspot
    exact ⟨children, hresolve, hget⟩
  · exact absurd hlink (unlinked target)

end Ways

section Names

/-- A free name that a walk gets to is one that it was asked for, by its steps or by a link. -/
theorem Leads.plainName_of_vacant {root : Tree} {followLast : Bool} {links : Nat}
    {current parent : Location} {steps : List Step}
    (leads : Leads root followLast links current steps (.vacant parent name))
    (plain : ∀ name, .into name ∈ steps → PlainName name) : PlainName name := by
  generalize hspot : Spot.vacant parent name = spot at leads
  induction leads with
  | stop => cases hspot
  | last => cases hspot
  | here _ _ ih | up _ _ ih | through _ _ _ _ _ ih =>
      exact ih (fun name hname => plain name (List.mem_cons_of_mem _ hname)) hspot
  | free =>
      cases hspot
      exact plain _ List.mem_cons_self
  | follow _ _ _ _ _ _ _ ih =>
      refine ih (fun name hname => ?_) hspot
      rcases List.mem_append.mp hname with htarget | hrest
      · exact Path.plainName_of_mem_steps htarget
      · exact plain name (List.mem_cons_of_mem _ hrest)

theorem WellNamed.makeDirectory (wellNamed : before.WellNamed)
    (h : before.makeDirectory p = .ok after) : after.WellNamed := by
  obtain ⟨parent, name, hwalk, rfl⟩ := makeDirectory_eq_ok_iff.mp h
  obtain ⟨-, leads⟩ := walkAlong_eq_ok_iff.mp hwalk
  obtain ⟨children, hget, -, free⟩ := leads.vacant
  have plain : PlainName name := by
    refine leads.plainName_of_vacant fun name hname => ?_
    rcases List.mem_append.mp hname with hstart | hstep
    · unfold startSteps at hstart
      split at hstart
      · cases hstart
      · exact Path.plainName_of_mem_steps hstart
    · exact Path.plainName_of_mem_steps hstep
  have put : Adds (fun place t => place = parent ++ [name] ∧ t = .directory []) before
      (before.setAt (parent ++ [name]) (some (.directory []))) := adds_put hget free rfl rfl rfl
  refine put.wellNamed ?_ wellNamed
  rintro _ _ ⟨rfl, -⟩
  exact List.forall_mem_append.mpr ⟨wellNamed _ _ hget, List.forall_mem_singleton.mpr plain⟩

theorem WellNamed.settleDirectory (wellNamed : before.WellNamed) :
    (before.settleDirectory p (before.makeDirectory p)).1.WellNamed := by
  cases hmade : before.makeDirectory p with
  | error e => exact wellNamed
  | ok made => exact wellNamed.makeDirectory hmade

theorem WellNamed.makeDirectoriesUpTo (wellNamed : before.WellNamed) (above : Nat) :
    (makeDirectoriesUpTo above before p).1.WellNamed := by
  induction above generalizing p with
  | zero => exact wellNamed.settleDirectory
  | succ above ih =>
      unfold Disk.makeDirectoriesUpTo
      split
      · exact wellNamed
      next parent _ _ =>
        have hupper := ih (p := parent)
        split
        next disk hdisk =>
          rw [hdisk] at hupper
          exact hupper.settleDirectory
        next disk e hdisk =>
          rw [hdisk] at hupper
          exact hupper
      · exact wellNamed.settleDirectory

theorem WellNamed.makeDirectories (wellNamed : before.WellNamed) (p : Path) :
    (before.makeDirectories p).1.WellNamed := by
  unfold Disk.makeDirectories
  split
  · exact wellNamed
  · exact wellNamed.makeDirectoriesUpTo _

end Names

section Renewed

/-- What is missing after a path was removed is at or below the place of the path. -/
theorem placeOf_prefix_of_firstMissing (absolute : p.isAbsolute = true)
    (hlast : p.steps.getLast? = some (.into last))
    (missing : FirstMissing (before.removeAll p).1.root (moving p.steps) directory name rest) :
    before.placeOf p <+: directory ++ name :: rest := by
  obtain ⟨⟨front, hmoves, hfront⟩, free⟩ := missing
  have hfront' := directoryAlong_of_grown (grown_removeAll before p) hfront
  cases hstood : before.at? (directory ++ [name]) with
  | none =>
      have missing' : FirstMissing before.root (moving p.steps) directory name rest :=
        ⟨⟨front, hmoves, hfront'⟩, hstood⟩
      have hplace : before.placeOf p = directory ++ name :: rest := by
        rw [placeOf_of_isAbsolute absolute, missing'.placeAlong_eq]
      exact hplace ▸ List.prefix_rfl
  | some t =>
      -- what stood there was removed, so it was at or below what the path was found at
      by_contra hbeside
      have hkept : KeptOn (· = directory ++ [name]) before (before.removeAll p).1 := by
        refine keptOn_removeAll ?_
        rintro place hplace other rfl hbelow
        rw [placeOf_of_resolve absolute hlast hplace] at hbeside
        refine hbeside (hbelow.trans ⟨rest, ?_⟩)
        rw [List.append_assoc]
        rfl
      obtain ⟨t', hstands, -⟩ := hkept.stands rfl hstood
      rw [at?, free] at hstands
      cases hstands

/-- The path was removed with all below it, and then the missing directories on the way to it
were made, all or some: they are on the way to a place at or below the place of the path. -/
structure RenewedAt (before : Disk) (p : Path) (made : Disk × Option DiskError)
    (place : Location) : Prop where
  below : before.placeOf p <+: place
  adds : Adds (DirectoryOnWay place) (before.removeAll p).1 made.1
  stands : made.2 = none → Stands made.1 p place []

theorem renewed_cases (before : Disk) (absolute : p.isAbsolute = true)
    (ups : UpsLead (before.removeAll p).1.root (moving p.steps))
    (hlast : p.steps.getLast? = some (.into last)) :
    ((before.removeAll p).1.makeDirectories p).1 = (before.removeAll p).1 ∨
      ∃ place, RenewedAt before p ((before.removeAll p).1.makeDirectories p) place := by
  rcases makeDirectories_cases (before.removeAll p).1 absolute ups hlast with
    hsame | ⟨directory, name, rest, way⟩
  · exact .inl hsame
  · have missing := way.missing
    rw [Path.moving_trimmed_steps] at missing
    exact .inr ⟨directory ++ name :: rest, placeOf_prefix_of_firstMissing absolute hlast missing,
      way.adds, way.stands⟩

variable {old : Location}

/-- Deleting what a path is found at takes nothing outside of the place of the path. -/
theorem keptOn_removeAll_placeOf (before : Disk) (absolute : p.isAbsolute = true)
    (hlast : p.steps.getLast? = some (.into last)) :
    KeptOn (fun other => ¬ before.placeOf p <+: other) before (before.removeAll p).1 := by
  refine keptOn_removeAll fun place hfound other houtside => ?_
  rwa [← placeOf_of_resolve absolute hlast hfound]

/-- Where what comes before each `..` leads where it led, it still leads to directories. -/
theorem upsLead_removeAll (absolute : p.isAbsolute = true)
    (hlast : p.steps.getLast? = some (.into last))
    (hfound : before.resolve false p = .ok (.found old))
    (ups : ∀ front more, moving p.steps = front ++ .up :: more →
      directoryAlong (before.removeAll p).1.root front = directoryAlong before.root front) :
    UpsLead (before.removeAll p).1.root (moving p.steps) := by
  obtain ⟨front, directory, -, -, moves, hfront, -⟩ :=
    exists_above_of_resolve absolute hlast hfound
  intro first more hsteps
  rw [ups first more hsteps]
  exact (upsLead_of_directoryAlong hfront).concat_into last first more (moves ▸ hsteps)

/-- What is made anew in place of something old is not outside of its place, as all that is above
was there before. -/
theorem RenewedAt.keepsOutside {made : Disk × Option DiskError}
    (renewed : RenewedAt before p made place) (absolute : p.isAbsolute = true)
    (hlast : p.steps.getLast? = some (.into last))
    (hfound : before.resolve false p = .ok (.found old)) :
    AddsOn (fun other => ¬ before.placeOf p <+: other) (fun _ _ => False)
      (before.removeAll p).1 made.1 where
  toKeptOn := Grown.keptOn renewed.adds.toKeptOn
  stood := by
    intro other t houtside hat
    rcases renewed.adds.stood trivial hat with hstood | ⟨hface, hway⟩
    · exact .inl hstood
    · obtain ⟨front, directory, children, -, moves, hfront, hget, -⟩ :=
        exists_above_of_resolve absolute hlast hfound
      have hplace := placeOf_of_directory absolute moves hfront
      have habove : other <+: directory := by
        rcases List.prefix_or_prefix_of_prefix renewed.below hway with hinside | habove
        · exact absurd hinside houtside
        · rw [hplace] at habove houtside
          rcases List.prefix_concat_iff.mp habove with rfl | hdirectory
          · exact absurd (List.prefix_refl _) houtside
          · exact hdirectory
      obtain ⟨others, hothers⟩ := isDirectoryAt_of_prefix habove hget
      obtain ⟨t', hat', hface'⟩ :=
        (keptOn_removeAll_placeOf before absolute hlast).stands houtside hothers
      exact .inl ⟨t', hat', hface'.trans hface.symm⟩

end Renewed

end Disk

end DrawingDiary
