import DrawingDiary.Proofs.Disk.Walk

/-!
# What each change does to the disk

The changes that make something only do so at a free name, so the disk grows
(`grown_makeDirectories`, `grown_of_writeNewFile` and their like), and the changes that
remove something leave alone what is not at or below the place they remove
(`keptOn_removeAll`). What a path leads to stays the same when the places on its way
are kept (`readBytes_of_keptOn`), and a file that was written under a free name holds
what was written (`readBytes_of_writeFile`).
-/

namespace DrawingDiary.Disk

variable {kept : Location → Prop} {disk before after : Disk} {followLast : Bool} {p : Path}
  {place parent : Location} {name : String} {content : ByteArray}

section Except

variable {ε α β : Type}

theorem bind_eq_ok_iff {first : Except ε α} {next : α → Except ε β} {b : β} :
    (first >>= next) = .ok b ↔ ∃ a, first = .ok a ∧ next a = .ok b := by
  cases first with
  | error e => simp [bind, Except.bind]
  | ok a => simp [bind, Except.bind]

@[simp] theorem throw_ne_ok {e : ε} {a : α} : (throw e : Except ε α) ≠ .ok a := by
  intro h
  cases h

@[simp] theorem pure_eq_ok_iff {a b : α} : (pure a : Except ε α) = .ok b ↔ a = b := by
  simp [pure, Except.pure]

end Except

/-- The text of the path can be given to the disk. -/
structure Speakable (p : Path) : Prop where
  no_zero : p.text.contains '\x00' = false
  nonempty : p.text.isEmpty = false
  short : p.text.utf8ByteSize < pathLimit

theorem walkAlong_eq_ok_iff {spot : Spot} :
    disk.walkAlong followLast p = .ok spot ↔ Speakable p ∧
      Leads disk.root followLast linkLimit [] (disk.startSteps p ++ p.trimmed.steps) spot := by
  unfold walkAlong
  constructor
  · intro h
    split at h
    · cases h
    next hzero =>
      split at h
      · cases h
      next hempty =>
        split at h
        · cases h
        next hlong =>
          exact ⟨⟨by simpa using hzero, by simpa using hempty, Nat.lt_of_not_le hlong⟩,
            walk_eq_ok_iff.mp h⟩
  · intro h
    rcases h with ⟨hspeak, hleads⟩
    rw [if_neg (by simp [hspeak.no_zero]), if_neg (by simp [hspeak.nonempty]),
      if_neg (Nat.not_le.mpr hspeak.short)]
    exact hleads.walk_eq

/-- What the end of a walk has to be like for a path with a slash at its end. -/
theorem resolve_eq_ok_iff {spot : Spot} :
    disk.resolve followLast p = .ok spot ↔
      disk.walkAlong (followLast || p.endsWithSlash) p = .ok spot ∧
        ∀ place, spot = .found place → p.endsWithSlash = true →
          ∃ children, IsDirectoryAt disk.root place children := by
  unfold resolve
  rw [bind_eq_ok_iff]
  constructor
  · intro h
    rcases h with ⟨other, hwalk, h⟩
    cases other with
    | vacant parent name =>
        cases pure_eq_ok_iff.mp h
        exact ⟨hwalk, fun place habsurd => by cases habsurd⟩
    | found place =>
        simp only at h
        split at h
        next children hget =>
          cases pure_eq_ok_iff.mp h
          refine ⟨hwalk, fun place hplace _ => ⟨children, ?_⟩⟩
          cases hplace
          exact hget
        · split at h
          · exact absurd h throw_ne_ok
          next hslash =>
            cases pure_eq_ok_iff.mp h
            exact ⟨hwalk, fun place _ habsurd => absurd habsurd hslash⟩
  · intro h
    rcases h with ⟨hwalk, hdirectory⟩
    refine ⟨spot, hwalk, ?_⟩
    cases spot with
    | vacant parent name => rfl
    | found place =>
        simp only
        split
        · rfl
        next hnone =>
          split
          next hslash =>
            obtain ⟨children, hget⟩ := hdirectory place rfl hslash
            exact absurd hget (hnone children)
          · rfl

theorem resolve_eq_found_iff :
    disk.resolve followLast p = .ok (.found place) ↔
      disk.walkAlong (followLast || p.endsWithSlash) p = .ok (.found place) ∧
        (p.endsWithSlash = true → ∃ children, IsDirectoryAt disk.root place children) := by
  rw [resolve_eq_ok_iff]
  simp

theorem resolve_eq_vacant_iff :
    disk.resolve followLast p = .ok (.vacant parent name) ↔
      disk.walkAlong (followLast || p.endsWithSlash) p = .ok (.vacant parent name) := by
  rw [resolve_eq_ok_iff]
  simp

theorem at?_vacant (h : disk.walkAlong followLast p = .ok (.vacant parent name)) :
    disk.at? (parent ++ [name]) = none := by
  obtain ⟨children, hget, -, hchild⟩ := (walkAlong_eq_ok_iff.mp h).2.vacant
  rw [at?, Tree.get?_snoc hget, hchild]

theorem at?_vacant_of_resolve (h : disk.resolve followLast p = .ok (.vacant parent name)) :
    disk.at? (parent ++ [name]) = none :=
  at?_vacant (resolve_eq_vacant_iff.mp h)

section Reading

theorem startSteps_of_keptOn (h : KeptOn kept before after) (p : Path) :
    after.startSteps p = before.startSteps p := by
  rw [startSteps, startSteps, h.workingDirectory_eq]

theorem Leads.kept_found {root : Tree} (closed : Closed kept) {links : Nat}
    {current : Location} {steps : List Path.Step}
    (leads : Leads root followLast links current steps (.found place))
    (hcurrent : kept current)
    (hpassed : ∀ passed ∈ passedBy root followLast links current steps, kept passed) :
    kept place := by
  generalize hspot : Spot.found place = spot at leads
  induction leads with
  | stop =>
      cases hspot
      exact hcurrent
  | here hget _ ih =>
      rw [passedBy_here hget] at hpassed
      exact ih hcurrent hpassed hspot
  | up hget _ ih =>
      rw [passedBy_up hget] at hpassed
      exact ih (closed (List.dropLast_prefix _) hcurrent) hpassed hspot
  | free => cases hspot
  | through hget _ hchild hplain _ ih =>
      rw [passedBy_through hget hchild hplain] at hpassed
      obtain ⟨hhere, hthere⟩ := List.forall_mem_cons.mp hpassed
      exact ih hhere hthere hspot
  | last hget _ hchild =>
      cases hspot
      exact hpassed _ (passedBy_last hget hchild _)
  | follow hget _ hchild htarget hgoes _ _ ih =>
      rw [passedBy_follow hget hchild htarget hgoes] at hpassed
      obtain ⟨hhere, hthere⟩ := List.forall_mem_cons.mp hpassed
      exact ih (closed.linkStart hcurrent _) hthere hspot

/-- A path leads where it led before as long as the places on its way are kept. -/
theorem resolve_found_of_keptOn (closed : Closed kept) (h : KeptOn kept before after)
    (hpassed : ∀ passed ∈ before.passed (followLast || p.endsWithSlash) p, kept passed)
    (hfound : before.resolve followLast p = .ok (.found place)) :
    after.resolve followLast p = .ok (.found place) ∧ kept place := by
  obtain ⟨hwalk, hdirectory⟩ := resolve_eq_found_iff.mp hfound
  obtain ⟨hspeak, leads⟩ := walkAlong_eq_ok_iff.mp hwalk
  obtain ⟨hroot, hrest⟩ := List.forall_mem_cons.mp hpassed
  have hplace := leads.kept_found closed hroot hrest
  have leads' := leads.of_keptOn closed h hroot hrest
  rw [← startSteps_of_keptOn h] at leads'
  refine ⟨resolve_eq_found_iff.mpr ⟨walkAlong_eq_ok_iff.mpr ⟨hspeak, leads'⟩, ?_⟩, hplace⟩
  intro hslash
  obtain ⟨children, hget⟩ := hdirectory hslash
  exact h.directory hplace hget

theorem locate_eq_ok_iff :
    disk.locate p = .ok place ↔ disk.resolve true p = .ok (.found place) := by
  unfold locate
  rw [bind_eq_ok_iff]
  constructor
  · intro h
    rcases h with ⟨spot, hresolve, h⟩
    cases spot with
    | vacant parent name => exact absurd h throw_ne_ok
    | found other =>
        cases pure_eq_ok_iff.mp h
        exact hresolve
  · intro hresolve
    exact ⟨_, hresolve, rfl⟩

theorem stat_eq_ok_iff {t : Tree} :
    disk.stat p = .ok t ↔ ∃ place, disk.resolve true p = .ok (.found place) ∧
      disk.at? place = some t := by
  unfold stat
  simp only [bind_eq_ok_iff, locate_eq_ok_iff]
  refine exists_congr fun place => and_congr_right fun _ => ?_
  cases disk.at? place with
  | none => simp
  | some other => simp

theorem readBytes_eq_ok_iff :
    disk.readBytes p = .ok content ↔ ∃ place modified,
      disk.resolve true p = .ok (.found place) ∧
        disk.at? place = some (.file content modified) := by
  unfold readBytes
  rw [bind_eq_ok_iff]
  constructor
  · intro h
    rcases h with ⟨t, hstat, h⟩
    obtain ⟨place, hresolve, hat⟩ := stat_eq_ok_iff.mp hstat
    cases t with
    | file bytes modified =>
        cases pure_eq_ok_iff.mp h
        exact ⟨place, modified, hresolve, hat⟩
    | link target => exact absurd h throw_ne_ok
    | directory children => exact absurd h throw_ne_ok
  · intro h
    rcases h with ⟨place, modified, hresolve, hat⟩
    exact ⟨_, stat_eq_ok_iff.mpr ⟨place, hresolve, hat⟩, rfl⟩

theorem isFile_iff :
    disk.isFile p = true ↔ ∃ place content modified,
      disk.resolve true p = .ok (.found place) ∧
        disk.at? place = some (.file content modified) := by
  unfold isFile
  constructor
  · intro h
    split at h
    next content modified hstat =>
      obtain ⟨place, hresolve, hat⟩ := stat_eq_ok_iff.mp hstat
      exact ⟨place, content, modified, hresolve, hat⟩
    · cases h
  · intro h
    rcases h with ⟨place, content, modified, hresolve, hat⟩
    rw [stat_eq_ok_iff.mpr ⟨place, hresolve, hat⟩]

theorem exists_modified_of_isFile (h : disk.isFile p = true) :
    ∃ moment, disk.modified? p = some moment := by
  unfold isFile at h
  split at h
  next content moment hstat => exact ⟨moment, by rw [modified?, hstat]⟩
  · cases h

theorem isDirectory_iff :
    disk.isDirectory p = true ↔ ∃ place children,
      disk.resolve true p = .ok (.found place) ∧ IsDirectoryAt disk.root place children := by
  unfold isDirectory
  constructor
  · intro h
    split at h
    next children hstat =>
      obtain ⟨place, hresolve, hat⟩ := stat_eq_ok_iff.mp hstat
      exact ⟨place, children, hresolve, hat⟩
    · cases h
  · intro h
    rcases h with ⟨place, children, hresolve, hat⟩
    rw [stat_eq_ok_iff.mpr ⟨place, hresolve, hat⟩]

/-- A file is read as before as long as the places on the way to it are kept. -/
theorem readBytes_of_keptOn (closed : Closed kept) (h : KeptOn kept before after)
    (hpassed : ∀ passed ∈ before.passed true p, kept passed)
    (hread : before.readBytes p = .ok content) : after.readBytes p = .ok content := by
  obtain ⟨place, modified, hresolve, hat⟩ := readBytes_eq_ok_iff.mp hread
  obtain ⟨hresolve', hplace⟩ :=
    resolve_found_of_keptOn closed h (by simpa using hpassed) hresolve
  exact readBytes_eq_ok_iff.mpr ⟨place, modified, hresolve', h.file hplace hat⟩

end Reading

section Growing

theorem makeDirectory_eq_ok_iff :
    before.makeDirectory p = .ok after ↔ ∃ parent name,
      before.walkAlong false p = .ok (.vacant parent name) ∧
        after = before.setAt (parent ++ [name]) (some (.directory [])) := by
  unfold makeDirectory
  rw [bind_eq_ok_iff]
  constructor
  · intro h
    rcases h with ⟨spot, hwalk, h⟩
    cases spot with
    | found place => exact absurd h throw_ne_ok
    | vacant parent name => exact ⟨parent, name, hwalk, (pure_eq_ok_iff.mp h).symm⟩
  · intro h
    rcases h with ⟨parent, name, hwalk, rfl⟩
    exact ⟨_, hwalk, rfl⟩

theorem grown_of_makeDirectory (h : before.makeDirectory p = .ok after) :
    Grown before after := by
  obtain ⟨parent, name, hwalk, rfl⟩ := makeDirectory_eq_ok_iff.mp h
  exact grown_setAt (at?_vacant hwalk) _

theorem grown_settleDirectory {made : Except DiskError Disk}
    (h : ∀ disk, made = .ok disk → Grown before disk) :
    Grown before (before.settleDirectory p made).1 := by
  cases made with
  | ok disk => exact h disk rfl
  | error e => exact .refl _

theorem grown_makeDirectoriesUpTo (above : Nat) (before : Disk) (p : Path) :
    Grown before (makeDirectoriesUpTo above before p).1 := by
  have hmade : Grown before (before.settleDirectory p (before.makeDirectory p)).1 :=
    grown_settleDirectory fun disk h => grown_of_makeDirectory h
  induction above generalizing before p with
  | zero => exact hmade
  | succ above ih =>
      unfold makeDirectoriesUpTo
      split
      · exact .refl _
      next parent _ _ =>
        have hupper := ih before parent (grown_settleDirectory fun _ => grown_of_makeDirectory)
        split
        next disk hdisk =>
          rw [hdisk] at hupper
          exact hupper.trans (grown_settleDirectory fun _ => grown_of_makeDirectory)
        next disk e hdisk =>
          rw [hdisk] at hupper
          exact hupper
      · exact hmade

theorem grown_makeDirectories (before : Disk) (p : Path) :
    Grown before (before.makeDirectories p).1 := by
  unfold makeDirectories
  split
  · exact .refl _
  · exact grown_makeDirectoriesUpTo _ _ _

/-- A walk to a free name comes by no last link, so it does not matter whether it would
follow one. -/
theorem Leads.vacant_followLast {root : Tree} {links : Nat} {current : Location}
    {steps : List Path.Step}
    (leads : Leads root followLast links current steps (.vacant parent name)) :
    Leads root true links current steps (.vacant parent name) := by
  generalize hspot : Spot.vacant parent name = spot at leads ⊢
  induction leads with
  | stop => cases hspot
  | here hget _ ih => exact .here hget (ih hspot)
  | up hget _ ih => exact .up hget (ih hspot)
  | free hget hshort hchild => exact .free hget hshort hchild
  | through hget hshort hchild hplain _ ih => exact .through hget hshort hchild hplain (ih hspot)
  | last => cases hspot
  | follow hget hshort hchild htarget _ hsome _ ih =>
      exact .follow hget hshort hchild htarget (fun _ => rfl) hsome (ih hspot)

/-- What stands where a name was free is found by the path that led to this name. -/
theorem Grown.walkAlong_of_vacant (grown : Grown before after)
    (hwalk : before.walkAlong followLast p = .ok (.vacant parent name)) {t : Tree}
    (hput : after.at? (parent ++ [name]) = some t) (unlinked : t.linkTarget? = none) :
    after.walkAlong true p = .ok (.found (parent ++ [name])) := by
  obtain ⟨hspeak, leads⟩ := walkAlong_eq_ok_iff.mp hwalk
  have hfound := leads.vacant_followLast.found_of_grown grown hput fun _ => unlinked
  rw [← startSteps_of_keptOn grown] at hfound
  exact walkAlong_eq_ok_iff.mpr ⟨hspeak, walk_eq_ok_iff.mp hfound⟩

/-- A directory that is put at a free name that a path leads to is found by this path. -/
theorem resolve_of_vacant (hwalk : before.walkAlong false p = .ok (.vacant parent name)) :
    (before.setAt (parent ++ [name]) (some (.directory []))).resolve true p =
        .ok (.found (parent ++ [name])) ∧
      IsDirectoryAt (before.setAt (parent ++ [name]) (some (.directory []))).root
        (parent ++ [name]) [] := by
  have hgrown := grown_setAt (at?_vacant hwalk) (some (.directory []))
  obtain ⟨children, hget, -, -⟩ := (walkAlong_eq_ok_iff.mp hwalk).2.vacant
  have hput : (before.setAt (parent ++ [name]) (some (.directory []))).at? (parent ++ [name]) =
      some (.directory []) := Tree.get?_setAt_snoc hget name _
  have hfound := hgrown.walkAlong_of_vacant hwalk hput rfl
  exact ⟨resolve_eq_found_iff.mpr ⟨hfound, fun _ => ⟨[], hput⟩⟩, hput⟩

theorem resolve_of_makeDirectory (h : before.makeDirectory p = .ok after) :
    ∃ place, after.resolve true p = .ok (.found place) ∧ IsDirectoryAt after.root place [] := by
  obtain ⟨parent, name, hwalk, rfl⟩ := makeDirectory_eq_ok_iff.mp h
  exact ⟨parent ++ [name], resolve_of_vacant hwalk⟩

theorem isDirectory_of_makeDirectory (h : before.makeDirectory p = .ok after) :
    after.isDirectory p = true := by
  obtain ⟨place, hresolve, hget⟩ := resolve_of_makeDirectory h
  exact isDirectory_iff.mpr ⟨place, [], hresolve, hget⟩

theorem isDirectory_of_settleDirectory {made : Except DiskError Disk}
    (hmade : ∀ disk, made = .ok disk → disk.isDirectory p = true)
    (h : (before.settleDirectory p made).2 = none) :
    (before.settleDirectory p made).1.isDirectory p = true := by
  cases made with
  | ok disk => exact hmade disk rfl
  | error e =>
      simp only [settleDirectory] at h ⊢
      split at h
      next hdirectory => exact hdirectory
      · cases h

theorem isDirectory_of_makeDirectoriesUpTo {above : Nat}
    (h : (makeDirectoriesUpTo above before p).2 = none) :
    (makeDirectoriesUpTo above before p).1.isDirectory p = true := by
  cases above with
  | zero => exact isDirectory_of_settleDirectory (fun _ => isDirectory_of_makeDirectory) h
  | succ above =>
      unfold makeDirectoriesUpTo at h ⊢
      split at h
      · cases h
      next parent _ _ =>
        split at h
        next disk _ =>
          exact isDirectory_of_settleDirectory (fun _ => isDirectory_of_makeDirectory) h
        · cases h
      · exact isDirectory_of_settleDirectory (fun _ => isDirectory_of_makeDirectory) h

/-- When all directories of a path could be made, the path leads to a directory. -/
theorem isDirectory_of_makeDirectories (nonempty : p.text.isEmpty = false)
    (h : (before.makeDirectories p).2 = none) :
    (before.makeDirectories p).1.isDirectory p = true := by
  unfold makeDirectories at h ⊢
  rw [nonempty] at h ⊢
  exact isDirectory_of_makeDirectoriesUpTo h

/-- What puts something at a free name puts it at no path that ends in a slash. -/
theorem bind_vacant_eq_ok_iff {spot : Except DiskError Spot} {slash : Bool}
    {wrongSlash : DiskError} {put : Location → String → Disk} :
    (spot >>= fun
      | .found _ => throw .alreadyExists
      | .vacant parent name => if slash then throw wrongSlash else pure (put parent name)) =
        .ok after ↔
      ∃ parent name, spot = .ok (.vacant parent name) ∧ slash = false ∧
        after = put parent name := by
  rw [bind_eq_ok_iff]
  constructor
  · rintro ⟨found, hspot, hput⟩
    cases found with
    | found place => exact absurd hput throw_ne_ok
    | vacant parent name =>
        simp only at hput
        split at hput
        · exact absurd hput throw_ne_ok
        next hslash =>
          exact ⟨parent, name, hspot, by simpa using hslash, (pure_eq_ok_iff.mp hput).symm⟩
  · rintro ⟨parent, name, hspot, hslash, rfl⟩
    exact ⟨_, hspot, by simp [hslash]⟩

theorem writeNewFile_eq_ok_iff :
    before.writeNewFile p content = .ok after ↔ ∃ parent name,
      before.resolve false p = .ok (.vacant parent name) ∧ p.endsWithSlash = false ∧
        after = before.putFile (parent ++ [name]) content :=
  bind_vacant_eq_ok_iff

theorem grown_of_writeNewFile (h : before.writeNewFile p content = .ok after) :
    Grown before after := by
  obtain ⟨parent, name, hresolve, -, rfl⟩ := writeNewFile_eq_ok_iff.mp h
  exact grown_putFile (at?_vacant_of_resolve hresolve) content

theorem makeLink_eq_ok_iff {target : Path} :
    before.makeLink p target = .ok after ↔ ∃ parent name,
      before.resolve false p = .ok (.vacant parent name) ∧ p.endsWithSlash = false ∧
        after = before.setAt (parent ++ [name]) (some (.link target)) :=
  bind_vacant_eq_ok_iff

theorem grown_of_makeLink {target : Path} (h : before.makeLink p target = .ok after) :
    Grown before after := by
  obtain ⟨parent, name, hresolve, -, rfl⟩ := makeLink_eq_ok_iff.mp h
  exact grown_setAt (at?_vacant_of_resolve hresolve) _

theorem writeFile_of_file {place : Location} {old : ByteArray} {modified : Timestamp}
    (hresolve : before.resolve true p = .ok (.found place))
    (hat : before.at? place = some (.file old modified)) :
    before.writeFile p content = .ok (before.putFile place content) := by
  rw [writeFile, hresolve]
  simp only [bind, Except.bind, hat]
  rfl

theorem eq_of_at?_putFile {disk : Disk} {parent other : Location} {name : String}
    {children : List (String × Tree)} {content : ByteArray}
    (hparent : IsDirectoryAt disk.root parent children) (free : disk.at? other = none)
    (h : (disk.putFile (parent ++ [name]) content).at? other ≠ none) :
    other = parent ++ [name] := by
  let new : Option Tree := some (.file content disk.now)
  change (disk.root.setAt (parent ++ [name]) new).get? other ≠ none at h
  have below : parent ++ [name] <+: other := Classical.byContradiction fun outside => by
    have hface := Tree.face_get?_setAt disk.root new outside
    rw [show disk.root.get? other = none from free] at hface
    exact h (Option.map_eq_none_iff.mp hface)
  obtain ⟨rest, rfl⟩ := below
  cases rest with
  | nil => exact List.append_nil _
  | cons next rest =>
      refine absurd ?_ h
      rw [Tree.get?_append, Tree.get?_setAt_snoc hparent]
      rfl

theorem exists_vacant_of_writeFile (hnew : before.isFile p = false)
    (h : before.writeFile p content = .ok after) :
    ∃ parent name, before.resolve true p = .ok (.vacant parent name) ∧
      p.endsWithSlash = false ∧ after = before.putFile (parent ++ [name]) content := by
  unfold writeFile at h
  obtain ⟨spot, hresolve, hwrite⟩ := bind_eq_ok_iff.mp h
  cases spot with
  | found place =>
      simp only at hwrite
      split at hwrite
      next old modified hat =>
        rw [isFile_iff.mpr ⟨place, old, modified, hresolve, hat⟩] at hnew
        cases hnew
      · exact absurd hwrite throw_ne_ok
  | vacant parent name =>
      simp only at hwrite
      split at hwrite
      · exact absurd hwrite throw_ne_ok
      next hslash =>
        exact ⟨parent, name, hresolve, by simpa using hslash, (pure_eq_ok_iff.mp hwrite).symm⟩

/-- A file is written anew where none is, and then holds what was written. -/
theorem readBytes_of_writeFile (hnew : before.isFile p = false)
    (h : before.writeFile p content = .ok after) :
    Grown before after ∧ after.readBytes p = .ok content := by
  obtain ⟨parent, name, hresolve, hslash, rfl⟩ := exists_vacant_of_writeFile hnew h
  have hgrown := grown_putFile (at?_vacant_of_resolve hresolve) content
  have hwalk := resolve_eq_vacant_iff.mp hresolve
  obtain ⟨children, hget, -, -⟩ := (walkAlong_eq_ok_iff.mp hwalk).2.vacant
  have hput : (before.putFile (parent ++ [name]) content).at? (parent ++ [name]) =
      some (.file content before.now) := Tree.get?_setAt_snoc hget name _
  have hfound := hgrown.walkAlong_of_vacant hwalk hput rfl
  refine ⟨hgrown, readBytes_eq_ok_iff.mpr ⟨_, _, resolve_eq_found_iff.mpr ⟨hfound, ?_⟩, hput⟩⟩
  rw [hslash]
  exact nofun

end Growing

section Removing

/-- Removing a file leaves alone what is not at or below the place where it stood. -/
theorem keptOn_of_removeFile (h : before.removeFile p = .ok after) :
    ∃ place, before.resolve false p = .ok (.found place) ∧
      KeptOn (fun other => ¬ place <+: other) before after := by
  unfold removeFile at h
  obtain ⟨spot, hresolve, hremove⟩ := bind_eq_ok_iff.mp h
  cases spot with
  | vacant parent name => exact absurd hremove throw_ne_ok
  | found place =>
      refine ⟨place, hresolve, ?_⟩
      simp only at hremove
      split at hremove
      · exact absurd hremove throw_ne_ok
      · obtain rfl := pure_eq_ok_iff.mp hremove
        exact keptOn_setAt _ _ _

theorem removeEmptyDirectory_eq_ok (h : before.removeEmptyDirectory p = .ok after) :
    ∃ place, before.walkAlong false p = .ok (.found place) ∧
      IsDirectoryAt before.root place [] ∧ after = before.setAt place none := by
  unfold removeEmptyDirectory at h
  split at h
  · exact absurd h throw_ne_ok
  · obtain ⟨spot, -, habsurd⟩ := bind_eq_ok_iff.mp h
    exact absurd habsurd throw_ne_ok
  · obtain ⟨spot, hwalk, hremove⟩ := bind_eq_ok_iff.mp h
    cases spot with
    | vacant parent name => exact absurd hremove throw_ne_ok
    | found place =>
        simp only at hremove
        split at hremove
        next hat => exact ⟨place, hwalk, hat, (pure_eq_ok_iff.mp hremove).symm⟩
        · exact absurd hremove throw_ne_ok
        · exact absurd hremove throw_ne_ok

/-- A walk that ends at no link also ends there when it follows the last link. -/
theorem Leads.follow_last {root : Tree} {links : Nat} {current : Location}
    {steps : List Path.Step} (leads : Leads root false links current steps (.found place))
    {t : Tree} (hget : root.get? place = some t) (hplain : t.linkTarget? = none) :
    Leads root true links current steps (.found place) := by
  generalize hspot : Spot.found place = spot at leads ⊢
  induction leads with
  | stop => exact .stop
  | here hdirectory _ ih => exact .here hdirectory (ih hspot)
  | up hdirectory _ ih => exact .up hdirectory (ih hspot)
  | free => cases hspot
  | through hdirectory hshort hchild hthrough _ ih =>
      exact .through hdirectory hshort hchild hthrough (ih hspot)
  | last hdirectory _ hchild htarget =>
      cases hspot
      rw [Tree.get?_snoc hdirectory, hchild] at hget
      cases hget
      rw [hplain] at htarget
      cases htarget
  | follow hdirectory hshort hchild htarget _ hsome _ ih =>
      exact .follow hdirectory hshort hchild htarget (fun _ => rfl) hsome (ih hspot)

theorem eq_of_emptied {children : List (String × Tree)}
    (hresolve : before.resolve false p = .ok (.found place))
    (hdirectory : IsDirectoryAt before.root place children)
    (hremove : (before.setAt place (some (.directory []))).removeEmptyDirectory p = .ok after) :
    (before.setAt place (some (.directory []))).walkAlong false p = .ok (.found place) ∧
      after = (before.setAt place (some (.directory []))).setAt place none := by
  obtain ⟨other, hwalk, hempty, rfl⟩ := removeEmptyDirectory_eq_ok hremove
  have hgrown := grown_of_emptied hdirectory
  obtain ⟨hspeak, leads⟩ := walkAlong_eq_ok_iff.mp hwalk
  have leads' := leads.of_keptOn (fun _ _ => trivial) hgrown trivial fun _ _ => trivial
  obtain ⟨children', hother⟩ := hgrown.directory trivial hempty
  obtain ⟨-, leadsPlace⟩ := walkAlong_eq_ok_iff.mp (resolve_eq_found_iff.mp hresolve).1
  have hsame : Spot.found other = Spot.found place := by
    rw [startSteps_of_keptOn (keptOn_setAt before place _)] at leads'
    cases hslash : p.endsWithSlash with
    | false =>
        rw [hslash] at leadsPlace
        exact Except.ok.inj (leads'.walk_eq.symm.trans leadsPlace.walk_eq)
    | true =>
        rw [hslash] at leadsPlace
        have leads'' := leads'.follow_last hother rfl
        exact Except.ok.inj (leads''.walk_eq.symm.trans leadsPlace.walk_eq)
  cases hsame
  exact ⟨hwalk, rfl⟩

/-- Removing a path with all below it leaves alone what is not at or below the place it
leads to. -/
theorem keptOn_removeAll
    (outside : ∀ place, before.resolve false p = .ok (.found place) →
      ∀ other, kept other → ¬ place <+: other) :
    KeptOn kept before (before.removeAll p).1 := by
  unfold removeAll
  split
  · exact .refl _
  · exact .refl _
  · exact .refl _
  next place hresolve =>
    have hkept := outside place hresolve
    split
    next children hat =>
      have hemptied := (keptOn_setAt before place (some (.directory []))).mono hkept
      simp only
      split
      next removed hremoved =>
        rw [(eq_of_emptied hresolve hat hremoved).2]
        exact hemptied.trans ((keptOn_setAt _ place none).mono hkept)
      · exact hemptied
      · exact hemptied
    · exact (keptOn_setAt before place none).mono hkept

end Removing

end DrawingDiary.Disk
