import DrawingDiary.Proofs.Disk.Beside
import DrawingDiary.Proofs.Disk.Same
import Mathlib.Data.List.Basic

/-!
# A directory at the end of a path

`Stands` says that a path leads to a directory and which children it has. Something can be
made under a plain name in this directory exactly when the name is free
(`Stands.walkAlong_join_of_free`), and then it is the last child afterwards and nothing
else has changed, neither among the other children nor beside the directory
(`Stands.makeLink`, `Stands.makeDirectory`, `Stands.writeNewFile`).
-/

namespace DrawingDiary.Disk

open DrawingDiary.Path (Step PlainName)

/-- The path leads to a directory with these children. -/
structure Stands (disk : Disk) (p : Path) (place : Location) (children : List (String × Tree)) :
    Prop where
  resolve_eq : disk.resolve true p = .ok (.found place)
  directory : IsDirectoryAt disk.root place children

variable {disk before after : Disk} {p target : Path} {place : Location}
  {children more : List (String × Tree)} {name : String} {content : ByteArray}

theorem Stands.speakable (stands : Stands disk p place children) : Speakable p :=
  speakable_of_resolve stands.resolve_eq

theorem Stands.unique (stands : Stands disk p place children) {place' : Location}
    {children' : List (String × Tree)} (stands' : Stands disk p place' children') :
    place = place' ∧ children = children' := by
  have hplace := stands.resolve_eq.symm.trans stands'.resolve_eq
  cases hplace
  have hchildren := stands.directory.symm.trans stands'.directory
  cases hchildren
  exact ⟨rfl, rfl⟩

theorem Stands.list_eq (stands : Stands disk p place children) :
    disk.list p = .ok (children.map (·.1)) :=
  list_eq_ok_iff.mpr ⟨place, children, stands.resolve_eq, stands.directory, rfl⟩

theorem Stands.isDirectory (stands : Stands disk p place children) : disk.isDirectory p = true :=
  isDirectory_iff.mpr ⟨_, _, stands.resolve_eq, stands.directory⟩

theorem Stands.of_grown (stands : Stands before p place children) (grown : Grown before after)
    (hget : IsDirectoryAt after.root place more) : Stands after p place more :=
  ⟨(resolve_found_of_keptOn (fun _ _ => trivial) grown (fun _ _ => trivial)
    stands.resolve_eq).1, hget⟩

theorem walkAlong_eq_walk {followLast : Bool} {steps : List Step} (speakable : Speakable p)
    (absolute : p.isAbsolute = true) (hslash : p.endsWithSlash = false) (hsteps : p.steps = steps) :
    disk.walkAlong followLast p = walk disk.root followLast linkLimit [] steps := by
  obtain ⟨hzero, hempty, hshort⟩ := speakable
  rw [walkAlong, startSteps, absolute, Path.trimmed_of_not_endsWithSlash hslash, hsteps]
  simp [hzero, hempty, Nat.not_le.mpr hshort]

theorem resolve_of_not_endsWithSlash {followLast : Bool} (h : p.endsWithSlash = false) :
    disk.resolve followLast p = disk.walkAlong followLast p := by
  unfold resolve
  rw [h, Bool.or_false]
  cases disk.walkAlong followLast p with
  | error e => rfl
  | ok spot =>
      cases spot with
      | vacant parent name => rfl
      | found place =>
          simp only [bind, Except.bind]
          split <;> rfl

/-- A path that can be given to the disk can still be when a short name is joined to it. -/
theorem Speakable.join (speakable : Speakable p) (plain : PlainName name)
    (no_zero : '\x00' ∉ name.toList)
    (short : p.text.utf8ByteSize + 1 + name.utf8ByteSize < pathLimit) :
    Speakable (p.join name) := by
  have habsolute : ¬ (name.toList.head? == some '/') = true := by
    rw [beq_iff_eq]
    exact fun h => plain.no_slash (List.mem_of_head? h)
  have hzero := speakable.no_zero
  refine ⟨?_, Path.nonempty_join speakable.nonempty name, ?_⟩
  · rw [Path.join, if_neg habsolute]
    split <;> simp_all
  · rw [Path.join, if_neg habsolute]
    split
    · simp only [String.utf8ByteSize_append]
      omega
    · simp only [String.utf8ByteSize_append]
      exact short

/-- What can be given to the disk with a name joined to it can be given to it without. -/
theorem Speakable.of_join (speakable : Speakable (p.join name)) (plain : PlainName name)
    (nonempty : p.text.isEmpty = false) : Speakable p := by
  have habsolute : ¬ (name.toList.head? == some '/') = true := by
    rw [beq_iff_eq]
    exact fun h => plain.no_slash (List.mem_of_head? h)
  have hzero := speakable.no_zero
  have hshort := speakable.short
  rw [Path.join, if_neg habsolute] at hzero hshort
  refine ⟨?_, nonempty, ?_⟩
  · split at hzero <;> simp_all
  · split at hshort <;> simp only [String.utf8ByteSize_append] at hshort <;> omega

section Names

/-- A walk to a name joined to the path goes to the directory and then to the name. -/
theorem Stands.walkAlong_join (stands : Stands disk p place children) (plain : PlainName name)
    (speakable : Speakable (p.join name)) (followLast : Bool) :
    ∃ left, disk.walkAlong followLast (p.join name) =
      walk disk.root followLast left place [.into name] := by
  obtain ⟨hspeak, leads⟩ := walkAlong_eq_ok_iff.mp (resolve_eq_found_iff.mp stands.resolve_eq).1
  obtain ⟨n, hsteps⟩ := p.steps_join hspeak.nonempty plain
  have hstart : disk.startSteps (p.join name) = disk.startSteps p := by
    rw [startSteps, startSteps, Path.isAbsolute_join hspeak.nonempty plain]
  rw [Bool.true_or] at leads
  have happend : ∃ left, walk disk.root followLast linkLimit []
      (disk.startSteps p ++ p.trimmed.steps ++ (List.replicate n .here ++ [.into name])) =
        walk disk.root followLast left place (List.replicate n .here ++ [.into name]) :=
    leads.walk_append (by simp)
  obtain ⟨left, heq⟩ := happend
  refine ⟨left, ?_⟩
  rw [walkAlong, if_neg (by simpa using speakable.no_zero),
    if_neg (by simpa using speakable.nonempty), if_neg (Nat.not_le.mpr speakable.short), hstart,
    hsteps, ← List.append_assoc, heq, walk_replicate_here stands.directory]

theorem Stands.walkAlong_join_of_free {followLast : Bool}
    (stands : Stands disk p place children) (plain : PlainName name)
    (speakable : Speakable (p.join name)) (free : Tree.lookup name children = none)
    (short : name.utf8ByteSize ≤ nameLimit) :
    disk.walkAlong followLast (p.join name) = .ok (.vacant place name) := by
  obtain ⟨left, hwalk⟩ := stands.walkAlong_join plain speakable followLast
  rw [hwalk, walk_into stands.directory, if_neg (Nat.not_lt.mpr short), free]
  rfl

theorem Stands.stat_join_of_free (stands : Stands disk p place children) (plain : PlainName name)
    (speakable : Speakable (p.join name)) (free : Tree.lookup name children = none)
    (short : name.utf8ByteSize ≤ nameLimit) : disk.stat (p.join name) = .error .notFound := by
  have hresolve : disk.resolve true (p.join name) = .ok (.vacant place name) := by
    rw [resolve_of_not_endsWithSlash (p.endsWithSlash_join plain)]
    exact stands.walkAlong_join_of_free plain speakable free short
  simp only [stat, locate, hresolve, bind, Except.bind, throw, throwThe, MonadExceptOf.throw]

theorem Stands.not_pathExists_join (stands : Stands disk p place children)
    (plain : PlainName name) (free : Tree.lookup name children = none) :
    disk.pathExists (p.join name) = false := by
  refine Bool.eq_false_iff.mpr fun h => ?_
  obtain ⟨t, hstat⟩ : ∃ t, disk.stat (p.join name) = .ok t := by
    rw [pathExists] at h
    split at h
    next t hstat => exact ⟨t, hstat⟩
    · cases h
  obtain ⟨other, hresolve, -⟩ := stat_eq_ok_iff.mp hstat
  rw [resolve_of_not_endsWithSlash (p.endsWithSlash_join plain)] at hresolve
  obtain ⟨left, hwalk⟩ := stands.walkAlong_join plain (walkAlong_eq_ok_iff.mp hresolve).1 true
  rw [hwalk] at hresolve
  obtain ⟨-, ⟨-, hspot⟩ | ⟨⟨child, hchild⟩, -⟩ | ⟨-, target, hlink⟩⟩ :=
    cases_of_walk_last stands.directory hresolve
  · cases hspot
  · cases free.symm.trans hchild
  · cases free.symm.trans hlink

/-- A free name that a joined path leads to is the joined name, and it is free in the
directory. -/
theorem Stands.of_vacant (stands : Stands disk p place children) (plain : PlainName name)
    {parent : Location} {last : String}
    (h : disk.resolve false (p.join name) = .ok (.vacant parent last)) :
    parent = place ∧ last = name ∧ Tree.lookup name children = none := by
  rcases resolve_join plain stands.resolve_eq stands.directory h with hspot | hspot
  · cases hspot
  · cases hspot
    have hfree := at?_vacant_of_resolve h
    rw [at?, Tree.get?_snoc stands.directory] at hfree
    exact ⟨rfl, rfl, hfree⟩

/-- What stands in a directory that a path leads to is found by its name, unless it is a
link. -/
theorem Stands.resolve_child (stands : Stands disk p place children) (plain : PlainName name)
    (speakable : Speakable (p.join name)) (short : name.utf8ByteSize ≤ nameLimit) {child : Tree}
    (hchild : Tree.lookup name children = some child) (hplain : child.linkTarget? = none) :
    disk.resolve true (p.join name) = .ok (.found (place ++ [name])) := by
  obtain ⟨left, hwalk⟩ := stands.walkAlong_join plain speakable true
  rw [resolve_of_not_endsWithSlash (p.endsWithSlash_join plain), hwalk]
  exact walk_last stands.directory short hchild (fun _ => hplain) left

theorem Stands.child (stands : Stands disk p place children) (plain : PlainName name)
    (speakable : Speakable (p.join name)) (short : name.utf8ByteSize ≤ nameLimit)
    (hchild : Tree.lookup name children = some (.directory more)) :
    Stands disk (p.join name) (place ++ [name]) more where
  resolve_eq := stands.resolve_child plain speakable short hchild rfl
  directory := by rw [IsDirectoryAt, Tree.get?_snoc stands.directory, hchild]

theorem Stands.isFile_child (stands : Stands disk p place children) (plain : PlainName name)
    (speakable : Speakable (p.join name)) (short : name.utf8ByteSize ≤ nameLimit)
    {modified : Timestamp} (hchild : Tree.lookup name children = some (.file content modified)) :
    disk.isFile (p.join name) = true := by
  refine isFile_iff.mpr ⟨place ++ [name], content, modified,
    stands.resolve_child plain speakable short hchild rfl, ?_⟩
  rw [at?, Tree.get?_snoc stands.directory, hchild]

/-- Where no link stands, what is found under a name does not depend on the rest of the disk. -/
theorem Stands.isFile_join_iff (stands : Stands disk p place children) (plain : PlainName name)
    (nolink : ∀ target, Tree.lookup name children ≠ some (.link target)) :
    disk.isFile (p.join name) = true ↔ Speakable (p.join name) ∧
      name.utf8ByteSize ≤ nameLimit ∧
        ∃ content modified, Tree.lookup name children = some (.file content modified) := by
  constructor
  · intro h
    obtain ⟨found, _, _, hresolve, hat⟩ := isFile_iff.mp h
    have speakable := speakable_of_resolve hresolve
    rw [resolve_of_not_endsWithSlash (p.endsWithSlash_join plain)] at hresolve
    obtain ⟨left, hwalk⟩ := stands.walkAlong_join plain speakable true
    rw [hwalk] at hresolve
    obtain ⟨hshort, ⟨-, hspot⟩ | ⟨-, hspot⟩ | ⟨-, target, hlink⟩⟩ :=
      cases_of_walk_last stands.directory hresolve
    · cases hspot
    · cases hspot
      rw [at?, Tree.get?_snoc stands.directory] at hat
      exact ⟨speakable, hshort, _, _, hat⟩
    · exact absurd hlink (nolink target)
  · rintro ⟨speakable, hshort, content, modified, hchild⟩
    exact stands.isFile_child plain speakable hshort hchild

theorem Stands.readBytes_child (stands : Stands disk p place children) (plain : PlainName name)
    (speakable : Speakable (p.join name)) (short : name.utf8ByteSize ≤ nameLimit)
    {modified : Timestamp} (hchild : Tree.lookup name children = some (.file content modified)) :
    disk.readBytes (p.join name) = .ok content := by
  refine readBytes_eq_ok_iff.mpr ⟨place ++ [name], modified,
    stands.resolve_child plain speakable short hchild rfl, ?_⟩
  rw [at?, Tree.get?_snoc stands.directory, hchild]

theorem Stands.readText_child (stands : Stands disk p place children) (plain : PlainName name)
    (speakable : Speakable (p.join name)) (short : name.utf8ByteSize ≤ nameLimit)
    {text : String} {modified : Timestamp}
    (hchild : Tree.lookup name children = some (.file text.toUTF8 modified)) :
    disk.readText (p.join name) = .ok text := by
  have htext : String.fromUTF8? text.toUTF8 = some text := dif_pos text.isValidUTF8
  rw [readText, stands.readBytes_child plain speakable short hchild]
  simp only [bind, Except.bind, htext]
  rfl

end Names

section Putting

theorem Stands.put (stands : Stands before p place children)
    (free : Tree.lookup name children = none) {t : Tree}
    (workingDirectory : after.workingDirectory = before.workingDirectory)
    (root : after.root = before.root.setAt (place ++ [name]) (some t)) :
    Stands after p place (children ++ [(name, t)]) ∧ GrownIn place before after := by
  have hfree : before.at? (place ++ [name]) = none := by
    rw [at?, Tree.get?_snoc stands.directory, free]
  have hsame (other : Location) :
      after.at? other = (before.setAt (place ++ [name]) (some t)).at? other := by
    rw [at?, root]
    rfl
  have grown : Grown before after := by
    refine ⟨workingDirectory, fun hkept hat => ?_⟩
    rw [hsame]
    exact (grown_setAt hfree (some t)).stands hkept hat
  refine ⟨stands.of_grown grown ?_, ⟨workingDirectory, fun notBelow notAbove => ?_⟩, grown⟩
  · rw [IsDirectoryAt, root, Tree.get?_setAt_append _ _ (List.cons_ne_nil _ _), stands.directory]
    change some (Tree.directory (Tree.assign name (some t) children)) = _
    have hlast := Tree.assign_append free (some t) []
    rw [List.append_nil] at hlast
    rw [hlast]
    rfl
  · rw [hsame]
    exact (agreeBeside_setAt (List.prefix_append place [name]) before (some t)).at?_eq
      notBelow notAbove

/-- What has been put into a directory can be changed there, while the other children stay. -/
theorem Stands.putBelow {below : Location} {child : Tree} {new : Option Tree}
    (stands : Stands before p place (children ++ [(name, child)]))
    (free : Tree.lookup name children = none) (hbelow : below ≠ [])
    (grown : Grown before after)
    (root : after.root = before.root.setAt (place ++ name :: below) new) :
    Stands after p place (children ++ [(name, child.setAt below new)]) ∧
      GrownIn place before after := by
  obtain ⟨next, rest, rfl⟩ := List.exists_cons_of_ne_nil hbelow
  refine ⟨stands.of_grown grown ?_,
    ⟨grown.workingDirectory_eq, fun notBelow notAbove => ?_⟩, grown⟩
  · rw [IsDirectoryAt, root, Tree.get?_setAt_append _ _ (List.cons_ne_nil _ _),
      stands.directory, Option.map_some, Tree.setAt_cons_cons, Tree.lookup_append, free]
    simp [Tree.lookup, Tree.assign_append free, Tree.assign]
  · have hbeside := (agreeBeside_setAt (List.prefix_append place (name :: next :: rest)) before
      new).at?_eq notBelow notAbove
    rw [at?, root]
    exact hbeside

theorem Stands.makeLink (stands : Stands before p place children) (plain : PlainName name)
    (h : before.makeLink (p.join name) target = .ok after) :
    Tree.lookup name children = none ∧
      Stands after p place (children ++ [(name, .link target)]) ∧
      GrownIn place before after := by
  obtain ⟨parent, last, hresolve, -, rfl⟩ := makeLink_eq_ok_iff.mp h
  obtain ⟨rfl, rfl, free⟩ := stands.of_vacant plain hresolve
  exact ⟨free, stands.put free rfl rfl⟩

theorem Stands.makeDirectory (stands : Stands before p place children) (plain : PlainName name)
    (h : before.makeDirectory (p.join name) = .ok after) :
    Tree.lookup name children = none ∧
      Stands after p place (children ++ [(name, .directory [])]) ∧
      GrownIn place before after := by
  obtain ⟨parent, last, hwalk, rfl⟩ := makeDirectory_eq_ok_iff.mp h
  rw [← resolve_of_not_endsWithSlash (p.endsWithSlash_join plain)] at hwalk
  obtain ⟨rfl, rfl, free⟩ := stands.of_vacant plain hwalk
  exact ⟨free, stands.put free rfl rfl⟩

theorem Stands.eq_of_writeNewFile (stands : Stands before p place children)
    (plain : PlainName name) (h : before.writeNewFile (p.join name) content = .ok after) :
    Tree.lookup name children = none ∧ after = before.putFile (place ++ [name]) content := by
  obtain ⟨parent, last, hresolve, -, rfl⟩ := writeNewFile_eq_ok_iff.mp h
  obtain ⟨rfl, rfl, free⟩ := stands.of_vacant plain hresolve
  exact ⟨free, rfl⟩

theorem Stands.writeNewFile (stands : Stands before p place children) (plain : PlainName name)
    (h : before.writeNewFile (p.join name) content = .ok after) :
    Tree.lookup name children = none ∧
      Stands after p place (children ++ [(name, .file content before.now)]) ∧
      GrownIn place before after := by
  obtain ⟨free, rfl⟩ := stands.eq_of_writeNewFile plain h
  exact ⟨free, stands.put free rfl rfl⟩

theorem Stands.exists_makeDirectory (stands : Stands disk p place children)
    (plain : PlainName name) (speakable : Speakable (p.join name))
    (free : Tree.lookup name children = none) (short : name.utf8ByteSize ≤ nameLimit) :
    ∃ made, disk.makeDirectory (p.join name) = .ok made :=
  ⟨_, makeDirectory_eq_ok_iff.mpr
    ⟨place, name, stands.walkAlong_join_of_free plain speakable free short, rfl⟩⟩

theorem Stands.exists_writeNewFile (stands : Stands disk p place children)
    (plain : PlainName name) (speakable : Speakable (p.join name))
    (free : Tree.lookup name children = none) (short : name.utf8ByteSize ≤ nameLimit)
    (content : ByteArray) : ∃ written, disk.writeNewFile (p.join name) content = .ok written := by
  have hslash := p.endsWithSlash_join plain
  refine ⟨_, writeNewFile_eq_ok_iff.mpr ⟨place, name, ?_, hslash, rfl⟩⟩
  rw [resolve_of_not_endsWithSlash hslash]
  exact stands.walkAlong_join_of_free plain speakable free short

theorem Stands.exists_makeLink (stands : Stands disk p place children)
    (plain : PlainName name) (speakable : Speakable (p.join name))
    (free : Tree.lookup name children = none) (short : name.utf8ByteSize ≤ nameLimit)
    (target : Path) : ∃ linked, disk.makeLink (p.join name) target = .ok linked := by
  have hslash := p.endsWithSlash_join plain
  refine ⟨_, makeLink_eq_ok_iff.mpr ⟨place, name, ?_, hslash, rfl⟩⟩
  rw [resolve_of_not_endsWithSlash hslash]
  exact stands.walkAlong_join_of_free plain speakable free short

end Putting

end DrawingDiary.Disk
