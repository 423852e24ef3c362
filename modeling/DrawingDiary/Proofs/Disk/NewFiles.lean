import DrawingDiary.Proofs.Disk.Added
import DrawingDiary.Proofs.Disk.Grown
import DrawingDiary.Proofs.Disk.Standing

/-!
# What is found where files were added

When only files were added to a disk, a path that leads somewhere now led there before, or to the
free name under which one of the files was put (`Leads.before_of_adds`). So a path only becomes one
to a file if it led to such a free name (`Adds.isFile`), and a directory lists the names that it
listed and those of new files in it (`Adds.exists_list`).
-/

namespace DrawingDiary.Disk

open DrawingDiary.Path (Step PlainName)

section FreeName

variable {disk : Disk} {p : Path} {place : Location} {children : List (String × Tree)}
  {name : String} (stands : Stands disk p place children) (plain : PlainName name)
  (speakable : Speakable (p.join name)) (free : Tree.lookup name children = none)
  (short : name.utf8ByteSize ≤ nameLimit)

include stands plain speakable free short

theorem Stands.isFile_join_of_free : disk.isFile (p.join name) = false := by
  rw [Disk.isFile, stands.stat_join_of_free plain speakable free short]

theorem Stands.writeFile_join_of_free (content : ByteArray) :
    disk.writeFile (p.join name) content = .ok (disk.putFile (place ++ [name]) content) := by
  have hslash := p.endsWithSlash_join plain
  have hresolve : disk.resolve true (p.join name) = .ok (.vacant place name) := by
    rw [resolve_of_not_endsWithSlash hslash]
    exact stands.walkAlong_join_of_free plain speakable free short
  rw [Disk.writeFile, hresolve]
  simp only [bind, Except.bind, hslash, Bool.false_eq_true, if_false]
  rfl

theorem Stands.found_of_putFile (content : ByteArray) :
    (disk.putFile (place ++ [name]) content).resolve true (p.join name) =
        .ok (.found (place ++ [name])) ∧
      (disk.putFile (place ++ [name]) content).at? (place ++ [name]) =
        some (.file content disk.now) := by
  let after : Disk := disk.putFile (place ++ [name]) content
  have hroot : after.root = disk.root.setAt (place ++ [name]) (some (.file content disk.now)) := rfl
  have hworking : after.workingDirectory = disk.workingDirectory := rfl
  obtain ⟨stands', -⟩ := stands.put free hworking hroot
  have hchild : Tree.lookup name (children ++ [(name, .file content disk.now)]) =
      some (.file content disk.now) := by
    rw [Tree.lookup_append, free]
    simp [Tree.lookup]
  refine ⟨stands'.resolve_child plain speakable short hchild rfl, ?_⟩
  rw [at?, Tree.get?_snoc stands'.directory, hchild]

end FreeName

theorem Leads.of_file {root : Tree} {followLast : Bool} {links : Nat} {current : Location}
    {steps : List Step} {spot : Spot} (leads : Leads root followLast links current steps spot)
    (hfile : ∃ t, root.get? current = some t ∧ t.IsFile) :
    steps = [] ∧ spot = .found current := by
  obtain ⟨_, hget, content, modified, rfl⟩ := hfile
  cases steps with
  | nil => exact ⟨rfl, Except.ok.inj (leads.walk_eq.symm.trans (walk_nil _))⟩
  | cons step rest =>
      obtain ⟨_, hdirectory⟩ := exists_directory leads.walk_eq
      rw [IsDirectoryAt, hget] at hdirectory
      cases hdirectory

theorem Leads.get?_ne_none {root : Tree} {followLast : Bool} {links : Nat}
    {current place : Location} {steps : List Step}
    (leads : Leads root followLast links current steps (.found place))
    (hcurrent : root.get? current ≠ none) : root.get? place ≠ none := by
  have habove {above below : Location} (h : above <+: below) (hbelow : root.get? below ≠ none) :
      root.get? above ≠ none := mt (Tree.get?_eq_none_of_prefix h) hbelow
  generalize hspot : Spot.found place = spot at leads
  induction leads with
  | stop =>
      cases hspot
      exact hcurrent
  | here _ _ ih => exact ih hcurrent hspot
  | up _ _ ih => exact ih (habove (List.dropLast_prefix _) hcurrent) hspot
  | free => cases hspot
  | through hget _ hchild _ _ ih =>
      refine ih ?_ hspot
      rw [Tree.get?_snoc hget, hchild]
      exact Option.some_ne_none _
  | last hget _ hchild =>
      cases hspot
      rw [Tree.get?_snoc hget, hchild]
      exact Option.some_ne_none _
  | follow _ _ _ _ _ _ _ ih =>
      refine ih ?_ hspot
      unfold linkStart
      split
      · exact habove List.nil_prefix hcurrent
      · exact hcurrent

variable {fresh : Location → Tree → Prop} {before after : Disk} {place : Location} {p : Path}

theorem Grown.isFile_of_vacant (grown : Grown before after) (hslash : p.endsWithSlash = false)
    {parent : Location} {name : String} (h : before.resolve true p = .ok (.vacant parent name))
    {content : ByteArray} {modified : Timestamp}
    (hput : after.at? (parent ++ [name]) = some (.file content modified)) :
    after.isFile p = true := by
  have hwalk := grown.walkAlong_of_vacant (resolve_eq_vacant_iff.mp h) hput rfl
  refine isFile_iff.mpr ⟨_, content, modified, resolve_eq_found_iff.mpr ⟨hwalk, ?_⟩, hput⟩
  rw [hslash]
  exact nofun

variable (adds : Adds fresh before after) (files : ∀ place t, fresh place t → t.IsFile)

include adds files

/-- A walk that ends at something now ended there before, or at the free name where this is now. -/
theorem Leads.before_of_adds {followLast : Bool} {links : Nat} {current : Location}
    {steps : List Step} (leads : Leads after.root followLast links current steps (.found place)) :
    Leads before.root followLast links current steps (.found place) ∨
      ∃ parent name, Leads before.root followLast links current steps (.vacant parent name) ∧
        place = parent ++ [name] := by
  generalize hspot : Spot.found place = spot at leads
  induction leads with
  | stop =>
      cases hspot
      exact .inl .stop
  | here hcurrent _ ih =>
      obtain ⟨children', hcurrent'⟩ := adds.directory files hcurrent
      rcases ih hspot with hfound | ⟨parent, name, hfree, hplace⟩
      · exact .inl (.here hcurrent' hfound)
      · exact .inr ⟨parent, name, .here hcurrent' hfree, hplace⟩
  | up hcurrent _ ih =>
      obtain ⟨children', hcurrent'⟩ := adds.directory files hcurrent
      rcases ih hspot with hfound | ⟨parent, name, hfree, hplace⟩
      · exact .inl (.up hcurrent' hfound)
      · exact .inr ⟨parent, name, .up hcurrent' hfree, hplace⟩
  | free => cases hspot
  | @through _ current _ name child rest _ hcurrent hshort hchild hplain hrest ih =>
      obtain ⟨children', hcurrent'⟩ := adds.directory files hcurrent
      have hat : after.at? (current ++ [name]) = some child := by
        rw [at?, Tree.get?_snoc hcurrent, hchild]
      cases hchild' : Tree.lookup name children' with
      | none =>
          have hnew : child.IsFile := by
            by_contra nofile
            obtain ⟨t', hlookup, -⟩ := adds.lookup files hcurrent hcurrent' hchild nofile
            rw [hchild'] at hlookup
            cases hlookup
          obtain ⟨rfl, rfl⟩ := hrest.of_file ⟨child, hat, hnew⟩
          cases hspot
          exact .inr ⟨current, name, .free hcurrent' hshort hchild', rfl⟩
      | some child' =>
          have hplain' : child'.linkTarget? = none := by
            rw [← Tree.get?_snoc hcurrent'] at hchild'
            obtain ⟨t, ht, hface⟩ := adds.stands trivial hchild'
            rw [hat] at ht
            cases ht
            rw [← Tree.linkTarget?_eq_of_face hface, hplain]
          rcases ih hspot with hfound | ⟨parent, last, hfree, hplace⟩
          · exact .inl (.through hcurrent' hshort hchild' hplain' hfound)
          · exact .inr ⟨parent, last, .through hcurrent' hshort hchild' hplain' hfree, hplace⟩
  | last hcurrent hshort hchild htarget hstays =>
      cases hspot
      obtain ⟨children', hcurrent'⟩ := adds.directory files hcurrent
      obtain ⟨child', hchild', hsame⟩ :=
        adds.lookup files hcurrent hcurrent' hchild (by rintro ⟨_, _, rfl⟩; cases htarget)
      exact .inl (.last hcurrent' hshort hchild' (hsame.trans htarget) hstays)
  | follow hcurrent hshort hchild htarget hgoes hsome _ ih =>
      obtain ⟨children', hcurrent'⟩ := adds.directory files hcurrent
      obtain ⟨child', hchild', hsame⟩ :=
        adds.lookup files hcurrent hcurrent' hchild (by rintro ⟨_, _, rfl⟩; cases htarget)
      have htarget' := hsame.trans htarget
      rcases ih hspot with hfound | ⟨parent, name, hfree, hplace⟩
      · exact .inl (.follow hcurrent' hshort hchild' htarget' hgoes hsome hfound)
      · exact .inr ⟨parent, name, .follow hcurrent' hshort hchild' htarget' hgoes hsome hfree,
          hplace⟩

theorem Adds.resolve_found {followLast : Bool}
    (h : after.resolve followLast p = .ok (.found place)) :
    before.resolve followLast p = .ok (.found place) ∨
      ∃ parent name, before.resolve followLast p = .ok (.vacant parent name) ∧
        place = parent ++ [name] := by
  obtain ⟨hwalk, hdirectory⟩ := resolve_eq_found_iff.mp h
  obtain ⟨hspeak, leads⟩ := walkAlong_eq_ok_iff.mp hwalk
  rw [startSteps_of_keptOn adds.toKeptOn] at leads
  rcases leads.before_of_adds adds files with hfound | ⟨parent, name, hfree, hplace⟩
  · refine .inl (resolve_eq_found_iff.mpr ⟨walkAlong_eq_ok_iff.mpr ⟨hspeak, hfound⟩, ?_⟩)
    intro hslash
    obtain ⟨children, hget⟩ := hdirectory hslash
    exact adds.directory files hget
  · exact .inr ⟨parent, name,
      resolve_eq_vacant_iff.mpr (walkAlong_eq_ok_iff.mpr ⟨hspeak, hfree⟩), hplace⟩

/-- A path to a file led to it before, or to the free name under which it was added. -/
theorem Adds.isFile (h : after.isFile p = true) : before.isFile p = true ∨
    ∃ parent name t, before.resolve true p = .ok (.vacant parent name) ∧
      fresh (parent ++ [name]) t := by
  obtain ⟨place, content, modified, hresolve, hat⟩ := isFile_iff.mp h
  rcases adds.resolve_found files hresolve with hfound | ⟨parent, name, hfree, rfl⟩
  · obtain ⟨hspeak, leads⟩ := walkAlong_eq_ok_iff.mp (resolve_eq_found_iff.mp hfound).1
    obtain ⟨t, ht⟩ := Option.ne_none_iff_exists'.mp (leads.get?_ne_none (by simp))
    obtain ⟨t', ht', hface⟩ := adds.stands trivial ht
    rw [hat] at ht'
    cases ht'
    obtain rfl := Tree.eq_file_of_face hface.symm
    exact .inl (isFile_iff.mpr ⟨place, content, modified, hfound, ht⟩)
  · exact .inr ⟨parent, name, _, hfree,
      adds.isFresh trivial hat (at?_vacant_of_resolve hfree)⟩

theorem Adds.exists_file_of_vacant {parent : Location} {name : String}
    (h : before.resolve true p = .ok (.vacant parent name)) (hfile : after.isFile p = true) :
    ∃ content modified, after.at? (parent ++ [name]) = some (.file content modified) := by
  obtain ⟨place, content, modified, hresolve, hat⟩ := isFile_iff.mp hfile
  rcases adds.resolve_found files hresolve with hfound | ⟨other, last, hvacant, rfl⟩
  · rw [h] at hfound
    cases hfound
  · rw [h] at hvacant
    cases hvacant
    exact ⟨content, modified, hat⟩

/-- A directory lists what it listed, and the names of new files in it. -/
theorem Adds.exists_list {names : List String} (h : after.list p = .ok names) :
    ∃ names', before.list p = .ok names' ∧ ∀ name ∈ names, name ∈ names' ∨
      ∃ place t, fresh (place ++ [name]) t := by
  obtain ⟨place, children, hresolve, hget, rfl⟩ := list_eq_ok_iff.mp h
  obtain ⟨hwalk, -⟩ := resolve_eq_found_iff.mp hresolve
  obtain ⟨hspeak, leads⟩ := walkAlong_eq_ok_iff.mp hwalk
  have leads' := leads.of_adds adds files hget
  rw [startSteps_of_keptOn adds.toKeptOn] at leads'
  obtain ⟨children', hget'⟩ := adds.directory files hget
  have hresolve' : before.resolve true p = .ok (.found place) :=
    resolve_eq_found_iff.mpr ⟨walkAlong_eq_ok_iff.mpr ⟨hspeak, leads'⟩, fun _ => ⟨children', hget'⟩⟩
  refine ⟨_, list_eq_ok_iff.mpr ⟨place, children', hresolve', hget', rfl⟩, fun name hname => ?_⟩
  obtain ⟨child, hchild⟩ := Tree.exists_lookup_iff.mpr hname
  rw [← Tree.get?_snoc hget] at hchild
  rcases adds.stood trivial hchild with ⟨t, hat, -⟩ | hfresh
  · rw [at?, Tree.get?_snoc hget'] at hat
    exact .inl (Tree.exists_lookup_iff.mp ⟨t, hat⟩)
  · exact .inr ⟨place, _, hfresh⟩

end DrawingDiary.Disk
