import DrawingDiary.Proofs.Disk.Behind
import DrawingDiary.Proofs.Disk.Place

/-!
# The directory behind a path

A name that is joined to a path is looked for in a directory, and `Hosts` says in which one: where
the path leads or, when the path is empty and so leads nowhere itself, in the working directory.
The directory is the only one (`Hosts.unique`), stays the same when the disk grows
(`Hosts.of_grown`), and is where everything comes to that is put under a name joined to the path
(`exists_hosts_of_makeDirectory`, `exists_hosts_of_writeNewFile`, `exists_hosts_of_makeLink`,
`exists_hosts_of_removeFile`).
-/

namespace DrawingDiary

namespace Path

theorem exists_front_of_join (p : Path) {name : String} (plain : PlainName name) :
    (p.join name).isAbsolute = p.isAbsolute ∧ ∃ front,
      (p.join name).trimmed.steps = front ++ [.into name] ∧
        moving front = moving p.trimmed.steps := by
  cases hempty : p.text.isEmpty with
  | false =>
      obtain ⟨n, hsteps⟩ := p.steps_join hempty plain
      refine ⟨p.isAbsolute_join hempty plain, p.trimmed.steps ++ List.replicate n .here, ?_, ?_⟩
      · rw [hsteps, List.append_assoc]
      · rw [moving_append]
        simp [moving]
  | true =>
      obtain rfl : p = ⟨""⟩ := congrArg Path.mk (String.isEmpty_iff.mp hempty)
      have habsolute : ¬ (name.toList.head? == some '/') = true := by
        rw [beq_iff_eq]
        exact fun h => plain.no_slash (List.mem_of_head? h)
      have hjoin : (Path.mk "").join name = ⟨name⟩ := by
        rw [join, if_neg habsolute]
        simp
      refine ⟨?_, [], ?_, by decide⟩
      · rw [hjoin]
        exact Bool.eq_false_iff.mpr habsolute
      · rw [trimmed_of_not_endsWithSlash (endsWithSlash_join _ plain), hjoin, plain.steps_eq]
        rfl

end Path

namespace Tree

theorem exists_directory_of_get?_snoc {root t : Tree} {place : Location} {name : String}
    (h : root.get? (place ++ [name]) = some t) :
    ∃ children, root.get? place = some (.directory children) ∧ lookup name children = some t := by
  rw [get?_append] at h
  obtain ⟨above, habove, hchild⟩ := Option.bind_eq_some_iff.mp h
  cases above with
  | file content modified => cases hchild
  | link target => cases hchild
  | directory children =>
      refine ⟨children, habove, ?_⟩
      rw [get?_cons_directory] at hchild
      obtain ⟨child, hlookup, hself⟩ := Option.bind_eq_some_iff.mp hchild
      rwa [get?_nil, ← hlookup] at hself

theorem get?_setAt_sibling (root : Tree) (place below : Location) {name other : String}
    (hne : other ≠ name) (new : Option Tree) :
    (root.setAt (place ++ name :: below) new).get? (place ++ [other]) =
      root.get? (place ++ [other]) := by
  refine get?_setAt_of_beside root new (fun hbelow => ?_) fun habove => ?_
  · rw [List.prefix_append_right_inj] at hbelow
    exact hne (List.cons_prefix_cons.mp hbelow).1.symm
  · rw [List.prefix_append_right_inj] at habove
    exact hne (List.cons_prefix_cons.mp habove).1

end Tree

namespace Disk

open DrawingDiary.Path (Step PlainName moving)

/-- The directory in which names are looked for that are joined to the path. -/
structure Hosts (disk : Disk) (p : Path) (place : Location) : Prop where
  leads : Leads disk.root true linkLimit [] (disk.startSteps p ++ p.trimmed.steps) (.found place)
  directory : ∃ children, IsDirectoryAt disk.root place children

variable {disk before after : Disk} {p target : Path} {place place' : Location} {name : String}
  {content : ByteArray}

theorem Stands.hosts {children : List (String × Tree)} (stands : Stands disk p place children) :
    Hosts disk p place := by
  obtain ⟨-, leads⟩ := walkAlong_eq_ok_iff.mp (resolve_eq_found_iff.mp stands.resolve_eq).1
  exact ⟨leads, children, stands.directory⟩

theorem Hosts.unique (hosts : Hosts disk p place) (hosts' : Hosts disk p place') :
    place = place' :=
  Spot.found.inj (Except.ok.inj (hosts.leads.walk_eq.symm.trans hosts'.leads.walk_eq))

theorem Hosts.of_grown (hosts : Hosts before p place) (grown : Grown before after) :
    Hosts after p place := by
  obtain ⟨children, hget⟩ := hosts.directory
  refine ⟨?_, grown.directory trivial hget⟩
  rw [startSteps_of_keptOn grown]
  exact hosts.leads.of_keptOn (fun _ _ => trivial) grown trivial fun _ _ => trivial

theorem Hosts.locate_eq (hosts : Hosts disk p place) (speakable : Speakable p) :
    disk.locate p = .ok place := by
  refine locate_eq_ok_iff.mpr (resolve_eq_found_iff.mpr ⟨?_, fun _ => hosts.directory⟩)
  exact walkAlong_eq_ok_iff.mpr ⟨speakable, hosts.leads⟩

theorem exists_hosts_of_walkAlong (plain : PlainName name) {spot : Spot}
    (h : disk.walkAlong false (p.join name) = .ok spot) :
    ∃ place, Hosts disk p place ∧
      (spot = .found (place ++ [name]) ∨ spot = .vacant place name) := by
  obtain ⟨habsolute, front, hsteps, hfront⟩ := p.exists_front_of_join plain
  have hstart : disk.startSteps (p.join name) = disk.startSteps p := by
    rw [startSteps, startSteps, habsolute]
  obtain ⟨-, leads⟩ := walkAlong_eq_ok_iff.mp h
  rw [hstart, hsteps, ← List.append_assoc] at leads
  obtain ⟨place, children, left, hfirst, hget, hlast⟩ := leads.exists_last
  refine ⟨place, ⟨hfirst.of_moving hget ?_, children, hget⟩, eq_of_walk_last hget hlast⟩
  rw [Path.moving_append, Path.moving_append, hfront]

theorem exists_hosts_of_resolve (plain : PlainName name) {spot : Spot}
    (h : disk.resolve false (p.join name) = .ok spot) :
    ∃ place, Hosts disk p place ∧
      (spot = .found (place ++ [name]) ∨ spot = .vacant place name) := by
  rw [resolve_of_not_endsWithSlash (p.endsWithSlash_join plain)] at h
  exact exists_hosts_of_walkAlong plain h

theorem hosts_of_vacant (plain : PlainName name) {parent : Location} {last : String}
    (h : disk.resolve false (p.join name) = .ok (.vacant parent last)) :
    Hosts disk p parent ∧ last = name ∧ disk.at? (parent ++ [name]) = none := by
  obtain ⟨place, hosts, hspot⟩ := exists_hosts_of_resolve plain h
  rcases hspot with hspot | hspot
  · cases hspot
  · cases hspot
    exact ⟨hosts, rfl, at?_vacant_of_resolve h⟩

/-- A directory is made in the directory of the path, and stands there empty. -/
theorem exists_hosts_of_makeDirectory (plain : PlainName name)
    (h : before.makeDirectory (p.join name) = .ok after) :
    ∃ place, Hosts before p place ∧ before.at? (place ++ [name]) = none ∧
      after = before.setAt (place ++ [name]) (some (.directory [])) ∧
      Stands after (p.join name) (place ++ [name]) [] := by
  obtain ⟨parent, last, hwalk, rfl⟩ := makeDirectory_eq_ok_iff.mp h
  obtain ⟨hresolve, hget⟩ := resolve_of_vacant hwalk
  rw [← resolve_of_not_endsWithSlash (p.endsWithSlash_join plain)] at hwalk
  obtain ⟨hosts, rfl, free⟩ := hosts_of_vacant plain hwalk
  exact ⟨parent, hosts, free, rfl, hresolve, hget⟩

/-- A new file comes to the directory of the path. -/
theorem exists_hosts_of_writeNewFile (plain : PlainName name)
    (h : before.writeNewFile (p.join name) content = .ok after) :
    ∃ place, Hosts before p place ∧ before.at? (place ++ [name]) = none ∧
      after = before.putFile (place ++ [name]) content := by
  obtain ⟨parent, last, hresolve, -, rfl⟩ := writeNewFile_eq_ok_iff.mp h
  obtain ⟨hosts, rfl, free⟩ := hosts_of_vacant plain hresolve
  exact ⟨parent, hosts, free, rfl⟩

/-- A new link comes to the directory of the path. -/
theorem exists_hosts_of_makeLink (plain : PlainName name)
    (h : before.makeLink (p.join name) target = .ok after) :
    ∃ place, Hosts before p place ∧ before.at? (place ++ [name]) = none ∧
      after = before.setAt (place ++ [name]) (some (.link target)) := by
  obtain ⟨parent, last, hresolve, -, rfl⟩ := makeLink_eq_ok_iff.mp h
  obtain ⟨hosts, rfl, free⟩ := hosts_of_vacant plain hresolve
  exact ⟨parent, hosts, free, rfl⟩

/-- What is removed as a file is removed from the directory of the path. -/
theorem exists_hosts_of_removeFile (plain : PlainName name)
    (h : before.removeFile (p.join name) = .ok after) :
    ∃ place, Hosts before p place ∧ after = before.setAt (place ++ [name]) none := by
  unfold removeFile at h
  obtain ⟨spot, hresolve, hremove⟩ := bind_eq_ok_iff.mp h
  obtain ⟨place, hosts, hspot⟩ := exists_hosts_of_resolve plain hresolve
  rcases hspot with rfl | rfl
  · refine ⟨place, hosts, ?_⟩
    simp only at hremove
    split at hremove
    · exact absurd hremove throw_ne_ok
    · exact (pure_eq_ok_iff.mp hremove).symm
  · exact absurd hremove throw_ne_ok

theorem Hosts.at?_setAt (hosts : Hosts disk p place) (name : String) (new : Tree) :
    (disk.setAt (place ++ [name]) (some new)).at? (place ++ [name]) = some new := by
  obtain ⟨children, hget⟩ := hosts.directory
  exact Tree.get?_setAt_snoc hget name new

theorem adds_of_makeLink (h : before.makeLink p target = .ok after) :
    Adds (fun _ t => t = .link target) before after := by
  obtain ⟨parent, name, hresolve, -, rfl⟩ := makeLink_eq_ok_iff.mp h
  obtain ⟨children, hget, -, free⟩ :=
    (walkAlong_eq_ok_iff.mp (resolve_eq_vacant_iff.mp hresolve)).2.vacant
  have put : Adds (fun other t => other = parent ++ [name] ∧ t = .link target) before
      (before.setAt (parent ++ [name]) (some (.link target))) := adds_put hget free rfl rfl rfl
  exact put.mono (fun _ h => h) fun _ _ _ fresh => fresh.2

end Disk

end DrawingDiary
