import DrawingDiary.Proofs.Disk.Beside
import DrawingDiary.Proofs.Disk.Same
import Mathlib.Logic.Basic

/-!
# What is found on a disk that has grown

A disk that has only grown since has everything under the same paths: a path leads where it
led (`Grown.resolve_found`), files are files with the same text, and a directory lists what it
listed, perhaps among other names.
-/

namespace DrawingDiary

theorem Tree.exists_lookup_iff {name : String} {children : List (String × Tree)} :
    (∃ child, lookup name children = some child) ↔ name ∈ children.map (·.1) := by
  rw [← Option.ne_none_iff_exists', Ne, lookup_eq_none_iff, not_not]

namespace Disk

variable {before after : Disk} {p : Path}

/-- A path leads where it led before. -/
theorem Grown.resolve_found (grown : Grown before after) {followLast : Bool} {place : Location}
    (h : before.resolve followLast p = .ok (.found place)) :
    after.resolve followLast p = .ok (.found place) :=
  (resolve_found_of_keptOn (fun _ _ => trivial) grown (fun _ _ => trivial) h).1

theorem Grown.isFile (grown : Grown before after) (h : before.isFile p = true) :
    after.isFile p = true := by
  obtain ⟨place, content, modified, hresolve, hat⟩ := isFile_iff.mp h
  exact isFile_iff.mpr
    ⟨place, content, modified, grown.resolve_found hresolve, grown.file trivial hat⟩

theorem Grown.list (grown : Grown before after) {names : List String}
    (h : before.list p = .ok names) :
    ∃ names', after.list p = .ok names' ∧ ∀ name ∈ names, name ∈ names' := by
  obtain ⟨place, children, hresolve, hget, rfl⟩ := list_eq_ok_iff.mp h
  obtain ⟨children', hget'⟩ := grown.directory trivial hget
  refine ⟨_, list_eq_ok_iff.mpr
    ⟨place, children', grown.resolve_found hresolve, hget', rfl⟩, fun name hname => ?_⟩
  obtain ⟨child, hchild⟩ := Tree.exists_lookup_iff.mpr hname
  obtain ⟨child', hchild', -⟩ := grown.lookup trivial hget hget' hchild
  exact Tree.exists_lookup_iff.mp ⟨child', hchild'⟩

theorem Grown.readText (grown : Grown before after) {text : String}
    (h : before.readText p = .ok text) : after.readText p = .ok text := by
  unfold Disk.readText at h ⊢
  cases hread : before.readBytes p with
  | error e =>
      rw [hread] at h
      cases h
  | ok content =>
      rw [hread] at h
      rw [readBytes_of_keptOn (fun _ _ => trivial) grown (fun _ _ => trivial) hread]
      exact h

end Disk

end DrawingDiary
