import DrawingDiary.Proofs.Disk.Same
import DrawingDiary.Proofs.Disk.Standing

/-!
# What is new on a disk

`AddsOn kept fresh before after` says of the kept places that what stood there still does and
that whatever stands there now stood there before or is `fresh`. Like `KeptOn` it is a
preorder, so what each of many changes may add, all of them may (`AddsOn.trans`). When only
files are added, every path to a directory was a path to this directory before
(`Leads.of_adds`).
-/

namespace DrawingDiary

def Tree.IsFile (t : Tree) : Prop := ∃ content modified, t = .file content modified

theorem Tree.mem_of_lookup {name : String} {children : List (String × Tree)} {t : Tree}
    (h : lookup name children = some t) : (name, t) ∈ children := by
  induction children with
  | nil => cases h
  | cons entry rest ih =>
      obtain ⟨key, old⟩ := entry
      rw [lookup] at h
      split at h
      next heq =>
        cases h
        rw [heq]
        exact List.mem_cons_self
      · exact List.mem_cons_of_mem _ (ih h)

def Tree.PlainNames (t : Tree) : Prop :=
  ∀ place below, t.get? place = some below → ∀ name ∈ place, Path.PlainName name

namespace Tree

theorem plainNames_file (content : ByteArray) (modified : Timestamp) :
    PlainNames (.file content modified) := by
  rintro (_ | ⟨name, rest⟩) below h
  · simp
  · cases h

theorem plainNames_link (target : Path) : PlainNames (.link target) := by
  rintro (_ | ⟨name, rest⟩) below h
  · simp
  · cases h

theorem plainNames_nil : PlainNames (.directory []) := by
  rintro (_ | ⟨name, rest⟩) below h
  · simp
  · cases h

theorem PlainNames.cons {name : String} {t : Tree} {children : List (String × Tree)}
    (plain : Path.PlainName name) (first : PlainNames t)
    (others : PlainNames (.directory children)) :
    PlainNames (.directory ((name, t) :: children)) := by
  rintro (_ | ⟨next, rest⟩) below h
  · simp
  rw [get?_cons_directory, lookup] at h
  split at h
  next heq => exact List.forall_mem_cons.mpr ⟨heq ▸ plain, first rest below h⟩
  next =>
    refine others (next :: rest) below ?_
    rwa [get?_cons_directory]

end Tree

namespace Disk

open DrawingDiary.Path (Step PlainName)

/-- What stood at the kept places still does, and only fresh things have come to them. -/
structure AddsOn (kept : Location → Prop) (fresh : Location → Tree → Prop) (before after : Disk) :
    Prop extends KeptOn kept before after where
  stood : ∀ {place : Location} {t : Tree}, kept place → after.at? place = some t →
    (∃ t', before.at? place = some t' ∧ t'.face = t.face) ∨ fresh place t.face

/-- What stood anywhere still does, and only fresh things have come anywhere. -/
abbrev Adds : (Location → Tree → Prop) → Disk → Disk → Prop := AddsOn fun _ => True

variable {kept : Location → Prop} {fresh : Location → Tree → Prop}
  {before between after disk : Disk} {place : Location} {p : Path}
  {children : List (String × Tree)} {name : String} {t : Tree}

@[refl] theorem AddsOn.refl (disk : Disk) : AddsOn kept fresh disk disk where
  toKeptOn := .refl disk
  stood _ h := .inl ⟨_, h, rfl⟩

theorem AddsOn.trans (first : AddsOn kept fresh before between)
    (second : AddsOn kept fresh between after) : AddsOn kept fresh before after where
  toKeptOn := first.toKeptOn.trans second.toKeptOn
  stood hkept h := by
    rcases second.stood hkept h with ⟨t', h', hface⟩ | hfresh
    · rcases first.stood hkept h' with ⟨t'', h'', hface'⟩ | hfresh
      · exact .inl ⟨t'', h'', hface'.trans hface⟩
      · exact .inr (hface ▸ hfresh)
    · exact .inr hfresh

theorem AddsOn.mono {fewer : Location → Prop} {wider : Location → Tree → Prop}
    (h : AddsOn kept fresh before after) (sub : ∀ place, fewer place → kept place)
    (sup : ∀ place t, fewer place → fresh place t → wider place t) :
    AddsOn fewer wider before after where
  toKeptOn := h.toKeptOn.mono sub
  stood hfewer hat := (h.stood (sub _ hfewer) hat).imp_right (sup _ _ hfewer)

theorem AddsOn.isFresh (h : AddsOn kept fresh before after) (hkept : kept place)
    (hat : after.at? place = some t) (free : before.at? place = none) : fresh place t.face := by
  rcases h.stood hkept hat with ⟨t', hat', -⟩ | hfresh
  · rw [free] at hat'
    cases hat'
  · exact hfresh

theorem addsOn_of_shrunk (h : KeptOn kept before after) (shrunk : Grown after before) :
    AddsOn kept fresh before after where
  toKeptOn := h
  stood _ hat := .inl (shrunk.stands trivial hat)

/-- To put a file, a link or an empty directory under a free name adds nothing else. -/
theorem adds_put (hget : IsDirectoryAt before.root place children)
    (free : Tree.lookup name children = none) (leaf : t.face = t)
    (workingDirectory : after.workingDirectory = before.workingDirectory)
    (root : after.root = before.root.setAt (place ++ [name]) (some t)) :
    Adds (fun other new => other = place ++ [name] ∧ new = t) before after where
  workingDirectory_eq := workingDirectory
  stands := by
    intro other t' _ hat
    have hfree : before.at? (place ++ [name]) = none := by rw [at?, Tree.get?_snoc hget, free]
    rw [at?, root]
    exact (grown_setAt hfree (some t)).stands trivial hat
  stood := by
    intro other t' _ hat
    rw [at?, root] at hat
    by_cases hbelow : (place ++ [name]) <+: other
    · obtain ⟨rest, rfl⟩ := hbelow
      rw [Tree.get?_append, Tree.get?_setAt_snoc hget name t, Option.bind_some] at hat
      cases rest with
      | nil =>
          rw [Tree.get?_nil] at hat
          cases hat
          exact .inr ⟨List.append_nil _, leaf⟩
      | cons next rest =>
          rw [← leaf] at hat
          cases t <;> cases hat
    · exact .inl ((keptOn_of_setAt before (place ++ [name]) (some t)).stands hbelow hat)

theorem GrownIn.adds (grown : GrownIn place before after)
    (hget : IsDirectoryAt before.root place children) :
    Adds (fun other _ => place <+: other) before after where
  toKeptOn := grown.grown
  stood := by
    intro other t _ hat
    by_cases hbelow : place <+: other
    · exact .inr hbelow
    by_cases habove : other <+: place
    · cases hstood : before.at? other with
      | none =>
          rw [IsDirectoryAt, Tree.get?_eq_none_of_prefix habove hstood] at hget
          cases hget
      | some t' =>
          obtain ⟨t'', hat'', hface⟩ := grown.grown.stands trivial hstood
          rw [hat] at hat''
          cases hat''
          exact .inl ⟨t', rfl, hface.symm⟩
    · rw [grown.beside.at?_eq hbelow habove] at hat
      exact .inl ⟨t, hat, rfl⟩

section Names

/-- Every name on the disk is one step into a directory. -/
def WellNamed (disk : Disk) : Prop :=
  ∀ place t, disk.at? place = some t → ∀ name ∈ place, PlainName name

theorem WellNamed.of_grown (wellNamed : WellNamed after) (grown : Grown before after) :
    WellNamed before := by
  intro place t hat
  obtain ⟨t', hat', -⟩ := grown.stands trivial hat
  exact wellNamed place t' hat'

theorem Adds.wellNamed (adds : Adds fresh before after)
    (plain : ∀ place t, fresh place t → ∀ name ∈ place, PlainName name)
    (wellNamed : WellNamed before) : WellNamed after := by
  intro place t hat
  rcases adds.stood trivial hat with ⟨t', hat', -⟩ | hfresh
  · exact wellNamed place t' hat'
  · exact plain place _ hfresh

theorem WellNamed.list (wellNamed : WellNamed disk) {names : List String}
    (h : disk.list p = .ok names) : ∀ name ∈ names, PlainName name := by
  obtain ⟨place, children, -, hget, rfl⟩ := list_eq_ok_iff.mp h
  intro name hname
  have hsome : Tree.lookup name children ≠ none :=
    fun hnone => Tree.lookup_eq_none_iff.mp hnone hname
  obtain ⟨child, hchild⟩ := Option.ne_none_iff_exists'.mp hsome
  rw [← Tree.get?_snoc hget] at hchild
  exact wellNamed _ child hchild name (by simp)

theorem wellNamed_of_plainNames (h : disk.root.PlainNames) : WellNamed disk := h

end Names

section Files

variable {followLast : Bool} {links : Nat} {current : Location} {steps : List Step}

theorem Leads.isDirectoryAt_start {root : Tree}
    (leads : Leads root followLast links current steps (.found place))
    (hget : IsDirectoryAt root place children) :
    ∃ children, IsDirectoryAt root current children := by
  cases leads with
  | stop => exact ⟨_, hget⟩
  | here hcurrent | up hcurrent | through hcurrent | last hcurrent | follow hcurrent =>
      exact ⟨_, hcurrent⟩

variable (adds : Adds fresh before after) (files : ∀ place t, fresh place t → t.IsFile)

include adds files

theorem Adds.exists_at? (hat : after.at? place = some t) (nofile : ¬ t.IsFile) :
    ∃ t', before.at? place = some t' ∧ t'.face = t.face := by
  rcases adds.stood trivial hat with hstood | hfresh
  · exact hstood
  · obtain ⟨content, modified, hface⟩ := files _ _ hfresh
    exact absurd ⟨content, modified, Tree.eq_file_of_face hface⟩ nofile

theorem Adds.directory (hget : IsDirectoryAt after.root place children) :
    ∃ children', IsDirectoryAt before.root place children' := by
  obtain ⟨t', hat', hface⟩ := adds.exists_at? files hget (by rintro ⟨_, _, h⟩; cases h)
  obtain ⟨children', rfl⟩ := Tree.exists_directory_of_face hface
  exact ⟨children', hat'⟩

theorem Adds.lookup {children' : List (String × Tree)}
    (hget : IsDirectoryAt after.root place children)
    (hget' : IsDirectoryAt before.root place children')
    (hchild : Tree.lookup name children = some t) (nofile : ¬ t.IsFile) :
    ∃ t', Tree.lookup name children' = some t' ∧ t'.linkTarget? = t.linkTarget? := by
  rw [← Tree.get?_snoc hget] at hchild
  obtain ⟨t', hat', hface⟩ := adds.exists_at? files hchild nofile
  rw [at?, Tree.get?_snoc hget'] at hat'
  exact ⟨t', hat', Tree.linkTarget?_eq_of_face hface⟩

/-- A walk to a directory led there before the files were added. -/
theorem Leads.of_adds (leads : Leads after.root followLast links current steps (.found place))
    (hget : IsDirectoryAt after.root place children) :
    Leads before.root followLast links current steps (.found place) := by
  generalize hspot : Spot.found place = spot at leads ⊢
  induction leads with
  | stop => exact .stop
  | here hcurrent _ ih =>
      obtain ⟨children', hcurrent'⟩ := adds.directory files hcurrent
      exact .here hcurrent' (ih hspot)
  | up hcurrent _ ih =>
      obtain ⟨children', hcurrent'⟩ := adds.directory files hcurrent
      exact .up hcurrent' (ih hspot)
  | free => cases hspot
  | through hcurrent hshort hchild hplain hrest ih =>
      obtain ⟨children', hcurrent'⟩ := adds.directory files hcurrent
      -- the walk goes on behind the child, so the child is a directory
      obtain ⟨_, hbelow⟩ := (hspot ▸ hrest).isDirectoryAt_start hget
      rw [IsDirectoryAt, Tree.get?_snoc hcurrent, hchild] at hbelow
      cases hbelow
      obtain ⟨child', hchild', hsame⟩ :=
        adds.lookup files hcurrent hcurrent' hchild (by rintro ⟨_, _, h⟩; cases h)
      exact .through hcurrent' hshort hchild' (hsame.trans hplain) (ih hspot)
  | last hcurrent _ hchild htarget =>
      cases hspot
      rw [IsDirectoryAt, Tree.get?_snoc hcurrent, hchild] at hget
      cases hget
      cases htarget
  | follow hcurrent hshort hchild htarget hgoes hsome _ ih =>
      obtain ⟨children', hcurrent'⟩ := adds.directory files hcurrent
      obtain ⟨child', hchild', hsame⟩ :=
        adds.lookup files hcurrent hcurrent' hchild (by rintro ⟨_, _, rfl⟩; cases htarget)
      exact .follow hcurrent' hshort hchild' (hsame.trans htarget) hgoes hsome (ih hspot)

/-- A directory that a path leads to after files were added is where it led before. -/
theorem exists_stands_of_adds (stands : Stands after p place children) :
    ∃ children', Stands before p place children' := by
  obtain ⟨hwalk, -⟩ := resolve_eq_found_iff.mp stands.resolve_eq
  obtain ⟨hspeak, leads⟩ := walkAlong_eq_ok_iff.mp hwalk
  have leads' := leads.of_adds adds files stands.directory
  rw [startSteps_of_keptOn adds.toKeptOn] at leads'
  obtain ⟨children', hget⟩ := adds.directory files stands.directory
  exact ⟨children', resolve_eq_found_iff.mpr
    ⟨walkAlong_eq_ok_iff.mpr ⟨hspeak, leads'⟩, fun _ => ⟨children', hget⟩⟩, hget⟩

end Files

end Disk

end DrawingDiary
