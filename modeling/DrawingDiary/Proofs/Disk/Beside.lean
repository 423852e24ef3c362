import DrawingDiary.Proofs.Disk.Kept

/-!
# What a change leaves alone in full

`KeptOn` says of a directory no more than that it is still one. Beside the place of a change
more is true: what stands neither above nor at nor below it is the same tree as before, with
all that it holds (`agreeBeside_setAt`). And a name that was free in a directory becomes its
last child (`assign_append`).
-/

namespace DrawingDiary

namespace Tree

section Children

variable {name : String} {children : List (String × Tree)}

/-- What is not among some children is assigned behind them. -/
theorem assign_append (h : lookup name children = none) (new : Option Tree)
    (more : List (String × Tree)) :
    assign name new (children ++ more) = children ++ assign name new more := by
  induction children with
  | nil => rfl
  | cons entry rest ih =>
      obtain ⟨key, old⟩ := entry
      rw [lookup] at h
      split at h
      · cases h
      next hne => simp [assign, hne, ih h]

theorem lookup_append (name : String) (children more : List (String × Tree)) :
    lookup name (children ++ more) = (lookup name children).or (lookup name more) := by
  induction children with
  | nil => rfl
  | cons entry rest ih =>
      obtain ⟨key, old⟩ := entry
      rw [List.cons_append, lookup, lookup]
      split
      · rfl
      · exact ih

theorem lookup_eq_none_iff : lookup name children = none ↔ name ∉ children.map (·.1) := by
  induction children with
  | nil => simp [lookup]
  | cons entry rest ih =>
      obtain ⟨key, old⟩ := entry
      rw [lookup]
      by_cases heq : key = name
      · simp [heq]
      · simp [heq, ih, Ne.symm heq]

/-- What is put behind children under a free name has a name of its own. -/
theorem nodup_names_append (distinct : (children.map (·.1)).Nodup)
    (free : lookup name children = none) (t : Tree) :
    ((children ++ [(name, t)]).map (·.1)).Nodup := by
  rw [List.map_append]
  refine List.nodup_append.mpr ⟨distinct, by simp, fun key hkey other hother hsame => ?_⟩
  obtain rfl := List.mem_singleton.mp hother
  exact lookup_eq_none_iff.mp free (hsame ▸ hkey)

theorem lookup_eq_some_of_mem {t : Tree} (distinct : (children.map (·.1)).Nodup)
    (h : (name, t) ∈ children) : lookup name children = some t := by
  induction children with
  | nil => cases h
  | cons entry rest ih =>
      obtain ⟨key, old⟩ := entry
      rw [List.map_cons, List.nodup_cons] at distinct
      rw [lookup]
      rcases List.mem_cons.mp h with hfirst | hrest
      · cases hfirst
        exact if_pos rfl
      · have hkey : name ∈ rest.map (·.1) := List.mem_map_of_mem hrest
        have hne : key ≠ name := fun e => distinct.1 (e ▸ hkey)
        rw [if_neg hne]
        exact ih distinct.2 hrest

end Children

end Tree

namespace Disk

/-- Beside the place the two disks hold the same. -/
structure AgreeBeside (place : Location) (before after : Disk) : Prop where
  workingDirectory_eq : after.workingDirectory = before.workingDirectory
  at?_eq : ∀ {other : Location}, ¬ place <+: other → ¬ other <+: place →
    after.at? other = before.at? other

variable {place : Location} {before between after : Disk}

@[refl] theorem AgreeBeside.refl (place : Location) (disk : Disk) : AgreeBeside place disk disk :=
  ⟨rfl, fun _ _ => rfl⟩

theorem AgreeBeside.trans (first : AgreeBeside place before between)
    (second : AgreeBeside place between after) : AgreeBeside place before after where
  workingDirectory_eq := second.workingDirectory_eq.trans first.workingDirectory_eq
  at?_eq below above := (second.at?_eq below above).trans (first.at?_eq below above)

/-- The later disk has all that the earlier one has, and beside the place nothing more. -/
structure GrownIn (place : Location) (before after : Disk) : Prop where
  beside : AgreeBeside place before after
  grown : Grown before after

@[refl] theorem GrownIn.refl (place : Location) (disk : Disk) : GrownIn place disk disk :=
  ⟨.refl place disk, .refl disk⟩

theorem GrownIn.trans (first : GrownIn place before between)
    (second : GrownIn place between after) : GrownIn place before after :=
  ⟨first.beside.trans second.beside, first.grown.trans second.grown⟩

/-- A change at or below a place leaves alone all that is beside it. -/
theorem agreeBeside_setAt {changed : Location} (h : place <+: changed) (disk : Disk)
    (new : Option Tree) : AgreeBeside place disk (disk.setAt changed new) where
  workingDirectory_eq := rfl
  at?_eq := by
    intro other notBelow notAbove
    refine Tree.get?_setAt_of_beside disk.root new (fun hbelow => notBelow (h.trans hbelow)) ?_
    intro habove
    rcases List.prefix_or_prefix_of_prefix h habove with hother | hother
    · exact notBelow hother
    · exact notAbove hother

theorem grown_of_removed (disk : Disk) (place : Location) :
    Grown (disk.setAt place none) disk where
  workingDirectory_eq := rfl
  stands := by
    intro other t _ hat
    by_cases hroot : place = []
    · subst hroot
      refine ⟨t, ?_, rfl⟩
      cases htree : disk.root <;> simpa [at?, setAt, htree, Tree.setAt] using hat
    · by_cases hbelow : place <+: other
      · rw [at?, setAt, Tree.get?_eq_none_of_prefix hbelow (Tree.get?_setAt_none _ hroot)] at hat
        cases hat
      · exact (keptOn_of_setAt disk place none).stands hbelow hat

end Disk

end DrawingDiary
