import DrawingDiary.Diary.Basic
import DrawingDiary.Proofs.Naming.Date
import Mathlib.Data.List.Find
import Mathlib.Data.List.Nodup

/-!
# Which directory each date has

A date is claimed by the first root that has a day directory of this name
(`mem_claims_iff`). Nothing else about the roots counts, so the claims of two disks are
the same when the same dates stand under each root (`claimsOn_congr`), in whatever order a
root lists them.
-/

namespace DrawingDiary.Diary

/-- Whether a root has a day directory of a date; one that cannot be listed has none. -/
def holdsDay (list : Path → Option (List String)) (isDirectory : Path → Bool) (date : String)
    (root : Path) : Bool :=
  match list root with
  | some names =>
    names.contains date && Naming.isDayName date && isDirectory (root.join date)
  | none => false

section Claims

variable {list : Path → Option (List String)} {isDirectory : Path → Bool}
  {claimed : List (String × Path)} {root : Path} {names : List String}

theorem claimsOfRoot_cons (isDirectory : Path → Bool) (claimed : List (String × Path))
    (root : Path) (name : String) (names : List String) :
    claimsOfRoot isDirectory claimed root (name :: names) =
      claimsOfRoot isDirectory
        (if Naming.isDayName name && isDirectory (root.join name) &&
            !(claimed.map (·.1)).contains name then claimed ++ [(name, root.join name)]
          else claimed) root names := rfl

/-- A root adds a claim for each of its days that no earlier root has. -/
theorem mem_claimsOfRoot_iff {date : String} {path : Path} :
    (date, path) ∈ claimsOfRoot isDirectory claimed root names ↔
      (date, path) ∈ claimed ∨ date ∉ claimed.map (·.1) ∧ path = root.join date ∧
        date ∈ names ∧ Naming.isDayName date = true ∧ isDirectory (root.join date) = true := by
  induction names generalizing claimed with
  | nil => simp [claimsOfRoot]
  | cons name names ih =>
      rw [claimsOfRoot_cons, ih]
      by_cases hname : date = name
      · subst hname
        split
        next hnew =>
          simp only [Bool.and_eq_true, Bool.not_eq_true', List.contains_eq_mem,
            decide_eq_false_iff_not] at hnew
          simp [hnew]
        next hold =>
          simp only [Bool.and_eq_true, Bool.not_eq_true', List.contains_eq_mem,
            decide_eq_false_iff_not, not_and, not_not] at hold
          refine or_congr_right (and_congr_right fun hfree => and_congr_right fun _ => ?_)
          -- the date is free, so its directory cannot count
          have hnone : ¬(Naming.isDayName date = true ∧ isDirectory (root.join date) = true) :=
            fun h => hfree (hold h)
          exact iff_of_false (fun h => hnone h.2) (fun h => hnone h.2)
      · split <;> simp [hname]

theorem nodup_claimsOfRoot (h : (claimed.map (·.1)).Nodup) (root : Path)
    (names : List String) : ((claimsOfRoot isDirectory claimed root names).map (·.1)).Nodup := by
  induction names generalizing claimed with
  | nil => exact h
  | cons name names ih =>
      rw [claimsOfRoot_cons]
      split
      next hnew =>
        simp only [Bool.and_eq_true, Bool.not_eq_true', List.contains_eq_mem,
          decide_eq_false_iff_not] at hnew
        apply ih
        rw [List.map_append]
        exact h.append (List.nodup_singleton name) (by simpa using hnew.2)
      · exact ih h

def claimedAfter (list : Path → Option (List String)) (isDirectory : Path → Bool)
    (claimed : List (String × Path)) (root : Path) : List (String × Path) :=
  match list root with
  | some names => claimsOfRoot isDirectory claimed root names
  | none => claimed

theorem claims_eq_foldl (list : Path → Option (List String)) (isDirectory : Path → Bool)
    (roots : List Path) :
    claims list isDirectory roots = roots.foldl (claimedAfter list isDirectory) [] := rfl

theorem mem_claimedAfter_iff {date : String} {path : Path} :
    (date, path) ∈ claimedAfter list isDirectory claimed root ↔
      (date, path) ∈ claimed ∨ date ∉ claimed.map (·.1) ∧ path = root.join date ∧
        holdsDay list isDirectory date root = true := by
  unfold claimedAfter holdsDay
  cases list root with
  | none => simp
  | some names => rw [mem_claimsOfRoot_iff]; simp [and_assoc]

theorem mem_keys_claimedAfter_iff {date : String} :
    date ∈ (claimedAfter list isDirectory claimed root).map (·.1) ↔
      date ∈ claimed.map (·.1) ∨ holdsDay list isDirectory date root = true := by
  simp only [List.mem_map, Prod.exists, exists_and_right, exists_eq_right,
    mem_claimedAfter_iff]
  constructor
  · intro h
    rcases h with ⟨path, hold | ⟨-, -, hday⟩⟩
    · exact .inl ⟨path, hold⟩
    · exact .inr hday
  · intro h
    rcases h with ⟨path, hold⟩ | hday
    · exact ⟨path, .inl hold⟩
    · by_cases hfree : ∃ path, (date, path) ∈ claimed
      · obtain ⟨path, hold⟩ := hfree
        exact ⟨path, .inl hold⟩
      · exact ⟨root.join date, .inr ⟨hfree, rfl, hday⟩⟩

theorem mem_foldl_claimedAfter_iff {roots : List Path} {date : String} {path : Path} :
    (date, path) ∈ roots.foldl (claimedAfter list isDirectory) claimed ↔
      (date, path) ∈ claimed ∨ date ∉ claimed.map (·.1) ∧
        ∃ root, roots.find? (holdsDay list isDirectory date) = some root ∧
          path = root.join date := by
  induction roots generalizing claimed with
  | nil => simp
  | cons root rest ih =>
      rw [List.foldl_cons, ih, mem_claimedAfter_iff, mem_keys_claimedAfter_iff]
      by_cases hday : holdsDay list isDirectory date root = true
      · simp [hday]
      · simp [hday]

/-- A date is claimed by the first root that has a day of this name. -/
theorem mem_claims_iff {roots : List Path} {date : String} {path : Path} :
    (date, path) ∈ claims list isDirectory roots ↔
      ∃ root, roots.find? (holdsDay list isDirectory date) = some root ∧
        path = root.join date := by
  rw [claims_eq_foldl, mem_foldl_claimedAfter_iff]
  simp

theorem nodup_foldl_claimedAfter (h : (claimed.map (·.1)).Nodup) (roots : List Path) :
    ((roots.foldl (claimedAfter list isDirectory) claimed).map (·.1)).Nodup := by
  induction roots generalizing claimed with
  | nil => exact h
  | cons root rest ih =>
      apply ih
      unfold claimedAfter
      split
      · exact nodup_claimsOfRoot h root _
      · exact h

theorem nodup_claims (list : Path → Option (List String)) (isDirectory : Path → Bool)
    (roots : List Path) : ((claims list isDirectory roots).map (·.1)).Nodup :=
  nodup_foldl_claimedAfter (by simp) roots

end Claims

section OnDisk

variable {disk other : Disk} {roots : List Path}

/-- Whether a root has a day directory of a date on a disk. -/
abbrev holdsDayOn (disk : Disk) (date : String) (root : Path) : Bool :=
  holdsDay (fun root => (disk.list root).toOption) disk.isDirectory date root

/-- What it takes for a root to have a day: it can be listed and names a written date that
leads to a directory. -/
theorem holdsDayOn_iff {date : String} {root : Path} :
    holdsDayOn disk date root = true ↔ Naming.IsWrittenDate date ∧
      (∃ names, disk.list root = .ok names ∧ date ∈ names) ∧
        disk.isDirectory (root.join date) = true := by
  unfold holdsDayOn holdsDay
  cases hlist : disk.list root with
  | error e => simp [hlist, Except.toOption]
  | ok names =>
      simp only [hlist, Except.toOption, Bool.and_eq_true, List.contains_eq_mem, decide_eq_true_eq,
        Naming.isDayName_iff, Except.ok.injEq, exists_eq_left']
      constructor
      · intro h
        rcases h with ⟨⟨hname, hdate⟩, hdirectory⟩
        exact ⟨hdate, hname, hdirectory⟩
      · intro h
        rcases h with ⟨hdate, hname, hdirectory⟩
        exact ⟨⟨hname, hdate⟩, hdirectory⟩

theorem mem_claimsOn_iff {date : String} {path : Path} :
    (date, path) ∈ claimsOn disk roots ↔
      ∃ root, roots.find? (holdsDayOn disk date) = some root ∧ path = root.join date := by
  rw [claimsOn, (List.mergeSort_perm _ _).mem_iff, mem_claims_iff]

theorem nodup_claimsOn (disk : Disk) (roots : List Path) :
    ((claimsOn disk roots).map (·.1)).Nodup :=
  ((List.mergeSort_perm _ _).map _).nodup_iff.mpr (nodup_claims _ _ roots)

theorem pairwise_claimsOn (disk : Disk) (roots : List Path) :
    (claimsOn disk roots).Pairwise fun a b => a.1 ≤ b.1 := by
  have htrans : ∀ a b c : String × Path,
      decide (a.1 ≤ b.1) = true → decide (b.1 ≤ c.1) = true → decide (a.1 ≤ c.1) = true := by
    intro a b c hab hbc
    exact decide_eq_true (String.le_trans (of_decide_eq_true hab) (of_decide_eq_true hbc))
  have htotal : ∀ a b : String × Path, (decide (a.1 ≤ b.1) || decide (b.1 ≤ a.1)) = true := by
    intro a b
    simpa using String.le_total a.1 b.1
  have hsorted := List.pairwise_mergeSort htrans htotal
    (claims (fun root => (disk.list root).toOption) disk.isDirectory roots)
  exact hsorted.imp of_decide_eq_true

/-- Disks on which the same dates stand under each root have the same claims. -/
theorem claimsOn_congr (same : ∀ date, ∀ root ∈ roots,
    holdsDayOn other date root = holdsDayOn disk date root) :
    claimsOn other roots = claimsOn disk roots := by
  have hmem : ∀ claim, claim ∈ claimsOn other roots ↔ claim ∈ claimsOn disk roots := by
    rintro ⟨date, path⟩
    rw [mem_claimsOn_iff, mem_claimsOn_iff, List.find?_congr (same date)]
  have hperm : (claimsOn other roots).Perm (claimsOn disk roots) :=
    (List.perm_ext_iff_of_nodup (List.Nodup.of_map _ (nodup_claimsOn other roots))
      (List.Nodup.of_map _ (nodup_claimsOn disk roots))).mpr hmem
  refine hperm.eq_of_pairwise ?_ (pairwise_claimsOn other roots) (pairwise_claimsOn disk roots)
  rintro ⟨date, path⟩ ⟨date', path'⟩ hclaim hclaim' hle hge
  obtain rfl : date = date' := String.le_antisymm hle hge
  obtain ⟨root, hroot, rfl⟩ := mem_claimsOn_iff.mp ((hmem _).mp hclaim)
  obtain ⟨root', hroot', rfl⟩ := mem_claimsOn_iff.mp hclaim'
  rw [hroot] at hroot'
  cases hroot'
  rfl

theorem mem_keys_claimsOn_iff {date : String} :
    date ∈ (claimsOn disk roots).map (·.1) ↔ ∃ root ∈ roots, holdsDayOn disk date root = true := by
  simp only [List.mem_map, Prod.exists, exists_and_right, exists_eq_right, mem_claimsOn_iff]
  constructor
  · intro h
    rcases h with ⟨_, root, hroot, -⟩
    exact ⟨root, List.mem_of_find?_eq_some hroot, List.find?_some hroot⟩
  · rintro hroot
    obtain ⟨first, hfirst⟩ := Option.isSome_iff_exists.mp (List.find?_isSome.mpr hroot)
    exact ⟨_, first, hfirst, rfl⟩

/-- On both disks a root lists the same names, in any order, and the same of them lead to
directories. -/
structure ListsSame (disk other : Disk) (root : Path) : Prop where
  names : Option.Rel List.Perm (disk.list root).toOption (other.list root).toOption
  directories : ∀ listed, disk.list root = .ok listed → ∀ name ∈ listed,
    other.isDirectory (root.join name) = disk.isDirectory (root.join name)

theorem ListsSame.holdsDayOn_eq {root : Path} (same : ListsSame disk other root)
    (date : String) : holdsDayOn other date root = holdsDayOn disk date root := by
  obtain ⟨hrel, hdirectories⟩ := same
  simp only [holdsDayOn, holdsDay]
  cases hlist : disk.list root with
  | error e =>
      rw [hlist] at hrel
      generalize (other.list root).toOption = otherNames at hrel ⊢
      cases hrel
      rfl
  | ok names =>
      rw [hlist] at hrel
      generalize (other.list root).toOption = otherNames at hrel ⊢
      cases hrel with
      | some hperm =>
          simp only [Except.toOption, List.contains_eq_mem, ← hperm.mem_iff]
          by_cases hname : date ∈ names
          · rw [hdirectories names hlist date hname]
          · simp [hname]

end OnDisk

end DrawingDiary.Diary
