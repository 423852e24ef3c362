import DrawingDiary.Diary.Shelf
import DrawingDiary.Proofs.Naming.Month
import Mathlib.Data.List.Sort

/-!
# Grouping by month

Dated things that are grouped by month come newest first, month after month and date after
date. Since a later date has no earlier month, the groups one after the other are nothing
but all of the things sorted by date (`flatMap_days_groupByMonth`), whatever order they are
given in.
-/

namespace DrawingDiary

theorem nodup_eraseDups {α : Type} [BEq α] [LawfulBEq α] (xs : List α) : xs.eraseDups.Nodup := by
  induction hlength : xs.length using Nat.strong_induction_on generalizing xs with
  | _ length ih =>
      cases xs with
      | nil => simp
      | cons x rest =>
          subst hlength
          have hshort := List.length_filter_le (fun y => !y == x) rest
          rw [List.eraseDups_cons, List.nodup_cons]
          refine ⟨by simp, ih _ (Nat.lt_succ_of_le hshort) _ rfl⟩

def monthNames (dated : List (String × DayId)) : List String :=
  ((dated.map fun entry => Naming.monthOf entry.1).eraseDups).mergeSort fun a b => b ≤ a

def membersOf (dated : List (String × DayId)) (name : String) : List (String × DayId) :=
  (dated.filter fun entry => Naming.monthOf entry.1 == name).mergeSort fun a b => b.1 ≤ a.1

abbrev Newer (a b : String × DayId) : Prop := b.1 < a.1

section Group

variable {dated : List (String × DayId)}

theorem groupByMonth_eq (dated : List (String × DayId)) :
    groupByMonth dated =
      (monthNames dated).map fun name => ⟨name, (membersOf dated name).map (·.2)⟩ := rfl

@[simp] theorem groupByMonth_nil : groupByMonth [] = [] := by
  simp [groupByMonth]

theorem mem_monthNames {name : String} :
    name ∈ monthNames dated ↔ ∃ entry ∈ dated, Naming.monthOf entry.1 = name := by
  rw [monthNames, (List.mergeSort_perm _ _).mem_iff, List.mem_eraseDups, List.mem_map]

theorem mem_membersOf {entry : String × DayId} {name : String} :
    entry ∈ membersOf dated name ↔ entry ∈ dated ∧ Naming.monthOf entry.1 = name := by
  rw [membersOf, (List.mergeSort_perm _ _).mem_iff, List.mem_filter, beq_iff_eq]

/-- Sorting by a key that no two members share puts the keys in strict order. -/
theorem pairwise_mergeSort_of_nodup {α : Type} (key : α → String) {xs : List α}
    (distinct : (xs.map key).Nodup) :
    (xs.mergeSort fun a b => key b ≤ key a).Pairwise fun a b => key b < key a := by
  have hsorted : (xs.mergeSort fun a b => key b ≤ key a).Pairwise
      fun a b => decide (key b ≤ key a) = true :=
    List.pairwise_mergeSort (by simpa using fun a b c hab hbc => le_trans hbc hab)
      (by simpa using fun a b => le_total (key b) (key a)) xs
  have hdistinct : ((xs.mergeSort fun a b => key b ≤ key a).map key).Nodup :=
    ((List.mergeSort_perm xs _).map key).nodup_iff.mpr distinct
  rw [List.Nodup, List.pairwise_map] at hdistinct
  refine hsorted.imp₂ (fun a b hle hne => ?_) hdistinct
  exact lt_of_le_of_ne (of_decide_eq_true hle) (Ne.symm hne)

theorem pairwise_monthNames (dated : List (String × DayId)) :
    (monthNames dated).Pairwise fun newer older => older < newer :=
  pairwise_mergeSort_of_nodup id (by rw [List.map_id]; exact nodup_eraseDups _)

theorem pairwise_membersOf (distinct : (dated.map (·.1)).Nodup) (name : String) :
    (membersOf dated name).Pairwise Newer :=
  pairwise_mergeSort_of_nodup Prod.fst (distinct.sublist (List.filter_sublist.map _))

theorem pairwise_flatMap_membersOf (distinct : (dated.map (·.1)).Nodup)
    (written : ∀ entry ∈ dated, Naming.IsWrittenDate entry.1) :
    ((monthNames dated).flatMap (membersOf dated)).Pairwise Newer := by
  rw [List.pairwise_flatMap]
  refine ⟨fun name _ => pairwise_membersOf distinct name, ?_⟩
  refine (pairwise_monthNames dated).imp fun {newer older} hlater a ha b hb => ?_
  obtain ⟨hmemA, rfl⟩ := mem_membersOf.mp ha
  obtain ⟨hmemB, rfl⟩ := mem_membersOf.mp hb
  by_contra hle
  have hmonths := Naming.monthOf_le_monthOf (written a hmemA) (written b hmemB) (not_lt.mp hle)
  exact absurd hlater (not_lt.mpr hmonths)

theorem mem_flatMap_membersOf {entry : String × DayId} :
    entry ∈ (monthNames dated).flatMap (membersOf dated) ↔ entry ∈ dated := by
  simp only [List.mem_flatMap, mem_monthNames, mem_membersOf]
  constructor
  · rintro ⟨name, -, hmem, -⟩
    exact hmem
  · intro hmem
    exact ⟨_, ⟨entry, hmem, rfl⟩, hmem, rfl⟩

theorem eq_of_pairwise_of_mem_iff {α : Type} {r : α → α → Prop}
    (asymm : ∀ a b, r a b → ¬ r b a) {xs ys : List α} (hxs : xs.Pairwise r)
    (hys : ys.Pairwise r) (mem : ∀ a, a ∈ xs ↔ a ∈ ys) : xs = ys := by
  have irrefl : Std.Irrefl r := ⟨fun a h => asymm a a h h⟩
  have antisymm : Std.Antisymm r := ⟨fun a b h h' => absurd h' (asymm a b h)⟩
  exact hxs.eq_of_mem_iff hys mem

/-- Month after month, the days come newest first. -/
theorem flatMap_days_groupByMonth (distinct : (dated.map (·.1)).Nodup)
    (written : ∀ entry ∈ dated, Naming.IsWrittenDate entry.1) :
    (groupByMonth dated).flatMap (·.days) =
      (dated.mergeSort fun a b => b.1 ≤ a.1).map (·.2) := by
  have hsorted : (monthNames dated).flatMap (membersOf dated) =
      dated.mergeSort fun a b => b.1 ≤ a.1 := by
    refine eq_of_pairwise_of_mem_iff (r := Newer) (fun a b h => not_lt.mpr (le_of_lt h))
      (pairwise_flatMap_membersOf distinct written)
      (pairwise_mergeSort_of_nodup Prod.fst distinct) fun entry => ?_
    rw [mem_flatMap_membersOf, (List.mergeSort_perm _ _).mem_iff]
  rw [groupByMonth_eq, List.flatMap_map, ← hsorted, List.map_flatMap]

end Group

end DrawingDiary
