import DrawingDiary.Diary.Access
import DrawingDiary.Proofs.Diary.Months
import DrawingDiary.Proofs.Diary.Refresh
import Mathlib

/-!
# The months of a diary and its days

A diary groups its days by month only when a refresh adds, moves or removes a day. This is
enough: a refresh that does none of it leaves the very same days (`days_adopt_of_unchanged`),
so in every diary that calls lead to the months are those of the days
(`Reached.months_eq`). `Reached.monthsMatchDays` says what this means for the months, and
that they list the days in the order in which all days are listed.
-/

namespace DrawingDiary.Diary

/-- The days are remembered by date, all of them under written dates. -/
structure Dated (diary : Diary) : Prop where
  sorted : diary.days.Pairwise fun a b => a.1 < b.1
  written : ∀ entry ∈ diary.days, Naming.IsWrittenDate entry.1

section Adopt

variable {diary : Diary} {view : View} {claims : List (String × Path)}

theorem months_adopt (diary : Diary) (claims : List (String × Path)) :
    (diary.adopt claims).months =
      if diary.changedBy claims then groupByMonth (diary.adopt claims).days else diary.months :=
  rfl

theorem changedBy_eq_false_iff :
    diary.changedBy claims = false ↔ (∀ claim ∈ claims, ∃ id, diary.kept? claim = some id) ∧
      ∀ entry ∈ diary.days, entry.1 ∈ claims.map (·.1) := by
  simp [changedBy, ← Option.ne_none_iff_exists', and_comm]

theorem sorted_settleClaims (diary : Diary) (shelf : Shelf)
    (sorted : claims.Pairwise fun a b => a.1 < b.1) :
    (settleClaims diary shelf claims).2.Pairwise fun a b => a.1 < b.1 := by
  have hkeys := List.pairwise_map.mpr sorted
  rw [← keys_settleClaims diary shelf] at hkeys
  exact List.pairwise_map.mp hkeys

/-- Claims that add, move and remove nothing leave the very same days. -/
theorem days_adopt_of_unchanged (dated : diary.Dated)
    (sorted : claims.Pairwise fun a b => a.1 < b.1)
    (unchanged : diary.changedBy claims = false) : (diary.adopt claims).days = diary.days := by
  obtain ⟨hkept, hclaimed⟩ := changedBy_eq_false_iff.mp unchanged
  have hsub : ∀ entry ∈ (diary.adopt claims).days, entry ∈ diary.days := by
    rintro ⟨date, id⟩ hmem
    obtain ⟨path, hclaim, hday | ⟨hnone, -⟩⟩ := mem_settleClaims hmem
    · exact mem_of_kept? hday
    · obtain ⟨id, hsome⟩ := hkept _ hclaim
      rw [hnone] at hsome
      cases hsome
  have hnodup : (diary.days.map (·.1)).Nodup := (List.pairwise_map.mpr dated.sorted).nodup
  refine eq_of_pairwise_of_mem_iff (r := fun a b => a.1 < b.1) (fun a b h => not_lt.mpr h.le)
    (sorted_settleClaims diary diary.shelf sorted) dated.sorted fun entry =>
      ⟨hsub entry, fun hmem => ?_⟩
  -- the date has a day after the claims, and before them it had no other
  have hkey := hclaimed entry hmem
  rw [← keys_settleClaims diary diary.shelf, List.mem_map] at hkey
  obtain ⟨other, hother, hdate⟩ := hkey
  rw [← List.inj_on_of_nodup_map hnodup (hsub other hother) hmem hdate]
  exact hother

theorem pairwise_lt_claimsOn (disk : Disk) (roots : List Path) :
    (claimsOn disk roots).Pairwise fun a b => a.1 < b.1 := by
  have hdistinct := List.pairwise_map.mp (nodup_claimsOn disk roots)
  exact (pairwise_claimsOn disk roots).imp₂ (fun _ _ hle hne => lt_of_le_of_ne hle hne) hdistinct

theorem Dated.refresh (dated : diary.Dated) (view : View) : (diary.refresh view).Dated := by
  by_cases isOpen : diary.gate.isOpen view.now = true
  · refine ⟨?_, ?_⟩
    · rw [days_refresh isOpen]
      exact sorted_settleClaims _ _ (pairwise_lt_claimsOn _ _)
    · intro entry hmem
      exact ((mem_dates_refresh_iff isOpen).mp (List.mem_map_of_mem hmem)).1
  · rw [refresh_eq, if_neg isOpen]
    exact dated

theorem months_refresh (dated : diary.Dated) (months : diary.months = groupByMonth diary.days)
    (view : View) : (diary.refresh view).months = groupByMonth (diary.refresh view).days := by
  rw [refresh_eq]
  split
  · change (diary.adopt (claimsOn view.disk diary.roots)).months =
      groupByMonth (diary.adopt (claimsOn view.disk diary.roots)).days
    rw [months_adopt]
    split
    · rfl
    next unchanged =>
      rw [days_adopt_of_unchanged dated (pairwise_lt_claimsOn _ _) (by simpa using unchanged)]
      exact months
  · exact months

end Adopt

section Reached

variable {roots : List Path} {settings : DaySettings} {cooldown : Nat} {diary : Diary}

theorem Reached.dated (reached : Reached roots settings cooldown diary) : diary.Dated := by
  induction reached with
  | new => exact ⟨List.Pairwise.nil, fun _ h => by cases h⟩
  | refresh view _ ih => exact ih.refresh view
  | callDay view id call _ ih => exact ⟨ih.sorted, ih.written⟩

theorem Reached.months_eq (reached : Reached roots settings cooldown diary) :
    diary.months = groupByMonth diary.days := by
  induction reached with
  | new => exact groupByMonth_nil.symm
  | refresh view reached ih => exact months_refresh reached.dated ih view
  | callDay view id call _ ih => exact ih

theorem WellFormed.nodup_ids (wellFormed : diary.WellFormed) :
    (diary.days.map (·.2)).Nodup := by
  have hkeys := wellFormed.nodup
  rw [List.Nodup, List.pairwise_map] at hkeys ⊢
  refine hkeys.imp_of_mem fun {a b} ha hb hne hid => hne ?_
  rw [← (wellFormed.stands ha).2, ← (wellFormed.stands hb).2, hid]

/-- The months of a diary and its days: the days of the months are the remembered days,
each of them once; the months come newest first, and so do the days in each of them; and
no month is without days or has a day of another month. -/
structure MonthsMatchDays (diary : Diary) : Prop where
  same_days : (diary.months.flatMap (·.days)).Perm (diary.days.map (·.2))
  nodup : (diary.months.flatMap (·.days)).Nodup
  distinct : (diary.months.map (·.name)).Nodup
  descending : diary.months.Pairwise fun newer older => older.name < newer.name
  nonempty : ∀ month ∈ diary.months, month.days ≠ []
  of_month : ∀ month ∈ diary.months, ∀ id ∈ month.days,
    Naming.monthOf (diary.shelf.day id).date = month.name
  days_descending : ∀ month ∈ diary.months,
    month.days.Pairwise fun newer older =>
      (diary.shelf.day older).date < (diary.shelf.day newer).date

theorem Reached.flatMap_days_months (reached : Reached roots settings cooldown diary) :
    diary.months.flatMap (·.days) = diary.newestFirst := by
  rw [reached.months_eq]
  exact flatMap_days_groupByMonth reached.wellFormed.nodup reached.dated.written

theorem Reached.pairwise_months (reached : Reached roots settings cooldown diary) :
    diary.months.Pairwise fun newer older => older.name < newer.name := by
  rw [reached.months_eq, groupByMonth_eq, List.pairwise_map]
  exact pairwise_monthNames diary.days

theorem Reached.exists_membersOf (reached : Reached roots settings cooldown diary)
    {month : Month} (hmonth : month ∈ diary.months) :
    month.name ∈ monthNames diary.days ∧
      month.days = (membersOf diary.days month.name).map (·.2) := by
  rw [reached.months_eq, groupByMonth_eq, List.mem_map] at hmonth
  obtain ⟨name, hname, rfl⟩ := hmonth
  exact ⟨hname, rfl⟩

theorem Reached.monthsMatchDays (reached : Reached roots settings cooldown diary) :
    diary.MonthsMatchDays where
  same_days := by
    rw [reached.flatMap_days_months]
    exact (List.mergeSort_perm _ _).map _
  nodup := by
    rw [reached.flatMap_days_months]
    exact ((List.mergeSort_perm _ _).map _).nodup_iff.mpr reached.wellFormed.nodup_ids
  distinct := (List.pairwise_map.mpr reached.pairwise_months).imp ne_of_gt
  descending := reached.pairwise_months
  nonempty := by
    intro month hmonth
    obtain ⟨hname, hdays⟩ := reached.exists_membersOf hmonth
    obtain ⟨entry, hentry, hmonthOf⟩ := mem_monthNames.mp hname
    rw [hdays]
    exact List.ne_nil_of_mem (List.mem_map_of_mem (mem_membersOf.mpr ⟨hentry, hmonthOf⟩))
  of_month := by
    intro month hmonth id hid
    obtain ⟨-, hdays⟩ := reached.exists_membersOf hmonth
    rw [hdays] at hid
    obtain ⟨entry, hentry, rfl⟩ := List.mem_map.mp hid
    obtain ⟨hmem, hmonthOf⟩ := mem_membersOf.mp hentry
    rw [(reached.wellFormed.stands hmem).2, hmonthOf]
  days_descending := by
    intro month hmonth
    obtain ⟨-, hdays⟩ := reached.exists_membersOf hmonth
    rw [hdays, List.pairwise_map]
    refine (pairwise_membersOf reached.wellFormed.nodup month.name).imp_of_mem ?_
    intro newer older hnewer holder hlt
    rw [(reached.wellFormed.stands (mem_membersOf.mp hnewer).1).2,
      (reached.wellFormed.stands (mem_membersOf.mp holder).1).2]
    exact hlt

/-- In every diary that calls lead to, the months match the days, and when all days are
listed they come as the months have them after the refresh, or as the months had them
before when the refresh changes no day. -/
theorem Reached.months_list_days (reached : Reached roots settings cooldown diary) :
    diary.MonthsMatchDays ∧ ∀ view,
      (daysReversed view diary).result =
          some ((daysReversed view diary).state.months.flatMap (·.days)) ∧
        ((daysReversed view diary).state.days = diary.days →
          (daysReversed view diary).result = some (diary.months.flatMap (·.days))) := by
  refine ⟨reached.monthsMatchDays, fun view => ?_⟩
  have hstate : (daysReversed view diary).state = diary.refresh view := rfl
  have hresult : (daysReversed view diary).result = some (diary.refresh view).newestFirst := rfl
  rw [hresult, hstate]
  refine ⟨congrArg some (reached.refresh view).flatMap_days_months.symm, fun hdays => ?_⟩
  rw [reached.flatMap_days_months, newestFirst, newestFirst, hdays]

theorem months_refresh_earlierDiary :
    (earlierDiary.refresh albumView).months = [⟨"2022-12", [4, 3]⟩, ⟨"2022-11", [1]⟩] := by
  have hmonths : Naming.monthOf "2022-11-01" = "2022-11" ∧
      Naming.monthOf "2022-12-24" = "2022-12" ∧ Naming.monthOf "2022-12-25" = "2022-12" := by decide
  rw [(reached_earlierDiary.refresh albumView).months_eq, refresh_earlierDiary.1]
  simp [groupByMonth, hmonths, List.eraseDups_cons, List.mergeSort,
    List.MergeSort.Internal.splitInTwo]

theorem refresh_refresh_earlierDiary :
    (earlierDiary.refresh albumView).refresh albumView = earlierDiary.refresh albumView := by
  have hgate : (earlierDiary.refresh albumView).gate = ⟨60, some 60000000000⟩ := by
    rw [refresh_eq, if_pos isOpen_earlierDiary]
    rfl
  rw [refresh_eq albumView (earlierDiary.refresh albumView), hgate]
  exact if_neg (by decide)

theorem Reached.months_list_days_album :
    let diary := earlierDiary.refresh albumView
    diary.MonthsMatchDays ∧ diary.months = [⟨"2022-12", [4, 3]⟩, ⟨"2022-11", [1]⟩] ∧
      (daysReversed albumView diary).result = some [4, 3, 1] := by
  intro diary
  obtain ⟨matchesDays, listed⟩ :=
    Reached.months_list_days (reached_earlierDiary.refresh albumView)
  have same : (daysReversed albumView diary).state = diary := refresh_refresh_earlierDiary
  refine ⟨matchesDays, months_refresh_earlierDiary, ?_⟩
  rw [(listed albumView).2 (by rw [same]), months_refresh_earlierDiary]
  rfl

end Reached

end DrawingDiary.Diary
