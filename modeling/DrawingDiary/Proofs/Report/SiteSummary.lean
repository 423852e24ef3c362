import DrawingDiary.Proofs.Page.Exact
import DrawingDiary.Proofs.Report.SummaryLines
import DrawingDiary.Proofs.Site.Filling
import DrawingDiary.Proofs.Site.Finished
import DrawingDiary.Proofs.Site.Written

/-!
# What the summary of a site says

A summary, the lines that are printed for it and the site that was made say the same
(`summary_agrees`). That the two lists of months fit together is due to the run: the months are
those of the diary, which are distinct, and each of them is tried once, in order. That no count is
too large for a word is due to the diary, which has no more days than there are dates and at least
one day in each of its months.
-/

namespace DrawingDiary

namespace Run

variable {σ α β : Type}

theorem length_of_forEach {run : α → Run σ β} {xs : List α} {s : σ} {ys : List β}
    (h : (Run.forEach xs run s).result = some ys) : ys.length = xs.length := by
  have hmap : Ensures (fun _ => True) (Run.forEach xs run) fun ys _ =>
      True ∧ ys.map (fun _ => ()) = xs.map (fun _ => ()) :=
    Ensures.forEach_map fun _ _ _ _ _ _ => ⟨trivial, rfl⟩
  simpa using congrArg List.length (hmap s ys trivial h).2

end Run

theorem Diary.counts_materializeThumbnails {setting : Setting} {disk : Disk} {diary : Diary}
    {days made : Nat}
    (h : (materializeThumbnails setting (disk, diary)).result = some (days, made)) :
    days = (diary.refresh ⟨setting, disk⟩).newestFirst.length ∧ made ≤ days := by
  change ((Run.forEach (diary.refresh ⟨setting, disk⟩).newestFirst
    (createThumbnailFile setting) >>= fun written =>
      pure ((diary.refresh ⟨setting, disk⟩).newestFirst.length, written.count true))
    (disk, diary.refresh ⟨setting, disk⟩)).result = _ at h
  rw [Run.bind_apply] at h
  cases hwritten : (Run.forEach (diary.refresh ⟨setting, disk⟩).newestFirst
      (createThumbnailFile setting) (disk, diary.refresh ⟨setting, disk⟩)).result with
  | none =>
      rw [hwritten] at h
      cases h
  | some written =>
      rw [hwritten] at h
      cases h
      exact ⟨rfl, List.count_le_length.trans (Run.length_of_forEach hwritten).le⟩

namespace Site

open Attempt

variable {setting : Setting} {layout : SiteLayout} {disk : Disk} {diary : Diary}
  {summary : Summary} {s t : Disk × Diary} {days created : Nat}

theorem counts_fillTarget (h : Answers (fillTarget setting layout diary days created) s summary t) :
    summary.days = days ∧ summary.thumbnailsCreated = created := by
  obtain ⟨assets, linked, -, rest⟩ := answers_bind_iff.mp h
  obtain ⟨seen, _, -, rest⟩ := answers_bind_iff.mp rest
  simp only at rest
  split at rest
  · obtain ⟨template, _, -, rest⟩ := answers_bind_iff.mp rest
    obtain ⟨failed, paged, -, rest⟩ := answers_bind_iff.mp rest
    obtain ⟨⟨⟩, rooted, -, rest⟩ := answers_bind_iff.mp rest
    obtain ⟨⟨⟩, final, -, hpure⟩ := answers_bind_iff.mp rest
    obtain ⟨rfl, -⟩ := answers_pure_iff.mp hpure
    exact ⟨rfl, rfl⟩
  · obtain ⟨_, _, hthrow, -⟩ := answers_bind_iff.mp rest
    exact absurd hthrow not_answers_throw

/-- The days that a run answers with are those of the diary, and the strips it made are among
theirs. -/
theorem counts_generate
    (h : Answers (generate setting layout) (disk, diary) summary t) :
    summary.days = (diary.refresh ⟨setting, disk⟩).newestFirst.length ∧
      summary.thumbnailsCreated ≤ summary.days := by
  rw [generate_eq_fillTarget] at h
  obtain ⟨⟨days, created⟩, shown, hstrips, rest⟩ := answers_bind_iff.mp h
  obtain ⟨seen, _, -, rest⟩ := answers_bind_iff.mp rest
  obtain ⟨⟨⟩, _, -, rest⟩ := answers_bind_iff.mp rest
  obtain ⟨⟨⟩, _, -, hfill⟩ := answers_bind_iff.mp rest
  obtain ⟨hdays, hcreated⟩ := counts_fillTarget hfill
  rw [hdays, hcreated]
  exact Diary.counts_materializeThumbnails (answers_lift_iff.mp hstrips).1

end Site

theorem Diary.Reached.length_months_le {roots : List Path} {settings : DaySettings} {cooldown : Nat}
    {diary : Diary} (reached : Diary.Reached roots settings cooldown diary) :
    diary.months.length ≤ diary.newestFirst.length := by
  rw [← reached.flatMap_days_months, List.length_flatMap]
  have hsome : ∀ count ∈ diary.months.map fun month => month.days.length, 1 ≤ count := by
    refine List.forall_mem_map.mpr fun month hmonth => ?_
    exact List.length_pos_iff.mpr (reached.monthsMatchDays.nonempty month hmonth)
  simpa using List.length_le_sum_of_one_le _ hsome

namespace Report

section Runs

open Site Attempt

variable {setting : Setting} {layout : SiteLayout} {disk : Disk} {diary : Diary}
  {summary : Summary} {months failed : List String} {t : Disk × Diary}

/-- The disk of a run that makes a site when the target was just deleted and made anew. -/
def targetMade (setting : Setting) (layout : SiteLayout) (s : Disk × Diary) : Disk :=
  let shown := (Diary.materializeThumbnails setting s).state.1
  ((shown.removeAll layout.targetDirectory).1.makeDirectories layout.targetDirectory).1

/-- The summary of a run, its lines and the target say the same of the months. The number of the
pages that were written is also that of the new directories with a page. -/
structure Agrees (summary : Summary) (made after : Disk) (target : Path) (place : Location)
    (written failed : UInt32) : Prop where
  distinct : summary.months.Nodup
  sublist : summary.failedMonths.Sublist summary.months
  counts : CountsFit summary
  lines : LinesAgree summary written failed
  target : MonthsWritten made after target place summary.months summary.failedMonths
  written_eq : written.toNat = {name | MonthWritten made after place name}.ncard

theorem ncard_written {made after : Disk} {target : Path} {place : Location}
    (distinct : months.Nodup) (sublist : failed.Sublist months)
    (h : MonthsWritten made after target place months failed) :
    {name | MonthWritten made after place name}.ncard = months.length - failed.length := by
  have hset : {name | MonthWritten made after place name} =
      ((months.filter fun name => !failed.contains name).toFinset : Set String) := by
    ext name
    simp [h.written_iff]
  have hsplit := List.length_eq_length_filter_add (l := months) failed.contains
  rw [hset, Set.ncard_coe_finset, List.toFinset_card_of_nodup (distinct.filter _), hsplit,
    filter_contains_of_sublist sublist distinct, Nat.add_sub_cancel_left]

/-- Every summary that making a site answers with is consistent with the run: the months are
distinct, those that failed are some of them in the same order, no count is cut off or taken below
zero, the printed numbers are those of the lines, and the months without a mark are those that have
got a page in the target. -/
theorem summary_agrees {roots : List Path} {settings : DaySettings} {cooldown : Nat}
    (reached : Diary.Reached roots settings cooldown diary)
    (answers : Answers (generate setting layout) (disk, diary) summary t) :
    ∃ place written failed, Agrees summary (targetMade setting layout (disk, diary)) t.1
      layout.targetDirectory place written failed := by
  obtain ⟨shown, made, linked, paged, rooted, lines, course⟩ := exists_course answers
  have hmonths : summary.months = (diary.refresh ⟨setting, disk⟩).months.map (·.name) := by
    rw [course.months_eq, ← course.shown_eq, Diary.diary_materializeThumbnails]
  have hmade : made.1 = targetMade setting layout (disk, diary) := by
    rw [course.made_eq, targetMade, course.shown_eq]
  have refreshed : Diary.Reached roots settings cooldown (diary.refresh ⟨setting, disk⟩) :=
    .refresh _ reached
  obtain ⟨written, newestFirst⟩ := written_months refreshed
  rw [← hmonths] at written newestFirst
  have distinct : summary.months.Nodup := newestFirst.imp ne_of_gt
  obtain ⟨sublist, place, target⟩ := course.exists_monthsWritten written distinct
  obtain ⟨hdays, hcreated⟩ := counts_generate answers
  have hfew : summary.days < UInt32.size := by
    have hle := refreshed.length_days_months_le
    rw [refreshed.flatMap_days_months, ← hdays] at hle
    exact hle.trans_lt (by decide)
  have hlength : summary.months.length ≤ summary.days := by
    rw [hmonths, List.length_map, hdays]
    exact refreshed.length_months_le
  have fit := countsFit_of_le hfew hcreated hlength sublist.length_le
  refine ⟨place, _, _, distinct, sublist, fit, linesAgree_of_sublist distinct sublist fit,
    hmade ▸ target, ?_⟩
  rw [← hmade, ncard_written distinct sublist target, fit.written, fit.difference]

/-- A month that failed is not counted, and the other one has got its page. -/
theorem summary_agrees_winter :
    let disk := winterDisk 0 novemberStrip winterAssets
    ∃ summary t place written failed,
      Diary.Reached [⟨"/d"⟩] { tileWidth := 1, tileHeight := 1 } 0 plainDiary ∧
        Answers (generate plainSetting winterLayout) (disk, plainDiary) summary t ∧
        summary.failedMonths = ["2022-11"] ∧
        Agrees summary (targetMade plainSetting winterLayout (disk, plainDiary)) t.1
          winterLayout.targetDirectory place written failed ∧
        MonthWritten (targetMade plainSetting winterLayout (disk, plainDiary)) t.1 place
          "2022-12" := by
  intro disk
  have reached : Diary.Reached [⟨"/d"⟩] { tileWidth := 1, tileHeight := 1 } 0 plainDiary := .new
  obtain ⟨summary, t, answers, -, -, hmonths, hfailed⟩ := exists_answers_winterAssets
  obtain ⟨place, written, failed, agrees⟩ := summary_agrees reached answers
  refine ⟨summary, t, place, written, failed, reached, answers, hfailed, agrees, ?_⟩
  refine (agrees.target.written_iff "2022-12").mpr ⟨?_, ?_⟩
  · simp [hmonths]
  · simp [hfailed]

end Runs

end Report

end DrawingDiary
