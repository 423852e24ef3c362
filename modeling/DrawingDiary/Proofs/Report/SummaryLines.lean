import DrawingDiary.Report.SiteSummary
import Mathlib.Data.List.Perm.Subperm
import Mathlib.Data.Nat.Basic
import Mathlib.Order.Basic

/-!
# The lines of a summary

The lines that sum up a run are printed from two lists of months, those of the site and those that
failed. They agree as soon as the months are distinct and those that failed are some of them in the
same order: then the difference of the two lengths is the number of lines without a mark, and the
months that are named at the end are those whose lines have one (`linesAgree_of_sublist`). What
the lines say is read off the lines themselves, by the mark that they end with and by the word
that they begin with, and no two kinds of line begin with the same character.
-/

namespace DrawingDiary

namespace Report

open Text

variable {summary : Site.Summary} {months failed : List String}

/-- What stands behind the name of a page that failed. -/
def failedMark : String := " (failed)"

/-- The line ends with the mark of a failure. -/
def isMarked (line : String) : Bool := failedMark.toList.isSuffixOf line.toList

def beginsWith (word line : String) : Bool := word.toList.isPrefixOf line.toList

def pageLines (summary : Site.Summary) : List String :=
  summary.months.map (pageLine summary.failedMonths)

def markedMonths (summary : Site.Summary) : List String :=
  summary.months.filter fun month => isMarked (pageLine summary.failedMonths month)

section Marks

theorem isMarked_pageLine (failed : List String) (month : String) :
    isMarked (pageLine failed month) = failed.contains month := by
  unfold pageLine
  split
  next hfailed =>
    rw [hfailed, isMarked, List.isSuffixOf_iff_suffix, String.toList_append]
    exact List.suffix_append _ _
  next hfine =>
    rw [Bool.eq_false_iff.mpr hfine, Bool.eq_false_iff, isMarked, Ne, List.isSuffixOf_iff_suffix]
    rintro ⟨first, hline⟩
    have hlast := congrArg List.getLast? hline
    have hmark : failedMark.toList.getLast? = some ')' := rfl
    have hindex : indexFile.toList.getLast? = some 'l' := rfl
    rw [String.toList_append, List.getLast?_append, List.getLast?_append, hmark, hindex] at hlast
    cases hlast

theorem markedMonths_eq (summary : Site.Summary) :
    markedMonths summary = summary.months.filter summary.failedMonths.contains := by
  simp only [markedMonths, isMarked_pageLine]

/-- Some months in the order of all are those among all that are some of them. -/
theorem filter_contains_of_sublist (h : failed.Sublist months) (distinct : months.Nodup) :
    months.filter failed.contains = failed := by
  have hself : failed.filter failed.contains = failed := List.filter_eq_self.mpr (by simp)
  have hsub : failed.Sublist (months.filter failed.contains) := by
    have hfilter := h.filter failed.contains
    rwa [hself] at hfilter
  have hle : (months.filter failed.contains).length ≤ failed.length := by
    refine (List.subperm_of_subset (distinct.filter _) fun month hmonth => ?_).length_le
    simpa using (List.mem_filter.mp hmonth).2
  exact (hsub.eq_of_length_le hle).symm

theorem length_markedMonths (summary : Site.Summary) :
    (markedMonths summary).length = (pageLines summary).countP isMarked := by
  rw [markedMonths, pageLines, List.countP_map, List.countP_eq_length_filter]
  rfl

end Marks

section Beginnings

def heading (summary : Site.Summary) : List String :=
  ["Diary: " ++ counted summary.days.toUInt32 "day" "days" ++ ", " ++
      counted summary.thumbnailsCreated.toUInt32 "thumbnail" "thumbnails" ++ " created, " ++
      (summary.diarySize / 1024 / 1024).repr ++ " MB",
    "Assets: " ++
      if summary.linkedAssets.isEmpty then "none" else String.intercalate ", " summary.linkedAssets,
    "Pages", "    " ++ indexFile]

def generatedLine (written : UInt32) : String :=
  "Generated " ++ counted written "month page" "month pages"

/-- The line that names the months that failed, if there are any. -/
def failureLines (failed : UInt32) (months : List String) : List String :=
  if months.isEmpty then []
  else ["Failed " ++ counted failed "month page" "month pages" ++ ": " ++
    String.intercalate ", " months]

theorem summaryLines_eq (summary : Site.Summary) :
    summaryLines summary = heading summary ++ pageLines summary ++
      [generatedLine (pagesWritten summary.months summary.failedMonths).toUInt32] ++
      failureLines summary.failedMonths.length.toUInt32 summary.failedMonths := rfl

def initial (line : String) : Option Char := line.toList.head?

theorem initial_append (first rest : String) :
    initial (first ++ rest) = (initial first).or (initial rest) := by
  rw [initial, String.toList_append, List.head?_append]
  rfl

theorem beginsWith_append (word rest : String) : beginsWith word (word ++ rest) = true := by
  rw [beginsWith, List.isPrefixOf_iff_prefix, String.toList_append]
  exact List.prefix_append _ _

variable {word line : String} {lines : List String} {c : Char}

theorem initial_of_beginsWith (hword : initial word = some c) (h : beginsWith word line = true) :
    initial line = some c := by
  obtain ⟨rest, hline⟩ := List.isPrefixOf_iff_prefix.mp h
  rw [initial] at hword ⊢
  rw [← hline, List.head?_append, hword, Option.some_or]

theorem filter_beginsWith_eq_nil (hword : initial word = some c)
    (h : ∀ line ∈ lines, initial line ≠ some c) : lines.filter (beginsWith word) = [] :=
  List.filter_eq_nil_iff.mpr fun line hline hbegins =>
    h line hline (initial_of_beginsWith hword hbegins)

/-- The lines up to those of the months begin in other ways than those behind them. -/
theorem initial_mem (summary : Site.Summary) :
    ∀ line ∈ heading summary ++ pageLines summary, ∃ c ∈ ['D', 'A', 'P', ' '],
      initial line = some c := by
  have hblank (rest : String) : initial ("    " ++ rest) = some ' ' := by
    rw [initial_append]
    rfl
  intro line hline
  rcases List.mem_append.mp hline with hheading | hpage
  · simp only [heading, List.mem_cons, List.not_mem_nil, or_false] at hheading
    rcases hheading with rfl | rfl | rfl | rfl
    · refine ⟨'D', by decide, ?_⟩
      simp only [initial_append]
      rfl
    · refine ⟨'A', by decide, ?_⟩
      rw [initial_append]
      rfl
    · exact ⟨'P', by decide, rfl⟩
    · exact ⟨' ', by decide, hblank _⟩
  · obtain ⟨month, -, rfl⟩ := List.mem_map.mp hpage
    refine ⟨' ', by decide, ?_⟩
    unfold pageLine
    split
    · simp only [String.append_assoc]
      exact hblank _
    · simp only [String.append_assoc]
      exact hblank _

/-- No line up to those of the months begins with a word with another first character. -/
theorem filter_beginsWith_pages (summary : Site.Summary) (hword : initial word = some c)
    (hother : c ∉ ['D', 'A', 'P', ' ']) :
    (heading summary ++ pageLines summary).filter (beginsWith word) = [] := by
  refine filter_beginsWith_eq_nil hword fun line hline hinitial => ?_
  obtain ⟨d, hd, hline⟩ := initial_mem summary line hline
  rw [hline] at hinitial
  cases hinitial
  exact hother hd

theorem initial_generatedLine (written : UInt32) : initial (generatedLine written) = some 'G' := by
  rw [generatedLine, initial_append]
  rfl

/-- The only line that begins with `Failed` is that of the failures. -/
theorem filter_failed (summary : Site.Summary) :
    (summaryLines summary).filter (beginsWith "Failed ") =
      failureLines summary.failedMonths.length.toUInt32 summary.failedMonths := by
  have hgenerated (written : UInt32) :
      [generatedLine written].filter (beginsWith "Failed ") = [] := by
    refine filter_beginsWith_eq_nil (c := 'F') rfl (List.forall_mem_singleton.mpr ?_)
    rw [initial_generatedLine]
    decide
  rw [summaryLines_eq, List.filter_append, List.filter_append,
    filter_beginsWith_pages summary (c := 'F') rfl (by decide), hgenerated, List.nil_append,
    List.nil_append, failureLines]
  split
  · rfl
  · simp only [String.append_assoc, List.filter_singleton, beginsWith_append]
    rfl

theorem filter_generated (summary : Site.Summary) :
    (summaryLines summary).filter (beginsWith "Generated ") =
      [generatedLine (pagesWritten summary.months summary.failedMonths).toUInt32] := by
  have hfailures (failed : UInt32) (months : List String) :
      (failureLines failed months).filter (beginsWith "Generated ") = [] := by
    refine filter_beginsWith_eq_nil (c := 'G') rfl fun line hline => ?_
    unfold failureLines at hline
    split at hline
    · cases hline
    · obtain rfl := List.mem_singleton.mp hline
      simp only [initial_append]
      exact fun h => absurd (Option.some.inj h) (by decide)
  rw [summaryLines_eq, List.filter_append, List.filter_append,
    filter_beginsWith_pages summary (c := 'G') rfl (by decide), hfailures, List.nil_append,
    List.append_nil, generatedLine, List.filter_singleton, beginsWith_append]
  rfl

end Beginnings

/-- The numbers that are printed with thirty-two bits are those that were counted, and the
difference of two of them is not taken below zero. -/
structure CountsFit (summary : Site.Summary) : Prop where
  days : summary.days.toUInt32.toNat = summary.days
  thumbnails : summary.thumbnailsCreated.toUInt32.toNat = summary.thumbnailsCreated
  no_underflow : summary.failedMonths.length ≤ summary.months.length
  difference : (pagesWritten summary.months summary.failedMonths).toNat =
    summary.months.length - summary.failedMonths.length
  written : (pagesWritten summary.months summary.failedMonths).toUInt32.toNat =
    (pagesWritten summary.months summary.failedMonths).toNat
  failed : summary.failedMonths.length.toUInt32.toNat = summary.failedMonths.length

theorem countsFit_of_le (hdays : summary.days < UInt32.size)
    (hmade : summary.thumbnailsCreated ≤ summary.days)
    (hmonths : summary.months.length ≤ summary.days)
    (hfailed : summary.failedMonths.length ≤ summary.months.length) : CountsFit summary := by
  have fits {n : Nat} (hn : n ≤ summary.days) : n.toUInt32.toNat = n :=
    UInt32.toNat_ofNat_of_lt' (hn.trans_lt hdays)
  have hlength {n : Nat} (hn : n ≤ summary.days) : n.toUInt64.toNat = n :=
    UInt64.toNat_ofNat_of_lt' ((hn.trans_lt hdays).trans (by decide))
  have hdifference : (pagesWritten summary.months summary.failedMonths).toNat =
      summary.months.length - summary.failedMonths.length := by
    have hle : summary.failedMonths.length.toUInt64 ≤ summary.months.length.toUInt64 := by
      rw [UInt64.le_iff_toNat_le, hlength hmonths, hlength (hfailed.trans hmonths)]
      exact hfailed
    rw [pagesWritten, UInt64.toNat_sub_of_le _ _ hle, hlength hmonths,
      hlength (hfailed.trans hmonths)]
  refine ⟨fits le_rfl, fits hmade, hfailed, hdifference, ?_, fits (hfailed.trans hmonths)⟩
  rw [UInt64.toNat_toUInt32, hdifference]
  exact Nat.mod_eq_of_lt (((Nat.sub_le _ _).trans hmonths).trans_lt hdays)

/-- What the lines of a summary say: there is one line for each month in order, which is marked if
the month failed, one line begins with `Generated` and has the number of the lines without a mark,
and one begins with `Failed` and names the months whose lines are marked, if there are any. -/
structure LinesAgree (summary : Site.Summary) (written failed : UInt32) : Prop where
  pages : ∃ behind, summaryLines summary = heading summary ++ pageLines summary ++ behind
  marked_iff : ∀ month, isMarked (pageLine summary.failedMonths month) = true ↔
    month ∈ summary.failedMonths
  generated : (summaryLines summary).filter (beginsWith "Generated ") = [generatedLine written]
  written_eq : written.toNat = (pageLines summary).countP fun line => !isMarked line
  failures : (summaryLines summary).filter (beginsWith "Failed ") =
    failureLines failed (markedMonths summary)
  failed_eq : failed.toNat = (pageLines summary).countP isMarked
  failure_iff : (∃ line ∈ summaryLines summary, beginsWith "Failed " line = true) ↔
    ∃ line ∈ pageLines summary, isMarked line = true

theorem linesAgree_of_sublist (distinct : summary.months.Nodup)
    (sublist : summary.failedMonths.Sublist summary.months) (fit : CountsFit summary) :
    LinesAgree summary (pagesWritten summary.months summary.failedMonths).toUInt32
      summary.failedMonths.length.toUInt32 := by
  have hmarked : markedMonths summary = summary.failedMonths := by
    rw [markedMonths_eq, filter_contains_of_sublist sublist distinct]
  have hcount : (pageLines summary).countP isMarked = summary.failedMonths.length := by
    rw [← length_markedMonths, hmarked]
  have hlength : (pageLines summary).length = summary.months.length := List.length_map _
  have hsplit := List.length_eq_countP_add_countP isMarked (l := pageLines summary)
  constructor
  case pages => exact ⟨_, (summaryLines_eq summary).trans (List.append_assoc _ _ _)⟩
  case marked_iff =>
    intro month
    rw [isMarked_pageLine, List.contains_iff_mem]
  case generated => exact filter_generated summary
  case written_eq =>
    rw [fit.written, fit.difference, ← hcount, ← hlength, hsplit, Nat.add_sub_cancel_left]
    simp only [Bool.not_eq_true, Bool.decide_eq_false]
  case failures => rw [filter_failed, hmarked]
  case failed_eq => rw [fit.failed, hcount]
  case failure_iff =>
    have hsome : (∃ line ∈ summaryLines summary, beginsWith "Failed " line = true) ↔
        failureLines summary.failedMonths.length.toUInt32 summary.failedMonths ≠ [] := by
      rw [← filter_failed, Ne, List.filter_eq_nil_iff]
      simp
    rw [hsome, ← List.countP_pos_iff, hcount, failureLines]
    cases summary.failedMonths <;> simp

end Report

end DrawingDiary
