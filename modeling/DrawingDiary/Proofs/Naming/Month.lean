import DrawingDiary.Proofs.Naming.Date
import Mathlib.Data.String.Basic

/-!
# The month of a written date

The month of a written date is its year and its month number, a text of seven characters
(`IsWrittenDate.isWrittenMonth`). All months are written equally long, so the order of the
dates, which is that of their texts, refines the order of their months
(`monthOf_le_monthOf`).
-/

namespace DrawingDiary

namespace Text

theorem splitLast?_append_cons {c : Char} {after : List Char} (h : c ∉ after)
    (before : List Char) : splitLast? c (before ++ c :: after) = some (before, after) := by
  have hnone : splitLast? c after = none := by
    induction after with
    | nil => rfl
    | cons x rest ih =>
        rw [List.mem_cons, not_or] at h
        obtain ⟨hx, hrest⟩ := h
        rw [splitLast?, ih hrest]
        simp [Ne.symm hx]
  induction before with
  | nil => simp [splitLast?, hnone]
  | cons x before ih => rw [List.cons_append, splitLast?, ih]

theorem splitFirst?_append_cons {c : Char} {before : List Char} (h : c ∉ before)
    (after : List Char) : splitFirst? c (before ++ c :: after) = some (before, after) := by
  induction before with
  | nil => simp [splitFirst?]
  | cons x before ih =>
      obtain ⟨hx, hbefore⟩ := not_or.mp (List.mem_cons.not.mp h)
      rw [List.cons_append, splitFirst?, if_neg (Ne.symm hx), ih hbefore]
      rfl

theorem append_lt_append {a b : List Char} (length : a.length = b.length) (h : a < b)
    (s t : List Char) : a ++ s < b ++ t := by
  induction a generalizing b with
  | nil =>
      obtain rfl : b = [] := List.length_eq_zero_iff.mp length.symm
      exact absurd h (List.lt_irrefl [])
  | cons x a ih =>
      cases b with
      | nil => cases length
      | cons y b =>
          rw [List.cons_lt_cons_iff] at h
          rw [List.cons_append, List.cons_append, List.cons_lt_cons_iff]
          rcases h with hxy | ⟨rfl, hab⟩
          · exact .inl hxy
          · exact .inr ⟨rfl, ih (Nat.succ.inj length) hab⟩

theorem utf8Len_of_ascii {s : List Char} (ascii : ∀ c ∈ s, c.val ≤ 127) :
    String.utf8Len s = s.length := by
  induction s with
  | nil => rfl
  | cons c s ih =>
      obtain ⟨hc, hrest⟩ := List.forall_mem_cons.mp ascii
      rw [String.utf8Len_cons, ih hrest, Char.utf8Size_eq_one_iff.mpr hc, List.length_cons]

end Text

namespace Naming

def IsWrittenMonth (name : String) : Prop :=
  ∃ year month : List Char, name.toList = year ++ '-' :: month ∧
    year.length = 4 ∧ month.length = 2 ∧ ∀ c ∈ year ++ month, c.isDigit = true

theorem IsWrittenMonth.length {name : String} (written : IsWrittenMonth name) :
    name.toList.length = 7 := by
  obtain ⟨year, month, htext, hyear, hmonth, -⟩ := written
  simp [htext, hyear, hmonth]

theorem IsWrittenMonth.isDigit {name : String} (written : IsWrittenMonth name) {c : Char}
    (hc : c ∈ name.toList) : c = '-' ∨ c.isDigit = true := by
  obtain ⟨year, month, htext, -, -, hdigits⟩ := written
  rw [htext, List.mem_append, List.mem_cons] at hc
  rcases hc with hyear | hdash | hmonth
  · exact .inr (hdigits c (List.mem_append_left _ hyear))
  · exact .inl hdash
  · exact .inr (hdigits c (List.mem_append_right _ hmonth))

theorem IsWrittenMonth.utf8ByteSize {name : String} (written : IsWrittenMonth name) :
    name.utf8ByteSize = 7 := by
  rw [← String.ofList_toList (s := name), String.utf8ByteSize_ofList, Text.utf8Len_of_ascii,
    written.length]
  intro c hc
  rcases written.isDigit hc with rfl | hdigit
  · decide
  · simp only [Char.isDigit, Bool.and_eq_true, decide_eq_true_eq] at hdigit
    exact UInt32.le_trans hdigit.2 (by decide)

theorem isMonth_iff {name : String} : isMonth name.toList = true ↔ IsWrittenMonth name := by
  simp only [isMonth, digitGroups_cons_iff, digitGroups_singleton_iff, IsWrittenMonth,
    List.forall_mem_append]
  constructor
  · rintro ⟨year, month, htext, hyear, hyearDigits, hmonth, hmonthDigits⟩
    exact ⟨year, month, htext, hyear, hmonth, hyearDigits, hmonthDigits⟩
  · rintro ⟨year, month, htext, hyear, hmonth, hyearDigits, hmonthDigits⟩
    exact ⟨year, month, htext, hyear, hyearDigits, hmonth, hmonthDigits⟩

theorem IsWrittenMonth.exists_monthDisplayName {month : String} (written : IsWrittenMonth month) :
    ∃ (number : Option Nat) (year : String), monthDisplayName month =
      (number.bind monthName?).getD "???" ++ " " ++ year ∧ year.toList ≠ [] ∧
        ∀ c ∈ year.toList, c.isDigit = true := by
  obtain ⟨year, number, htext, hlength, -, hdigits⟩ := written
  have hdash : '-' ∉ year := fun hmem =>
    absurd (hdigits '-' (List.mem_append_left _ hmem)) (by decide)
  refine ⟨Text.readBounded? 256 number, String.ofList year, ?_, ?_, ?_⟩
  · rw [monthDisplayName, htext, Text.splitFirst?_append_cons hdash]
  · rw [String.toList_ofList]
    exact List.length_pos_iff.mp (hlength ▸ Nat.zero_lt_succ _)
  · intro c hc
    rw [String.toList_ofList] at hc
    exact hdigits c (List.mem_append_left _ hc)

theorem IsWrittenDate.exists_day {date : String} (written : IsWrittenDate date) :
    ∃ day : List Char, date.toList = (monthOf date).toList ++ '-' :: day ∧
      IsWrittenMonth (monthOf date) := by
  obtain ⟨year, month, day, htext, hyear, hmonth, -, hdigits⟩ := written
  have htext' : date.toList = (year ++ '-' :: month) ++ '-' :: day := by simp [htext]
  have hdash : '-' ∉ day := by
    intro hmem
    exact absurd (hdigits '-' (by simp [hmem])) (by decide)
  have hmonthOf : monthOf date = String.ofList (year ++ '-' :: month) := by
    rw [monthOf, htext', Text.splitLast?_append_cons hdash]
  refine ⟨day, ?_, year, month, ?_, hyear, hmonth, ?_⟩
  · rw [hmonthOf, String.toList_ofList, htext']
  · rw [hmonthOf, String.toList_ofList]
  · intro c hc
    exact hdigits c (List.mem_append_left _ hc)

theorem IsWrittenDate.isWrittenMonth {date : String} (written : IsWrittenDate date) :
    IsWrittenMonth (monthOf date) := by
  obtain ⟨day, -, hmonth⟩ := written.exists_day
  exact hmonth

/-- A later date has no earlier month. -/
theorem monthOf_le_monthOf {a b : String} (ha : IsWrittenDate a) (hb : IsWrittenDate b)
    (h : a ≤ b) : monthOf a ≤ monthOf b := by
  obtain ⟨dayA, htextA, hmonthA⟩ := ha.exists_day
  obtain ⟨dayB, htextB, hmonthB⟩ := hb.exists_day
  by_contra hlater
  rw [not_le, String.lt_iff_toList_lt] at hlater
  have hlt := Text.append_lt_append (hmonthB.length.trans hmonthA.length.symm) hlater
    ('-' :: dayB) ('-' :: dayA)
  rw [← htextA, ← htextB, ← String.lt_iff_toList_lt] at hlt
  exact absurd h (not_le.mpr hlt)

end Naming

end DrawingDiary
