import DrawingDiary.Proofs.Naming.Date
import Mathlib.Data.List.Nodup
import Mathlib.Data.List.Perm.Subperm
import Mathlib.Data.Nat.Digits.Defs

/-!
# How many dates there are

A written date is read as the number of its eight digits. Different dates are read as different
numbers (`IsWrittenDate.eq_of_dateNumber`), so there are at most a hundred million of them
(`length_le_dateLimit`), months and days that no calendar has included.
-/

namespace DrawingDiary.Naming

abbrev dateLimit : Nat := 10 ^ 8

/-- The digits of a date, without the dashes. -/
def dateDigits (date : String) : List Char := date.toList.filter (· != '-')

/-- The number that the digits of a date stand for, the first one for the least. -/
def dateNumber (date : String) : Nat :=
  Nat.ofDigits 10 ((dateDigits date).map fun d => d.toNat - '0'.toNat)

theorem digit_lt_ten {d : Char} (h : d.isDigit = true) : d.toNat - '0'.toNat < 10 := by
  simp only [Char.isDigit, Bool.and_eq_true, decide_eq_true_eq, ge_iff_le, UInt32.le_iff_toNat_le]
    at h
  have hlast : d.toNat ≤ 57 := h.2
  have hzero : '0'.toNat = 48 := rfl
  omega

theorem digit_inj {d e : Char} (hd : d.isDigit = true) (he : e.isDigit = true)
    (h : d.toNat - '0'.toNat = e.toNat - '0'.toNat) : d = e := by
  simp only [Char.isDigit, Bool.and_eq_true, decide_eq_true_eq, ge_iff_le, UInt32.le_iff_toNat_le]
    at hd he
  have hfirst : 48 ≤ d.toNat := hd.1
  have hfirst' : 48 ≤ e.toNat := he.1
  have hzero : '0'.toNat = 48 := rfl
  exact Char.toNat_inj.mp (by omega)

variable {date other : String}

theorem IsWrittenDate.dateDigits_eq {year month day : List Char}
    (htext : date.toList = year ++ '-' :: (month ++ '-' :: day))
    (hdigits : ∀ c ∈ year ++ month ++ day, c.isDigit = true) :
    dateDigits date = year ++ month ++ day := by
  have kept (part : List Char) (hpart : ∀ c ∈ part, c.isDigit = true) :
      part.filter (· != '-') = part := by
    refine List.filter_eq_self.mpr fun c hc => ?_
    rw [bne_iff_ne]
    rintro rfl
    exact absurd (hpart _ hc) (by decide)
  simp only [List.forall_mem_append] at hdigits
  obtain ⟨⟨hyear, hmonth⟩, hday⟩ := hdigits
  rw [dateDigits, htext]
  simp [kept year hyear, kept month hmonth, kept day hday]

theorem IsWrittenDate.length_dateDigits (written : IsWrittenDate date) :
    (dateDigits date).length = 8 ∧ ∀ c ∈ dateDigits date, c.isDigit = true := by
  obtain ⟨year, month, day, htext, hyear, hmonth, hday, hdigits⟩ := written
  rw [IsWrittenDate.dateDigits_eq htext hdigits]
  exact ⟨by simp [hyear, hmonth, hday], hdigits⟩

/-- Dates with the same digits are the same date, since the dashes have their places. -/
theorem IsWrittenDate.eq_of_dateDigits (written : IsWrittenDate date)
    (hother : IsWrittenDate other) (h : dateDigits date = dateDigits other) : date = other := by
  obtain ⟨year, month, day, htext, hyear, hmonth, -, hdigits⟩ := written
  obtain ⟨year', month', day', htext', hyear', hmonth', -, hdigits'⟩ := hother
  rw [IsWrittenDate.dateDigits_eq htext hdigits, IsWrittenDate.dateDigits_eq htext' hdigits',
    List.append_assoc, List.append_assoc] at h
  obtain ⟨rfl, hrest⟩ := List.append_inj h (hyear.trans hyear'.symm)
  obtain ⟨rfl, rfl⟩ := List.append_inj hrest (hmonth.trans hmonth'.symm)
  exact String.toList_inj.mp (htext.trans htext'.symm)

theorem IsWrittenDate.dateNumber_lt (written : IsWrittenDate date) :
    dateNumber date < dateLimit := by
  obtain ⟨hlength, hdigits⟩ := written.length_dateDigits
  have hlt := Nat.ofDigits_lt_base_pow_length (b := 10) (by decide)
    (List.forall_mem_map.mpr fun d hd => digit_lt_ten (hdigits d hd))
  rwa [List.length_map, hlength] at hlt

/-- Different dates are read as different numbers. -/
theorem IsWrittenDate.eq_of_dateNumber (written : IsWrittenDate date)
    (hother : IsWrittenDate other) (h : dateNumber date = dateNumber other) : date = other := by
  obtain ⟨hlength, hdigits⟩ := written.length_dateDigits
  obtain ⟨hlength', hdigits'⟩ := hother.length_dateDigits
  have hnumbers := Nat.ofDigits_inj_of_len_eq (b := 10) (by decide)
    (by rw [List.length_map, List.length_map, hlength, hlength'])
    (List.forall_mem_map.mpr fun d hd => digit_lt_ten (hdigits d hd))
    (List.forall_mem_map.mpr fun d hd => digit_lt_ten (hdigits' d hd)) h
  refine written.eq_of_dateDigits hother (List.ext_getElem (hlength.trans hlength'.symm) ?_)
  intro i hi hi'
  have hdigit := congrArg (·[i]?) hnumbers
  simp only [List.getElem?_map, List.getElem?_eq_getElem hi, List.getElem?_eq_getElem hi',
    Option.map_some, Option.some.injEq] at hdigit
  exact digit_inj (hdigits _ (List.getElem_mem hi)) (hdigits' _ (List.getElem_mem hi')) hdigit

/-- Of different dates there are at most a hundred million. -/
theorem length_le_dateLimit {dates : List String} (distinct : dates.Nodup)
    (written : ∀ date ∈ dates, IsWrittenDate date) : dates.length ≤ dateLimit := by
  have hnumbers : (dates.map dateNumber).Nodup :=
    distinct.map_on fun date hdate other hother h =>
      (written date hdate).eq_of_dateNumber (written other hother) h
  have hrange : dates.map dateNumber ⊆ List.range dateLimit := by
    intro number hnumber
    obtain ⟨date, hdate, rfl⟩ := List.mem_map.mp hnumber
    exact List.mem_range.mpr (written date hdate).dateNumber_lt
  have hle := (List.subperm_of_subset hnumbers hrange).length_le
  rwa [List.length_map, List.length_range] at hle

end DrawingDiary.Naming
