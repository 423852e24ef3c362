import DrawingDiary.Naming.Token

/-!
# Written dates

A day name is exactly a written date: four digits, two digits and two digits with dashes
between them (`isDayName_iff`).
-/

namespace DrawingDiary.Naming

theorem digitGroups_singleton_iff {n : Nat} {s : List Char} :
    digitGroups [n] s = true ↔ s.length = n ∧ ∀ c ∈ s, c.isDigit = true := by
  simp [digitGroups]

/-- A group of digits is followed by a dash and the other groups. -/
theorem digitGroups_cons_iff {n m : Nat} {sizes : List Nat} {s : List Char} :
    digitGroups (n :: m :: sizes) s = true ↔ ∃ digits rest, s = digits ++ '-' :: rest ∧
      digits.length = n ∧ (∀ c ∈ digits, c.isDigit = true) ∧
        digitGroups (m :: sizes) rest = true := by
  simp only [digitGroups, Bool.and_eq_true, beq_iff_eq, List.all_eq_true]
  constructor
  · intro h
    rcases h with ⟨⟨⟨hlength, hdigits⟩, hdash⟩, hrest⟩
    refine ⟨s.take n, s.drop (n + 1), ?_, hlength, hdigits, hrest⟩
    obtain ⟨rest, hdrop⟩ := List.head?_eq_some_iff.mp hdash
    have htail : s.drop (n + 1) = rest := by
      rw [← List.drop_drop, hdrop]
      rfl
    rw [htail, ← hdrop, List.take_append_drop]
  · intro h
    rcases h with ⟨digits, rest, rfl, rfl, hdigits, hrest⟩
    have hdrop : (digits ++ '-' :: rest).drop (digits.length + 1) = rest := by
      rw [← List.drop_drop, List.drop_left]
      rfl
    rw [hdrop, List.take_left, List.drop_left]
    exact ⟨⟨⟨rfl, hdigits⟩, rfl⟩, hrest⟩

def IsWrittenDate (name : String) : Prop :=
  ∃ year month day : List Char, name.toList = year ++ '-' :: (month ++ '-' :: day) ∧
    year.length = 4 ∧ month.length = 2 ∧ day.length = 2 ∧
      ∀ c ∈ year ++ month ++ day, c.isDigit = true

theorem IsWrittenDate.isDigit {name : String} (written : IsWrittenDate name) {c : Char}
    (hc : c ∈ name.toList) : c = '-' ∨ c.isDigit = true := by
  obtain ⟨year, month, day, htext, -, -, -, hdigits⟩ := written
  simp only [htext, List.mem_append, List.mem_cons] at hc
  rcases hc with hyear | rfl | hmonth | rfl | hday
  · exact .inr (hdigits c (by simp [hyear]))
  · exact .inl rfl
  · exact .inr (hdigits c (by simp [hmonth]))
  · exact .inl rfl
  · exact .inr (hdigits c (by simp [hday]))

theorem isDayName_iff {name : String} : isDayName name = true ↔ IsWrittenDate name := by
  simp only [isDayName, isDate, digitGroups_cons_iff, digitGroups_singleton_iff, IsWrittenDate,
    List.mem_append]
  constructor
  · rintro ⟨year, rest, htext, hyear, hyearDigits, month, day, rfl, hmonth, hmonthDigits, hday,
      hdayDigits⟩
    refine ⟨year, month, day, htext, hyear, hmonth, hday, ?_⟩
    rintro c ((hc | hc) | hc)
    · exact hyearDigits c hc
    · exact hmonthDigits c hc
    · exact hdayDigits c hc
  · intro h
    rcases h with ⟨year, month, day, htext, hyear, hmonth, hday, hdigits⟩
    exact ⟨year, _, htext, hyear, fun c hc => hdigits c (.inl (.inl hc)), month, day, rfl,
      hmonth, fun c hc => hdigits c (.inl (.inr hc)), hday, fun c hc => hdigits c (.inr hc)⟩

end DrawingDiary.Naming
