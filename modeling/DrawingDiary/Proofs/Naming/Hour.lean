import DrawingDiary.Naming.Hour

/-!
# Masks as sets of hours

A mask is read hour by hour: `has_ofPred` says that the mask of a property holds the
hours with this property and no others, and `has_ofList` says so of listed hours.
-/

namespace DrawingDiary

theorem mem_allHours (hour : Hour) : hour ∈ allHours :=
  List.mem_finRange hour

namespace HourMask

theorem has_foldl (p : Hour → Bool) (hours : List Hour) (mask : HourMask) (hour : Hour) :
    has (hours.foldl (fun mask h =>
        if p h then mask ||| BitVec.twoPow hoursPerDay h.val else mask) mask) hour =
      (mask.has hour || (hours.contains hour && p hour)) := by
  induction hours generalizing mask with
  | nil => simp
  | cons first rest ih =>
      rw [List.foldl_cons, ih]
      by_cases hne : hour = first
      · subst hne
        cases p hour <;> simp [has]
      · have hval : hour.val ≠ first.val := fun h => hne (Fin.ext h)
        cases p first <;> simp [has, hne, hval]

@[simp] theorem has_ofPred (p : Hour → Bool) (hour : Hour) : (ofPred p).has hour = p hour := by
  have hmem : allHours.contains hour = true := by simpa using mem_allHours hour
  rw [ofPred, has_foldl, hmem]
  simp [has]

theorem has_ofList (hours : List Hour) (hour : Hour) :
    (ofList hours).has hour = hours.contains hour := by
  have hfold := has_foldl (fun _ => true) hours 0 hour
  simpa [ofList, has] using hfold

theorem ext_has {mask other : HourMask} (h : ∀ hour, mask.has hour = other.has hour) :
    mask = other :=
  BitVec.eq_of_getLsbD_eq fun i hi => h ⟨i, hi⟩

end HourMask

end DrawingDiary
