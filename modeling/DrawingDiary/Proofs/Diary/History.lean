import DrawingDiary.Diary.Access
import DrawingDiary.Proofs.Day.Remembered
import DrawingDiary.Proofs.Diary.Refresh
import DrawingDiary.Proofs.Disk.Same

/-!
# What a diary has been through

`ReachedBy` says which looks at which disks led to a diary, the latest one first. From this
it is known where each of its days comes from (`Traced`): its directory was that of its date
under the first root that had one, on some disk, and the drawings that it remembers were
shown to it at some look. A day is only kept when its directory is still the claimed one.
Two roots may be written differently and have the same directory, but of two such roots the
earlier one is always the first, so a kept day is exactly where a new one would be
(`ReachedBy.exists_root_of_refresh`).
-/

namespace DrawingDiary

/-- What is first for one property and what is first for another are the same when each has
both. -/
theorem eq_of_find?_of_fits {α : Type} {p q : α → Bool} {xs : List α} {a b : α}
    (ha : xs.find? p = some a) (hb : xs.find? q = some b) (hqa : q a = true)
    (hpb : p b = true) : a = b := by
  induction xs with
  | nil => cases ha
  | cons x rest ih =>
      by_cases hp : p x = true
      · rw [List.find?_cons_of_pos hp] at ha
        cases ha
        rw [List.find?_cons_of_pos hqa] at hb
        exact Option.some.inj hb
      · by_cases hq : q x = true
        · rw [List.find?_cons_of_pos hq] at hb
          cases hb
          exact absurd hpb hp
        · rw [List.find?_cons_of_neg hp] at ha
          rw [List.find?_cons_of_neg hq] at hb
          exact ih ha hb

theorem Naming.plainName_thumbnailFile : Path.PlainName thumbnailFile where
  no_slash := by decide
  step := by decide

theorem Naming.IsWrittenDate.plainName {date : String} (written : IsWrittenDate date) :
    Path.PlainName date := by
  obtain ⟨year, month, day, htext, -, -, -, hdigits⟩ := written
  refine Path.plainName_of_mem (c := '-') (fun hslash => ?_) (by simp [htext]) (by decide)
  have hcases : '/' ∈ year ++ month ++ day := by
    rw [htext] at hslash
    simpa using hslash
  exact absurd (hdigits '/' hcases) (by decide)

namespace Diary

section SameDirectory

open Disk (Speakable)

variable {disk other : Disk} {date : String} {root root' : Path} {roots : List Path}

/-- Roots that have the same directory for a date have a day of it on the same disks. -/
theorem holdsDayOn_of_same (same : (root.join date).same (root'.join date) = true)
    (speakable : Speakable root') (speakable' : Speakable (root'.join date))
    (h : holdsDayOn disk date root = true) : holdsDayOn disk date root' = true := by
  obtain ⟨hdate, ⟨names, hlist, hname⟩, hdirectory⟩ := holdsDayOn_iff.mp h
  have plain := hdate.plainName
  have nonempty := (Disk.speakable_of_list hlist).nonempty
  have alike := Path.movesLike_of_same_join plain nonempty speakable.nonempty same
  have hlist' := Disk.list_eq_of_moving alike speakable hlist
  refine holdsDayOn_iff.mpr ⟨hdate, ⟨names, hlist', hname⟩, ?_⟩
  exact Disk.isDirectory_of_moving (alike.join plain nonempty speakable.nonempty) speakable'
    hdirectory

/-- First roots of two disks that have the same directory for a date are one root. -/
theorem eq_of_same_of_find? (hroot : roots.find? (holdsDayOn disk date) = some root)
    (hroot' : roots.find? (holdsDayOn other date) = some root')
    (same : (root.join date).same (root'.join date) = true) : root = root' := by
  have hday := List.find?_some hroot
  have hday' := List.find?_some hroot'
  obtain ⟨-, ⟨names, hlist, -⟩, hdirectory⟩ := holdsDayOn_iff.mp hday
  obtain ⟨-, ⟨names', hlist', -⟩, hdirectory'⟩ := holdsDayOn_iff.mp hday'
  have same' : (root'.join date).same (root.join date) = true := by
    simp only [Path.same, Bool.and_eq_true, beq_iff_eq] at same ⊢
    exact ⟨same.1.symm, same.2.symm⟩
  refine eq_of_find?_of_fits hroot hroot' ?_ ?_
  · exact holdsDayOn_of_same same' (Disk.speakable_of_list hlist)
      (Disk.speakable_of_isDirectory hdirectory) hday'
  · exact holdsDayOn_of_same same (Disk.speakable_of_list hlist')
      (Disk.speakable_of_isDirectory hdirectory') hday

end SameDirectory

/-- The diaries that refreshes and calls of their days lead to from a new one, with the
looks taken on the way, the latest one first. -/
inductive ReachedBy (roots : List Path) (settings : DaySettings) (cooldown : Nat) :
    List View → Diary → Prop where
  | new : ReachedBy roots settings cooldown [] (Diary.new roots settings cooldown)
  | refresh {history : List View} {diary : Diary} (view : View) :
      ReachedBy roots settings cooldown history diary →
      ReachedBy roots settings cooldown (view :: history) (diary.refresh view)
  | callDay {history : List View} {diary : Diary} (view : View) (id : DayId)
      (call : Day.Call) :
      ReachedBy roots settings cooldown history diary →
      ReachedBy roots settings cooldown (view :: history) { diary with
        shelf := diary.shelf.replace id (call.after view (diary.shelf.day id)) }

/-- Where a day of a diary comes from. -/
structure Traced (roots : List Path) (settings : DaySettings) (history : List View)
    (date : String) (day : Day) : Prop where
  place : ∃ disk root, roots.find? (holdsDayOn disk date) = some root ∧
    day.directory = root.join date
  period : day.images.gate.period = settings.imageCooldown
  remembers : day.Remembers history

section Traced

variable {roots : List Path} {settings : DaySettings} {history : List View} {date : String}
  {day : Day}

theorem Traced.mono {longer : List View} (traced : Traced roots settings history date day)
    (sub : history ⊆ longer) : Traced roots settings longer date day :=
  ⟨traced.place, traced.period, traced.remembers.mono sub⟩

theorem Traced.after (traced : Traced roots settings history date day) (view : View)
    (call : Day.Call) : Traced roots settings (view :: history) date (call.after view day) where
  place := by
    obtain ⟨disk, root, hroot, hdirectory⟩ := traced.place
    have named : day.Named day.date day.directory day.settings := ⟨rfl, rfl, rfl⟩
    exact ⟨disk, root, hroot, (named.after view call).directory_eq.trans hdirectory⟩
  period := (Day.period_after view call day).trans traced.period
  remembers := traced.remembers.after view call

theorem traced_new {disk : Disk} {root : Path}
    (hroot : roots.find? (holdsDayOn disk date) = some root) (history : List View) :
    Traced roots settings history date (Day.new date (root.join date) settings) where
  place := ⟨disk, root, hroot, rfl⟩
  period := rfl
  remembers := Day.remembers_new history date _ settings

end Traced

section ReachedBy

variable {roots : List Path} {settings : DaySettings} {cooldown : Nat} {history : List View}
  {diary : Diary} {view : View}

theorem ReachedBy.reached (reached : ReachedBy roots settings cooldown history diary) :
    Reached roots settings cooldown diary := by
  induction reached with
  | new => exact .new
  | refresh view _ ih => exact .refresh view ih
  | callDay view id call _ ih => exact .callDay view id call ih

theorem Reached.exists_history (reached : Reached roots settings cooldown diary) :
    ∃ history, ReachedBy roots settings cooldown history diary := by
  induction reached with
  | new => exact ⟨[], .new⟩
  | refresh view _ ih =>
      obtain ⟨history, hreached⟩ := ih
      exact ⟨_, .refresh view hreached⟩
  | callDay view id call _ ih =>
      obtain ⟨history, hreached⟩ := ih
      exact ⟨_, .callDay view id call hreached⟩

theorem Reached.period (reached : Reached roots settings cooldown diary) :
    diary.gate.period = cooldown := by
  induction reached with
  | new => rfl
  | refresh view _ ih =>
      rw [refresh_eq]
      split
      · exact ih
      · exact ih
  | callDay view id call _ ih => exact ih

theorem traced_refresh (wellFormed : diary.WellFormed)
    (traced : ∀ {date : String} {id : DayId}, (date, id) ∈ diary.days →
      Traced diary.roots diary.settings history date (diary.shelf.day id))
    (view : View) {date : String} {id : DayId} (hmem : (date, id) ∈ (diary.refresh view).days) :
    Traced diary.roots diary.settings (view :: history) date
      ((diary.refresh view).shelf.day id) := by
  have hsub := List.subset_cons_self view history
  by_cases isOpen : diary.gate.isOpen view.now = true
  · obtain ⟨root, hroot, -, -, ⟨hlookup, -, hkept⟩ | ⟨-, -, hnew⟩⟩ :=
      (wellFormed.reflects_refresh isOpen).day date id hmem
    · obtain ⟨before, after, hdays, -⟩ := List.lookup_eq_some_iff.mp hlookup
      rw [hkept]
      exact (traced (by rw [hdays]; simp)).mono hsub
    · rw [hnew]
      exact traced_new hroot _
  · rw [refresh_eq, if_neg isOpen] at hmem ⊢
    exact (traced hmem).mono hsub

theorem ReachedBy.traced (reached : ReachedBy roots settings cooldown history diary)
    {date : String} {id : DayId} (hmem : (date, id) ∈ diary.days) :
    Traced roots settings history date (diary.shelf.day id) := by
  induction reached generalizing date id with
  | new => cases hmem
  | refresh view reached ih =>
      obtain ⟨rfl, rfl⟩ := reached.reached.roots_eq
      exact traced_refresh reached.reached.wellFormed ih view hmem
  | callDay view other call _ ih =>
      have htraced := ih hmem
      rw [Shelf.day_replace]
      split
      next hsame =>
        obtain ⟨rfl, -⟩ := hsame
        exact htraced.after view call
      · exact htraced.mono (List.subset_cons_self view _)

/-- After a refresh behind an open gate each day is in the directory of its date under the
first root that has one now. -/
theorem ReachedBy.exists_root_of_refresh
    (reached : ReachedBy roots settings cooldown history diary)
    (isOpen : diary.gate.isOpen view.now = true) {date : String} {id : DayId}
    (hmem : (date, id) ∈ (diary.refresh view).days) :
    ∃ root, roots.find? (holdsDayOn view.disk date) = some root ∧
      ((diary.refresh view).shelf.day id).directory = root.join date := by
  have hplace := ((ReachedBy.refresh view reached).traced hmem).place
  obtain ⟨rfl, rfl⟩ := reached.reached.roots_eq
  obtain ⟨disk, root', hroot', hdirectory⟩ := hplace
  obtain ⟨root, hroot, -, hsame, -⟩ :=
    (reached.reached.wellFormed.reflects_refresh isOpen).day date id hmem
  rw [hdirectory] at hsame
  obtain rfl := eq_of_same_of_find? hroot' hroot hsame
  exact ⟨root', hroot, hdirectory⟩

end ReachedBy

section Questions

variable {roots : List Path} {settings : DaySettings} {cooldown : Nat} {history : List View}
  {diary : Diary}

/-- The refresh and the call of a day that a question to the diary consists of. -/
theorem ReachedBy.refreshCallDay (reached : ReachedBy roots settings cooldown history diary)
    (view : View) (id : DayId) (call : Day.Call) :
    ReachedBy roots settings cooldown (view :: view :: history) { diary.refresh view with
      shelf := (diary.refresh view).shelf.replace id
        (call.after view ((diary.refresh view).shelf.day id)) } :=
  .callDay view id call (.refresh view reached)

theorem state_day? (view : View) (date : String) (diary : Diary) :
    (day? view date diary).state = diary.refresh view := rfl

theorem result_day? (view : View) (date : String) (diary : Diary) :
    (day? view date diary).result = some ((diary.refresh view).days.lookup date) := rfl

theorem state_dayHourImage (view : View) (date : String) (hour : UInt32) (diary : Diary) :
    (dayHourImage view date hour diary).state =
      match (diary.refresh view).days.lookup date with
      | none => diary.refresh view
      | some id => { diary.refresh view with
        shelf := (diary.refresh view).shelf.replace id
          ((Day.Call.imageData hour).after view ((diary.refresh view).shelf.day id)) } := by
  rw [dayHourImage, Run.state_bind, result_day?, state_day?]
  cases (diary.refresh view).days.lookup date with
  | none => rfl
  | some id =>
      refine Run.state_bind_of_keeps _ (fun answer s => ?_) _
      rcases answer with e | (_ | data) <;> rfl

theorem ReachedBy.dayHourImage (reached : ReachedBy roots settings cooldown history diary)
    (view : View) (date : String) (hour : UInt32) :
    ∃ looks, looks ⊆ [view] ∧
      ReachedBy roots settings cooldown (looks ++ history)
        (Diary.dayHourImage view date hour diary).state := by
  rw [state_dayHourImage]
  cases (diary.refresh view).days.lookup date with
  | none => exact ⟨[view], by simp, .refresh view reached⟩
  | some id => exact ⟨[view, view], by simp, reached.refreshCallDay view id _⟩

theorem ReachedBy.daysReversed (reached : ReachedBy roots settings cooldown history diary)
    (view : View) : ReachedBy roots settings cooldown (view :: history)
      (Diary.daysReversed view diary).state :=
  .refresh view reached

end Questions

end Diary

end DrawingDiary
