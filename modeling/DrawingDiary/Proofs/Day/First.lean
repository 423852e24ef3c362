import DrawingDiary.Proofs.Day.Listing
import Mathlib

/-!
# The file that counts for an hour

Several names in a day directory may be hourly names of one date and hour, `5` and `05`
being the same hour. The file with the least of these names counts (`IsFirstFile`), and it
is the one that the listing of the day has for the hour (`Day.file?_eq_some_iff`).
-/

namespace DrawingDiary

open Naming (HourlyKind)

/-- The name of a file in a day directory that is for the hour of the date. -/
structure IsHourlyFile (kind : HourlyKind) (date : String) (directory : Path) (disk : Disk)
    (hour : Hour) (name : String) : Prop where
  listed : ∃ names, disk.list directory = .ok names ∧ name ∈ names
  named : Naming.hourlyName? kind name = some ⟨date, hour⟩
  isFile : disk.isFile (directory.join name) = true

structure IsFirstFile (kind : HourlyKind) (date : String) (directory : Path) (disk : Disk)
    (hour : Hour) (name : String) : Prop
    extends IsHourlyFile kind date directory disk hour name where
  least : ∀ other, IsHourlyFile kind date directory disk hour other → name ≤ other

section Listing

variable {kind : HourlyKind} {date : String} {directory : Path} {disk : Disk} {hour : Hour}
  {name : String} {file : HourlyFile} {files : List HourlyFile}

theorem IsFirstFile.unique {other : String} (first : IsFirstFile kind date directory disk hour name)
    (first' : IsFirstFile kind date directory disk hour other) : name = other :=
  le_antisymm (first.least _ first'.toIsHourlyFile) (first'.least _ first.toIsHourlyFile)

/-- Leaving out all files of an hour but the first leaves the first one that there is. -/
theorem find?_firstPerHour (hour : Hour) (seen : List Hour) (files : List HourlyFile) :
    (firstPerHour seen files).find? (fun file => file.hour = hour) =
      if hour ∈ seen then none else files.find? fun file => file.hour = hour := by
  induction files generalizing seen with
  | nil => simp [firstPerHour]
  | cons first rest ih =>
      by_cases hseen : seen.contains first.hour
      · rw [firstPerHour, if_pos hseen, ih]
        by_cases hfirst : first.hour = hour
        · subst hfirst
          simp_all
        · simp [hfirst]
      · rw [firstPerHour, if_neg hseen]
        by_cases hfirst : first.hour = hour
        · subst hfirst
          simp_all
        · rw [List.find?_cons_of_neg (by simpa using hfirst),
            List.find?_cons_of_neg (by simpa using hfirst), ih]
          simp [Ne.symm hfirst]

/-- In a list sorted by name the first file that fits is the one with the least name. -/
theorem find?_eq_some_iff_of_pairwise {p : HourlyFile → Bool}
    (sorted : files.Pairwise fun a b => a.name ≤ b.name)
    (determined : ∀ a ∈ files, ∀ b ∈ files, p a → p b → a.name = b.name → a = b) :
    files.find? p = some file ↔
      file ∈ files ∧ p file ∧ ∀ other ∈ files, p other → file.name ≤ other.name := by
  have hleast : ∀ found, files.find? p = some found →
      ∀ other ∈ files, p other → found.name ≤ other.name := by
    intro found hfind other hother hfits
    obtain ⟨-, before, after, rfl, hbefore⟩ := List.find?_eq_some_iff_append.mp hfind
    rcases List.mem_append.mp hother with hmem | hmem
    · exact absurd hfits (by simpa using hbefore other hmem)
    · rcases List.mem_cons.mp hmem with rfl | hafter
      · exact le_refl _
      · exact List.rel_of_pairwise_cons (List.pairwise_append.mp sorted).2.1 hafter
  constructor
  · intro hfind
    exact ⟨List.mem_of_find?_eq_some hfind, List.find?_some hfind, hleast file hfind⟩
  · intro h
    rcases h with ⟨hmem, hfits, hfirst⟩
    obtain ⟨found, hfind⟩ := Option.isSome_iff_exists.mp (List.find?_isSome.mpr ⟨file, hmem, hfits⟩)
    have hmem' := List.mem_of_find?_eq_some hfind
    have hfits' := List.find?_some hfind
    rw [hfind, determined found hmem' file hmem hfits' hfits
      (le_antisymm (hleast found hfind file hmem hfits) (hfirst found hmem' hfits'))]

theorem pairwise_name_mergeSort (files : List HourlyFile) :
    (files.mergeSort fun a b => a.name ≤ b.name).Pairwise fun a b => a.name ≤ b.name := by
  have hsorted : (files.mergeSort fun a b => a.name ≤ b.name).Pairwise
      fun a b => decide (a.name ≤ b.name) = true :=
    List.pairwise_mergeSort (by simpa using fun a b c : HourlyFile => le_trans)
      (by simpa using fun a b : HourlyFile => le_total a.name b.name) _
  exact hsorted.imp of_decide_eq_true

/-- The hourly files of some names, from which the listing takes the first of each hour. -/
def namedFiles (kind : HourlyKind) (date : String) (directory : Path) (disk : Disk)
    (names : List String) : List HourlyFile :=
  ((names.filterMap (HourlyFile.ofName? kind date directory)).filter fun file =>
    disk.isFile file.path).mergeSort fun a b => a.name ≤ b.name

theorem ofName?_eq_some_iff : HourlyFile.ofName? kind date directory name = some file ↔
    Naming.hourlyName? kind name = some ⟨date, file.hour⟩ ∧
      file = ⟨file.hour, name, directory.join name⟩ := by
  unfold HourlyFile.ofName?
  cases hname : Naming.hourlyName? kind name with
  | none => simp
  | some parsed =>
      obtain ⟨parsedDate, parsedHour⟩ := parsed
      obtain ⟨hour, fileName, path⟩ := file
      by_cases hdate : parsedDate = date
      · subst hdate
        simp only [if_true, Option.some.injEq, HourlyFile.mk.injEq, Naming.HourlyName.mk.injEq,
          true_and]
        constructor
        · rintro ⟨rfl, rfl, rfl⟩
          exact ⟨rfl, rfl, rfl⟩
        · rintro ⟨rfl, rfl, rfl⟩
          exact ⟨rfl, rfl, rfl⟩
      · simp [hdate]

theorem mem_namedFiles_iff {names : List String} (hlist : disk.list directory = .ok names) :
    file ∈ namedFiles kind date directory disk names ↔
      IsHourlyFile kind date directory disk file.hour file.name ∧
        file = ⟨file.hour, file.name, directory.join file.name⟩ := by
  rw [namedFiles, (List.mergeSort_perm _ _).mem_iff, List.mem_filter, List.mem_filterMap]
  constructor
  · intro h
    rcases h with ⟨⟨name, hmem, hfile⟩, hisFile⟩
    obtain ⟨hname, hfile⟩ := ofName?_eq_some_iff.mp hfile
    rw [hfile] at hisFile ⊢
    exact ⟨⟨⟨names, hlist, hmem⟩, hname, hisFile⟩, rfl⟩
  · intro h
    rcases h with ⟨⟨⟨listed, hlisted, hmem⟩, hname, hisFile⟩, hfile⟩
    rw [hlist] at hlisted
    cases hlisted
    refine ⟨⟨file.name, hmem, ofName?_eq_some_iff.mpr ⟨hname, hfile⟩⟩, ?_⟩
    rw [hfile]
    exact hisFile

theorem pairwise_namedFiles (kind : HourlyKind) (date : String) (directory : Path) (disk : Disk)
    (names : List String) :
    (namedFiles kind date directory disk names).Pairwise fun a b => a.name ≤ b.name :=
  pairwise_name_mergeSort _

theorem find?_hourlyFiles_eq_some_iff :
    (hourlyFiles kind date directory disk).find? (fun file => file.hour = hour) = some file ↔
      IsFirstFile kind date directory disk hour file.name ∧
        file = ⟨hour, file.name, directory.join file.name⟩ := by
  cases hlist : disk.list directory with
  | error e =>
      rw [hourlyFiles, hlist]
      simp only [List.find?_nil, reduceCtorEq, false_iff]
      rintro ⟨first, -⟩
      obtain ⟨names, hnames, -⟩ := first.listed
      rw [hlist] at hnames
      cases hnames
  | ok names =>
      have hfiles : hourlyFiles kind date directory disk =
          firstPerHour [] (namedFiles kind date directory disk names) := by
        rw [hourlyFiles, hlist]
        rfl
      have hmem {file : HourlyFile} : file ∈ namedFiles kind date directory disk names ↔
          IsHourlyFile kind date directory disk file.hour file.name ∧
            file = ⟨file.hour, file.name, directory.join file.name⟩ := mem_namedFiles_iff hlist
      rw [hfiles, find?_firstPerHour, if_neg List.not_mem_nil,
        find?_eq_some_iff_of_pairwise (pairwise_namedFiles kind date directory disk names)]
      · constructor
        · intro h
          rcases h with ⟨hfile, hhour, hleast⟩
          obtain rfl : file.hour = hour := by simpa using hhour
          obtain ⟨hhourly, hfile⟩ := hmem.mp hfile
          refine ⟨⟨hhourly, fun other hother => ?_⟩, hfile⟩
          exact hleast ⟨file.hour, other, directory.join other⟩ (hmem.mpr ⟨hother, rfl⟩) (by simp)
        · intro h
          rcases h with ⟨first, hfile⟩
          obtain rfl : file.hour = hour := by rw [hfile]
          refine ⟨hmem.mpr ⟨first.toIsHourlyFile, hfile⟩, by simp, fun other hother hhour => ?_⟩
          have hsame : other.hour = file.hour := by simpa using hhour
          exact first.least _ (hsame ▸ (hmem.mp hother).1)
      · intro a ha b hb hhourA hhourB hname
        have hhour : a.hour = b.hour := by
          rw [decide_eq_true_eq] at hhourA hhourB
          rw [hhourA, hhourB]
        rw [(hmem.mp ha).2, (hmem.mp hb).2, hhour, hname]

theorem find?_hourlyFiles_eq_none_iff :
    (hourlyFiles kind date directory disk).find? (fun file => file.hour = hour) = none ↔
      ∀ name, ¬ IsHourlyFile kind date directory disk hour name := by
  constructor
  · intro hnone name hhourly
    obtain ⟨names, hlist, hmem⟩ := hhourly.listed
    have hfile : (⟨hour, name, directory.join name⟩ : HourlyFile) ∈
        namedFiles kind date directory disk names := (mem_namedFiles_iff hlist).mpr ⟨hhourly, rfl⟩
    rw [hourlyFiles, hlist] at hnone
    change (firstPerHour [] (namedFiles kind date directory disk names)).find? _ = none at hnone
    rw [find?_firstPerHour, if_neg List.not_mem_nil, List.find?_eq_none] at hnone
    exact hnone _ hfile (by simp)
  · intro h
    refine Option.eq_none_iff_forall_ne_some.mpr fun file hfile => ?_
    exact h _ (find?_hourlyFiles_eq_some_iff.mp hfile).1.toIsHourlyFile

end Listing

namespace Day

variable {day : Day} {kind : HourlyKind} {disk : Disk} {hour : Hour}

theorem file?_eq_some_iff {file : HourlyFile} : day.file? kind disk hour = some file ↔
    IsFirstFile kind day.date day.directory disk hour file.name ∧
      file = ⟨hour, file.name, day.directory.join file.name⟩ :=
  find?_hourlyFiles_eq_some_iff

theorem file?_eq_none_iff : day.file? kind disk hour = none ↔
    ∀ name, ¬ IsHourlyFile kind day.date day.directory disk hour name :=
  find?_hourlyFiles_eq_none_iff

theorem isSome_file?_iff : (day.file? kind disk hour).isSome = true ↔
    ∃ name, IsHourlyFile kind day.date day.directory disk hour name := by
  rw [Option.isSome_iff_ne_none, ne_eq, file?_eq_none_iff, not_forall_not]

theorem at?_imageFileNames (day : Day) (disk : Disk) (hour : Hour) :
    (day.imageFileNames disk).at? hour = (day.file? .image disk hour).map (·.name) := by
  rw [imageFileNames, Slots.at?_foldl_put (day.pairwise_hour_files .image disk), Slots.at?_empty,
    Option.or_none]
  rfl

/-- The file name of an hour is the least one that there is in the directory. -/
theorem at?_imageFileNames_eq_some_iff {name : String} :
    (day.imageFileNames disk).at? hour = some name ↔
      IsFirstFile .image day.date day.directory disk hour name := by
  rw [at?_imageFileNames, Option.map_eq_some_iff]
  constructor
  · rintro ⟨file, hfile, rfl⟩
    exact (file?_eq_some_iff.mp hfile).1
  · intro first
    exact ⟨⟨hour, name, day.directory.join name⟩, file?_eq_some_iff.mpr ⟨first, rfl⟩, rfl⟩

theorem has_imageMask_iff : (day.imageMask disk).has hour = true ↔
    ∃ name, IsHourlyFile .image day.date day.directory disk hour name := by
  rw [has_imageMask, at?_imageFileNames, Option.isSome_map, isSome_file?_iff]

end Day

end DrawingDiary
