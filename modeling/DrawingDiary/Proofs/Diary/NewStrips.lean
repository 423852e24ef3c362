import DrawingDiary.Proofs.Day.StripFile
import DrawingDiary.Proofs.Diary.History
import DrawingDiary.Proofs.Diary.Strips
import DrawingDiary.Proofs.Disk.Place

/-!
# Where strips are written

Seeing to the strips of all days adds nothing to the disk but files, each in the directory of
one of the days, under the name that a strip has there (`adds_materializeThumbnails`). This
needs that no link stands under such a name: a strip would be written through it.
-/

namespace DrawingDiary

open Disk (Adds Stands)
open Naming (thumbnailFile)

theorem Path.nonempty_join_plain (p : Path) {name : String} (plain : PlainName name) :
    (p.join name).text.isEmpty = false := by
  have hname : name ≠ "" := fun h => plain.ne_nil (by rw [h]; rfl)
  unfold join
  split
  · simpa using hname
  · split <;> simp [hname]

/-- The place is that of the strip in one of the directories. -/
def IsStripPlace (disk : Disk) (directories : List Path) (place : Location) : Prop :=
  ∃ directory ∈ directories, ∃ parent children, Stands disk directory parent children ∧
    place = parent ++ [thumbnailFile]

/-- A file that has the place of the strip in one of the directories. -/
def IsStripFile (disk : Disk) (directories : List Path) (place : Location) (t : Tree) : Prop :=
  t.IsFile ∧ IsStripPlace disk directories place

/-- No link has the place of the strip in one of the directories. -/
def StripsUnlinked (disk : Disk) (directories : List Path) : Prop :=
  ∀ place, IsStripPlace disk directories place → ∀ target, disk.at? place ≠ some (.link target)

variable {disk now : Disk} {directories : List Path}

theorem isFile_of_isStripFile (place : Location) (t : Tree)
    (h : IsStripFile disk directories place t) : t.IsFile := h.1

theorem isStripPlace_of_stands (adds : Adds (IsStripFile disk directories) disk now)
    {directory : Path} {parent : Location} {children : List (String × Tree)}
    (stands : Stands now directory parent children) (hmem : directory ∈ directories) :
    IsStripPlace disk directories (parent ++ [thumbnailFile]) := by
  obtain ⟨children', stands'⟩ := Disk.exists_stands_of_adds adds isFile_of_isStripFile stands
  exact ⟨directory, hmem, parent, children', stands', rfl⟩

theorem adds_of_vacant (unlinked : StripsUnlinked disk directories)
    (adds : Adds (IsStripFile disk directories) disk now) {directory : Path}
    (hmem : directory ∈ directories) (nonempty : directory.text.isEmpty = false)
    {parent : Location} {name : String} (content : ByteArray)
    (h : now.resolve true (directory.join thumbnailFile) = .ok (.vacant parent name)) :
    Adds (IsStripFile disk directories) disk (now.putFile (parent ++ [name]) content) := by
  obtain ⟨place, children, left, stands, hlast⟩ :=
    Disk.exists_stands_of_join nonempty Naming.plainName_thumbnailFile h
  have hplace := isStripPlace_of_stands adds stands hmem
  rcases Disk.eq_vacant_of_walk_last stands.directory hlast with ⟨rfl, rfl, free⟩ | ⟨target, hlink⟩
  · have hput : Adds (fun other t => other = parent ++ [thumbnailFile] ∧ t = .file content now.now)
        now (now.putFile (parent ++ [thumbnailFile]) content) :=
      Disk.adds_put stands.directory free rfl rfl rfl
    refine adds.trans (hput.mono (fun _ h => h) fun other t _ hnew => ?_)
    obtain ⟨rfl, rfl⟩ := hnew
    exact ⟨⟨content, now.now, rfl⟩, hplace⟩
  · rw [← Tree.get?_snoc stands.directory] at hlink
    obtain ⟨t', hat', hface⟩ :=
      adds.exists_at? isFile_of_isStripFile hlink (by rintro ⟨_, _, habsurd⟩; cases habsurd)
    cases t' <;> cases hface
    exact absurd hat' (unlinked _ hplace target)

theorem Day.adds_createThumbnailFile (setting : Setting)
    (unlinked : StripsUnlinked disk directories)
    (adds : Adds (IsStripFile disk directories) disk now) {day : Day}
    (hmem : day.directory ∈ directories) (nonempty : day.directory.text.isEmpty = false) :
    Adds (IsStripFile disk directories) disk (createThumbnailFile setting (now, day)).state.1 := by
  rw [createThumbnailFile_eq]
  by_cases hfile : now.isFile day.thumbnailPath
  · rw [if_pos hfile]
    exact adds
  · rw [if_neg hfile]
    cases hresult : (refreshForStrip ⟨setting, now⟩ day).result with
    | none =>
        simp only [hresult]
        exact adds
    | some _ =>
        simp only [hresult]
        rw [thumbnailPath_refreshForStrip]
        rcases saveStrip_eq_putFile _ (by simpa using hfile) with
          hsame | ⟨parent, name, content, hresolve, hput⟩
        · rw [hsame]
          exact adds
        · rw [hput]
          exact adds_of_vacant unlinked adds hmem nonempty content hresolve

theorem plainName_of_isStripFile (wellNamed : disk.WellNamed) (place : Location) (t : Tree)
    (h : IsStripFile disk directories place t) : ∀ name ∈ place, Path.PlainName name := by
  obtain ⟨-, directory, -, parent, children, stands, rfl⟩ := h
  refine List.forall_mem_append.mpr ⟨wellNamed _ _ stands.directory, ?_⟩
  exact List.forall_mem_singleton.mpr Naming.plainName_thumbnailFile

namespace Diary

def dayDirectories (diary : Diary) : List Path :=
  diary.newestFirst.map fun id => (diary.shelf.day id).directory

theorem Reached.nonempty_directory {roots : List Path} {settings : DaySettings} {cooldown : Nat}
    {diary : Diary} (reached : Reached roots settings cooldown diary) {id : DayId}
    (hid : id ∈ diary.newestFirst) : (diary.shelf.day id).directory.text.isEmpty = false := by
  obtain ⟨history, hreached⟩ := reached.exists_history
  obtain ⟨⟨date, _⟩, hentry, rfl⟩ := List.mem_map.mp hid
  obtain ⟨disk, root, hroot, hdirectory⟩ :=
    (hreached.traced (List.mem_mergeSort.mp hentry)).place
  rw [hdirectory]
  have written := (holdsDayOn_iff.mp (List.find?_some hroot)).1
  exact root.nonempty_join_plain (Naming.IsWrittenDate.plainName written)

theorem directory_createThumbnailFile (setting : Setting) (id other : DayId)
    (s : Disk × Diary) :
    ((createThumbnailFile setting id s).state.2.shelf.day other).directory =
      (s.2.shelf.day other).directory := by
  change ((s.2.shelf.replace id (Day.Call.createThumbnailFile.after ⟨setting, s.1⟩
    (s.2.shelf.day id))).day other).directory = _
  rw [Shelf.day_replace]
  split
  next hsame =>
    obtain ⟨rfl, -⟩ := hsame
    have named : (s.2.shelf.day id).Named (s.2.shelf.day id).date (s.2.shelf.day id).directory
        (s.2.shelf.day id).settings := ⟨rfl, rfl, rfl⟩
    exact (named.after ⟨setting, s.1⟩ .createThumbnailFile).directory_eq
  · rfl

/-- Seeing to the strips of all days adds at most the files of these strips. -/
theorem adds_materializeThumbnails (setting : Setting) {roots : List Path}
    {settings : DaySettings} {cooldown : Nat} {diary : Diary}
    (reached : Reached roots settings cooldown diary)
    (unlinked : StripsUnlinked disk (diary.refresh ⟨setting, disk⟩).dayDirectories) :
    Adds (IsStripFile disk (diary.refresh ⟨setting, disk⟩).dayDirectories) disk
      (materializeThumbnails setting (disk, diary)).state.1 := by
  let refreshed := diary.refresh ⟨setting, disk⟩
  have reached' : Reached roots settings cooldown refreshed := .refresh _ reached
  -- what was added so far, and that the days are still in their directories
  let inv : Disk × Diary → Prop := fun s =>
    Adds (IsStripFile disk refreshed.dayDirectories) disk s.1 ∧
      ∀ id, (s.2.shelf.day id).directory = (refreshed.shelf.day id).directory
  have hstep : ∀ id ∈ refreshed.newestFirst, ∀ s, inv s →
      inv (createThumbnailFile setting id s).state := by
    rintro id hid ⟨now, current⟩ ⟨adds, same⟩
    have hmem : (current.shelf.day id).directory ∈ refreshed.dayDirectories := by
      rw [same]
      exact List.mem_map_of_mem hid
    have nonempty : (current.shelf.day id).directory.text.isEmpty = false := by
      rw [same]
      exact reached'.nonempty_directory hid
    refine ⟨Day.adds_createThumbnailFile setting unlinked adds hmem nonempty, fun other => ?_⟩
    rw [directory_createThumbnailFile, same]
  change Adds _ disk ((Run.forEach refreshed.newestFirst (createThumbnailFile setting) >>= _)
    (disk, refreshed)).state.1
  rw [Run.state_bind_of_keeps _ fun _ _ => rfl]
  exact (Run.forEach_invariant inv hstep _ ⟨.refl disk, fun _ => rfl⟩).1

end Diary

end DrawingDiary
