import DrawingDiary.Proofs.Day.Unlisted
import DrawingDiary.Proofs.Diary.NewStrips
import DrawingDiary.Proofs.Diary.Undisturbed

/-!
# Strips that were made

`StripsMade` is what has been done for the strips of some days: which were made and where, what
they show, which days were looked at, that all else on the disk and in the other days is as it was,
and whose files were read. A look at a day is such a stretch (`stripsMade_look`), and so is the
writing of its strip (`stripsMade_put`), and what was done in two stretches was done in one
(`StripsMade.trans`).
-/

namespace DrawingDiary

open Naming (HourlyKind hourlyName? thumbnailFile)
open Disk (Stands Speakable)

section TakesStrip

variable {disk before after : Disk} {directory : Path} {fresh : Location → Tree → Prop}

/-- The strip of a directory is there or can be written: the directory is there, the path of the
strip is not too long, and nothing but a file stands under it. -/
structure TakesStrip (disk : Disk) (directory : Path) : Prop where
  stands : ∃ place children, Stands disk directory place children ∧
    ∀ t, Tree.lookup thumbnailFile children = some t → t.IsFile
  speakable : Speakable (directory.join thumbnailFile)

theorem takesStrip_of_stands {place : Location} {children : List (String × Tree)}
    (stands : Stands disk directory place children)
    (short : directory.text.utf8ByteSize + 1 + thumbnailFile.utf8ByteSize < Disk.pathLimit)
    (file : ∀ t, Tree.lookup thumbnailFile children = some t → t.IsFile) :
    TakesStrip disk directory :=
  ⟨⟨_, _, stands, file⟩,
    stands.speakable.join Naming.plainName_thumbnailFile (by decide) short⟩

theorem TakesStrip.cases (takes : TakesStrip disk directory) :
    disk.isFile (directory.join thumbnailFile) = true ∨
      ∃ place children, Stands disk directory place children ∧
        Tree.lookup thumbnailFile children = none := by
  obtain ⟨place, children, stands, file⟩ := takes.stands
  cases hchild : Tree.lookup thumbnailFile children with
  | none => exact .inr ⟨place, children, stands, hchild⟩
  | some t =>
      obtain ⟨content, modified, rfl⟩ := file t hchild
      exact .inl (stands.isFile_child Naming.plainName_thumbnailFile takes.speakable (by decide)
        hchild)

theorem TakesStrip.of_adds (takes : TakesStrip before directory)
    (adds : Disk.Adds fresh before after) (files : ∀ place t, fresh place t → t.IsFile) :
    TakesStrip after directory where
  speakable := takes.speakable
  stands := by
    obtain ⟨place, children, stands, file⟩ := takes.stands
    obtain ⟨children', hget'⟩ := adds.toKeptOn.directory trivial stands.directory
    refine ⟨place, children', stands.of_grown adds.toKeptOn hget', fun t hchild' => ?_⟩
    by_contra nofile
    obtain ⟨t', hchild, hsame⟩ := adds.lookup files hget' stands.directory hchild' nofile
    rw [← Tree.get?_snoc hget'] at hchild'
    obtain ⟨t'', hat, hface⟩ := adds.exists_at? files hchild' nofile
    rw [Disk.at?, Tree.get?_snoc stands.directory, hchild] at hat
    cases hat
    obtain ⟨content, modified, rfl⟩ := file t' hchild
    exact nofile ⟨content, modified, Tree.eq_file_of_face hface.symm⟩

end TakesStrip

/-- The file of the strip of a day stands at a place and holds the strip that the day remembers,
which is what its thumbnail encodes. -/
structure HoldsStrip (disk : Disk) (day : Day) (place : Location) : Prop where
  encode_eq : day.images.strip.encode = some day.images.thumbnail
  resolve_eq : disk.resolve true day.thumbnailPath = .ok (.found place)
  file : ∃ modified, disk.at? place = some (.file day.images.thumbnail modified)

section HoldsStrip

variable {disk after : Disk} {day : Day} {place : Location}

theorem HoldsStrip.of_grown (holds : HoldsStrip disk day place) (grown : Disk.Grown disk after) :
    HoldsStrip after day place where
  encode_eq := holds.encode_eq
  resolve_eq := grown.resolve_found holds.resolve_eq
  file := holds.file.imp fun _ hat => grown.file trivial hat

theorem HoldsStrip.isFile (holds : HoldsStrip disk day place) :
    disk.isFile day.thumbnailPath = true :=
  let ⟨modified, hat⟩ := holds.file
  Disk.isFile_iff.mpr ⟨place, _, modified, holds.resolve_eq, hat⟩

/-- A file that was put where the strip of a day has its free name holds what was put. -/
theorem holdsStrip_putFile {children : List (String × Tree)}
    (stands : Stands disk day.directory place children) (speakable : Speakable day.thumbnailPath)
    (free : Tree.lookup thumbnailFile children = none)
    (encode_eq : day.images.strip.encode = some day.images.thumbnail) :
    HoldsStrip (disk.putFile (place ++ [thumbnailFile]) day.images.thumbnail) day
      (place ++ [thumbnailFile]) := by
  obtain ⟨resolve_eq, hat⟩ := stands.found_of_putFile Naming.plainName_thumbnailFile speakable free
    (by decide) day.images.thumbnail
  exact ⟨encode_eq, resolve_eq, disk.now, hat⟩

end HoldsStrip

/-- What was done between two states to make the strips of some days at some places, the days that
were looked at, and the paths that were read for it. -/
structure StripsMade (before after : Disk × Diary) (made : List (DayId × Location))
    (looked : DayId → Prop) (reads : List Path) : Prop where
  /-- Nothing else has changed on the disk. -/
  adds : Disk.Adds (fun place t => t.IsFile ∧ place ∈ made.map (·.2)) before.1 after.1
  distinct : (made.map (·.2)).Nodup
  free : ∀ entry ∈ made, before.1.at? entry.2 = none
  placed : ∀ entry ∈ made, ∃ parent children,
    Stands before.1 (before.2.shelf.day entry.1).directory parent children ∧
      entry.2 = parent ++ [thumbnailFile]
  holds : ∀ entry ∈ made, HoldsStrip after.1 (after.2.shelf.day entry.1) entry.2
  others : ∀ id, ¬ looked id → after.2.shelf.day id = before.2.shelf.day id
  same : ∀ id, (after.2.shelf.day id).Named (before.2.shelf.day id).date
    (before.2.shelf.day id).directory (before.2.shelf.day id).settings
  size_eq : after.2.shelf.size = before.2.shelf.size
  reads : ∀ path ∈ reads, ∃ id, looked id ∧ (before.2.shelf.day id).HasPath path

section StripsMade

variable {before between after s : Disk × Diary} {made more : List (DayId × Location)}
  {looked wider : DayId → Prop} {reads others : List Path} {disk : Disk} {diary : Diary}
  {id : DayId}

theorem stripsMade_nil (s : Disk × Diary) : StripsMade s s [] (fun _ => False) [] where
  adds := .refl _
  distinct := List.nodup_nil
  free := nofun
  placed := nofun
  holds := nofun
  others _ _ := rfl
  same _ := ⟨rfl, rfl, rfl⟩
  size_eq := rfl
  reads := nofun

theorem StripsMade.mono (stripsMade : StripsMade before after made looked reads)
    (sub : ∀ id, looked id → wider id) : StripsMade before after made wider reads :=
  { stripsMade with
    others := fun id hid => stripsMade.others id fun h => hid (sub id h)
    reads := fun path hpath =>
      let ⟨id, hid, hday⟩ := stripsMade.reads path hpath
      ⟨id, sub id hid, hday⟩ }

theorem StripsMade.onlyStrips (stripsMade : StripsMade before after made looked reads) :
    OnlyStrips fun place t => t.IsFile ∧ place ∈ made.map (·.2) := by
  rintro place t ⟨file, hplace⟩
  obtain ⟨entry, hentry, rfl⟩ := List.mem_map.mp hplace
  obtain ⟨parent, children, -, hparent⟩ := stripsMade.placed entry hentry
  exact ⟨file, parent, hparent⟩

theorem StripsMade.directory_eq (stripsMade : StripsMade before after made looked reads)
    (id : DayId) : (after.2.shelf.day id).directory = (before.2.shelf.day id).directory :=
  (stripsMade.same id).directory_eq

theorem StripsMade.thumbnailPath_eq (stripsMade : StripsMade before after made looked reads)
    (id : DayId) :
    (after.2.shelf.day id).thumbnailPath = (before.2.shelf.day id).thumbnailPath := by
  rw [Day.thumbnailPath, Day.thumbnailPath, stripsMade.directory_eq]

/-- The places where something has come to stand are those of the strips that were made. -/
theorem StripsMade.mem_places_iff (stripsMade : StripsMade before after made looked reads)
    {place : Location} : place ∈ made.map (·.2) ↔
      before.1.at? place = none ∧ after.1.at? place ≠ none := by
  constructor
  · intro hplace
    obtain ⟨entry, hentry, rfl⟩ := List.mem_map.mp hplace
    obtain ⟨modified, hat⟩ := (stripsMade.holds entry hentry).file
    exact ⟨stripsMade.free entry hentry, by rw [hat]; exact Option.some_ne_none _⟩
  · rintro ⟨free, hstands⟩
    obtain ⟨t, hat⟩ := Option.ne_none_iff_exists'.mp hstands
    exact (stripsMade.adds.isFresh trivial hat free).2

theorem StripsMade.nodup_days (stripsMade : StripsMade before after made looked reads) :
    (made.map (·.1)).Nodup := by
  refine List.Nodup.map_on (fun entry hentry other hother same => ?_)
    (List.Nodup.of_map _ stripsMade.distinct)
  obtain ⟨parent, children, stands, hparent⟩ := stripsMade.placed entry hentry
  obtain ⟨parent', children', stands', hparent'⟩ := stripsMade.placed other hother
  rw [same] at stands
  obtain ⟨rfl, -⟩ := stands.unique stands'
  exact Prod.ext same (hparent.trans hparent'.symm)

theorem StripsMade.isFile_eq_false (stripsMade : StripsMade before after made looked reads)
    (hid : id ∈ made.map (·.1)) :
    before.1.isFile (before.2.shelf.day id).thumbnailPath = false := by
  obtain ⟨entry, hentry, rfl⟩ := List.mem_map.mp hid
  rw [Bool.eq_false_iff]
  intro hfile
  obtain ⟨place, content, modified, hresolve, hat⟩ := Disk.isFile_iff.mp hfile
  have hfound := Disk.Grown.resolve_found stripsMade.adds.toKeptOn hresolve
  rw [← stripsMade.thumbnailPath_eq, (stripsMade.holds entry hentry).resolve_eq] at hfound
  cases hfound
  rw [stripsMade.free entry hentry] at hat
  cases hat

theorem StripsMade.free_of_trans (first : StripsMade before between made looked reads)
    (second : StripsMade between after more wider others) :
    ∀ entry ∈ more, before.1.at? entry.2 = none := by
  intro entry hentry
  cases hat : before.1.at? entry.2 with
  | none => rfl
  | some t =>
      obtain ⟨t', hat', -⟩ := first.adds.stands trivial hat
      rw [second.free entry hentry] at hat'
      cases hat'

theorem StripsMade.placed_of_trans (first : StripsMade before between made looked reads)
    (second : StripsMade between after more wider others) :
    ∀ entry ∈ more, ∃ parent children,
      Stands before.1 (before.2.shelf.day entry.1).directory parent children ∧
        entry.2 = parent ++ [thumbnailFile] := by
  intro entry hentry
  obtain ⟨parent, children, stands, hparent⟩ := second.placed entry hentry
  rw [first.directory_eq] at stands
  obtain ⟨children', stands'⟩ := Disk.exists_stands_of_adds first.adds (fun _ _ h => h.1) stands
  exact ⟨parent, children', stands', hparent⟩

/-- What was done in two stretches, of which the second looks at other days than those whose strips
were made, was done in one. -/
theorem StripsMade.trans (first : StripsMade before between made looked reads)
    (second : StripsMade between after more wider others)
    (apart : ∀ id ∈ made.map (·.1), ¬ wider id) :
    StripsMade before after (made ++ more) (fun id => looked id ∨ wider id) (reads ++ others) := by
  constructor
  case adds =>
    refine (first.adds.mono (fun _ h => h) ?_).trans (second.adds.mono (fun _ h => h) ?_)
    · rintro place t - ⟨file, hplace⟩
      exact ⟨file, by rw [List.map_append]; exact List.mem_append_left _ hplace⟩
    · rintro place t - ⟨file, hplace⟩
      exact ⟨file, by rw [List.map_append]; exact List.mem_append_right _ hplace⟩
  case distinct =>
    rw [List.map_append]
    refine first.distinct.append second.distinct fun place hplace hplace' => ?_
    exact (first.mem_places_iff.mp hplace).2 (second.mem_places_iff.mp hplace').1
  case free => exact List.forall_mem_append.mpr ⟨first.free, first.free_of_trans second⟩
  case placed => exact List.forall_mem_append.mpr ⟨first.placed, first.placed_of_trans second⟩
  case holds =>
    refine List.forall_mem_append.mpr ⟨fun entry hentry => ?_, second.holds⟩
    rw [second.others _ (apart _ (List.mem_map_of_mem hentry))]
    exact (first.holds entry hentry).of_grown second.adds.toKeptOn
  case others =>
    intro id hid
    rw [not_or] at hid
    rw [second.others id hid.2, first.others id hid.1]
  case same =>
    intro id
    obtain ⟨hdate, hdirectory, hsettings⟩ := first.same id
    rw [← hdate, ← hdirectory, ← hsettings]
    exact second.same id
  case size_eq => exact second.size_eq.trans first.size_eq
  case reads =>
    refine List.forall_mem_append.mpr ⟨fun path hpath => ?_, fun path hpath => ?_⟩
    · obtain ⟨id, hid, hday⟩ := first.reads path hpath
      exact ⟨id, .inl hid, hday⟩
    · obtain ⟨id, hid, hday⟩ := second.reads path hpath
      rw [Day.HasPath, (first.same id).date_eq, first.directory_eq] at hday
      exact ⟨id, .inr hid, hday⟩

/-- A day was looked at. -/
theorem stripsMade_look {after : Day} (onShelf : id < diary.shelf.size)
    (same : after.Named (diary.shelf.day id).date (diary.shelf.day id).directory
      (diary.shelf.day id).settings)
    (hreads : ∀ path ∈ reads, (diary.shelf.day id).HasPath path) :
    StripsMade (disk, diary) (disk, { diary with shelf := diary.shelf.replace id after }) []
      (· = id) reads := by
  have hreplaced (other : DayId) : (diary.shelf.replace id after).day other =
      if id = other then after else diary.shelf.day other := by
    rw [Shelf.day_replace]
    exact if_congr (and_iff_left onShelf) rfl rfl
  constructor
  case adds => exact .refl _
  case distinct => exact List.nodup_nil
  case free | placed | holds => exact nofun
  case others =>
    intro other hother
    simp only [hreplaced]
    exact if_neg fun heq => hother heq.symm
  case same =>
    intro other
    simp only [hreplaced]
    split
    next heq => exact heq ▸ same
    · exact ⟨rfl, rfl, rfl⟩
  case size_eq => simp [Shelf.replace]
  case reads => exact fun path hmem => ⟨id, rfl, hreads path hmem⟩

/-- The strip that a day remembers was put under its free name. -/
theorem stripsMade_put {place : Location} {children : List (String × Tree)}
    (stands : Stands disk (diary.shelf.day id).directory place children)
    (speakable : Speakable (diary.shelf.day id).thumbnailPath)
    (free : Tree.lookup thumbnailFile children = none)
    (encode_eq : (diary.shelf.day id).images.strip.encode =
      some (diary.shelf.day id).images.thumbnail) :
    StripsMade (disk, diary)
      (disk.putFile (place ++ [thumbnailFile]) (diary.shelf.day id).images.thumbnail, diary)
      [(id, place ++ [thumbnailFile])] (fun _ => False) [] where
  adds := by
    have hput : Disk.Adds (fun other t => other = place ++ [thumbnailFile] ∧
        t = .file (diary.shelf.day id).images.thumbnail disk.now) disk
        (disk.putFile (place ++ [thumbnailFile]) (diary.shelf.day id).images.thumbnail) :=
      Disk.adds_put stands.directory free rfl rfl rfl
    refine hput.mono (fun _ h => h) ?_
    rintro other t - ⟨rfl, rfl⟩
    exact ⟨⟨_, _, rfl⟩, List.mem_singleton_self _⟩
  distinct := List.nodup_singleton _
  free := by
    refine List.forall_mem_singleton.mpr ?_
    rw [Disk.at?, Tree.get?_snoc stands.directory, free]
  placed := List.forall_mem_singleton.mpr ⟨place, children, stands, rfl⟩
  holds := List.forall_mem_singleton.mpr (holdsStrip_putFile stands speakable free encode_eq)
  others _ _ := rfl
  same _ := ⟨rfl, rfl, rfl⟩
  size_eq := rfl
  reads := nofun

end StripsMade

end DrawingDiary
