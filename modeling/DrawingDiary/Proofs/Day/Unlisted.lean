import DrawingDiary.Proofs.Day.Winners
import DrawingDiary.Proofs.Disk.NewFiles

/-!
# Strips are not listed

The file of a strip stands among the drawings of a day and is a picture itself, but its name is no
hourly name, so no listing of a day shows a strip that was added (`hourlyFiles_eq_of_strips`). Only
through a link can a strip count: what a link with an hourly name leads to is there when the strip
is. The days without such links are `ApartFromStrips`, and what they show straight from their
directory stays the same when strips are added.
-/

namespace DrawingDiary

open Naming (HourlyKind hourlyName? thumbnailFile)

variable {kind : HourlyKind} {date : String} {directory : Path} {disk before after : Disk}
  {fresh : Location → Tree → Prop}

/-- What is new is named like the strip of a day. -/
def OnlyStrips (fresh : Location → Tree → Prop) : Prop :=
  ∀ place t, fresh place t → t.IsFile ∧ ∃ parent, place = parent ++ [thumbnailFile]

theorem OnlyStrips.isFile (strips : OnlyStrips fresh) (place : Location) (t : Tree)
    (h : fresh place t) : t.IsFile := (strips place t h).1

theorem OnlyStrips.eq_thumbnailFile (strips : OnlyStrips fresh) {parent : Location} {name : String}
    {t : Tree} (h : fresh (parent ++ [name]) t) : name = thumbnailFile := by
  obtain ⟨-, other, heq⟩ := strips _ t h
  simpa using (List.append_inj' heq rfl).2

/-- No name in the directory that is an hourly name of the date leads to a strip that is missing.
Only the name of a link could. -/
def ApartFromStrips (kind : HourlyKind) (date : String) (directory : Path) (disk : Disk) : Prop :=
  ∀ names, disk.list directory = .ok names → ∀ name ∈ names, ∀ hour,
    hourlyName? kind name = some ⟨date, hour⟩ →
      ∀ parent, disk.resolve true (directory.join name) ≠ .ok (.vacant parent thumbnailFile)

/-- No listing shows a strip that was added. -/
theorem hourlyFiles_eq_of_strips (adds : Disk.Adds fresh before after) (strips : OnlyStrips fresh)
    (apart : ApartFromStrips kind date directory before) :
    hourlyFiles kind date directory after = hourlyFiles kind date directory before := by
  have grown : Disk.Grown before after := adds.toKeptOn
  refine hourlyFiles_eq_of_isHourlyFile_iff fun hour name => ⟨fun h => ?_, fun h => ?_⟩
  · obtain ⟨⟨names', hlist', hname'⟩, hnamed, hfile⟩ := h
    obtain ⟨names, hlist, hnames⟩ := adds.exists_list strips.isFile hlist'
    have hname : name ∈ names := by
      rcases hnames name hname' with hname | ⟨place, t, hfresh⟩
      · exact hname
      · rw [strips.eq_thumbnailFile hfresh, thumbnailFile_outsideGrammar] at hnamed
        cases hnamed
    refine ⟨⟨names, hlist, hname⟩, hnamed, ?_⟩
    rcases adds.isFile strips.isFile hfile with hfile | ⟨parent, last, t, hvacant, hfresh⟩
    · exact hfile
    · rw [strips.eq_thumbnailFile hfresh] at hvacant
      exact absurd hvacant (apart names hlist name hname hour hnamed parent)
  · obtain ⟨⟨names, hlist, hname⟩, hnamed, hfile⟩ := h
    obtain ⟨names', hlist', hsub⟩ := grown.list hlist
    exact ⟨⟨names', hlist', hsub name hname⟩, hnamed, grown.isFile hfile⟩

/-- What a day shows straight from its directory stays the same when strips are added. -/
theorem Day.shows_eq_of_strips (adds : Disk.Adds fresh before after) (strips : OnlyStrips fresh)
    {day : Day} (apart : ApartFromStrips .image day.date day.directory before) :
    day.imageMask after = day.imageMask before ∧
      day.imageFileNames after = day.imageFileNames before := by
  have hfiles : day.files .image after = day.files .image before :=
    hourlyFiles_eq_of_strips adds strips apart
  rw [imageMask, imageMask, imageFileNames, imageFileNames, hfiles]
  exact ⟨rfl, rfl⟩

end DrawingDiary
