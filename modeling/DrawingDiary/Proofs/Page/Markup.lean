import DrawingDiary.Page.Render
import DrawingDiary.Proofs.Day.Listing
import DrawingDiary.Proofs.Naming.Date
import DrawingDiary.Proofs.Text.Attribute
import DrawingDiary.Proofs.Run
import Mathlib

/-!
# The markup of the hour cells

The quotes and angle brackets in the cells of a static page come from the cells themselves and
from the names of the drawings: the texts of the notes are escaped, and the names of notes and
the addresses of days have none. So two days with drawings and notes at the same hours have
cells with the same markup, whatever their notes say, as long as the names of their drawings
have the same (`markup_dayLinks_congr`). The name of a drawing is not escaped, so one with a
quote in it ends the attribute it stands in.
-/

namespace DrawingDiary

open Text (markup markup_append markup_join)

theorem Naming.IsWrittenDate.markup_eq_nil {date : String} (written : IsWrittenDate date) :
    markup date = [] := by
  apply Text.markup_eq_nil_iff.mpr
  intro c hc
  rcases written.isDigit hc with rfl | hdigit
  · rfl
  · apply Bool.eq_false_iff.mpr
    intro hmarkup
    simp only [Text.isMarkup, Bool.or_eq_true, beq_iff_eq] at hmarkup
    rcases hmarkup with (rfl | rfl) | rfl <;> exact absurd hdigit (by decide)

theorem Naming.markup_repr_hour (hour : Hour) : markup hour.val.repr = [] := by
  revert hour
  decide

theorem Naming.markup_eventFileName {date : String} (written : IsWrittenDate date) (hour : Hour) :
    markup (eventFileName date hour.val) = [] := by
  rw [eventFileName]
  simp only [markup_append, written.markup_eq_nil, markup_repr_hour]
  decide

theorem PageTarget.markup_dayUrl {date : String} (written : Naming.IsWrittenDate date)
    (month : Option String) : markup ((staticPage month).dayUrl date) = [] := by
  have hpath : markup (staticPage month).pathToRoot = [] := by
    cases month with
    | none => exact (by decide : markup "." = [])
    | some month => exact (by decide : markup ".." = [])
  have hroot : markup ("/" ++ drawingsDirectory ++ "/") = [] := by decide
  change markup ((staticPage month).pathToRoot ++ "/" ++ drawingsDirectory ++ "/" ++ date) = []
  simp only [markup_append, hpath, written.markup_eq_nil] at hroot ⊢
  exact hroot

namespace Cells

variable {dayUrl date : String}

theorem markup_imageLink (hurl : markup dayUrl = []) (fileName : String) :
    markup (imageLink dayUrl fileName) =
      markup "<a href=\"" ++ markup fileName ++ markup "\"></a>" := by
  have hslash : markup "/" = [] := by decide
  simp only [imageLink, markup_append, hurl, hslash, List.append_nil]

/-- The markup of a link to a note does not depend on the note. -/
theorem markup_noteLink (hurl : markup dayUrl = []) (written : Naming.IsWrittenDate date)
    (hour : Hour) (text : String) :
    markup (noteLink dayUrl date hour text) =
      markup "<a href=\"" ++ markup "\" class=\"event-link\" title=\"" ++ markup "\">Note</a>" := by
  have hslash : markup "/" = [] := by decide
  simp only [noteLink, markup_append, hurl, hslash, Naming.markup_eventFileName written,
    Text.markup_escapeAttribute, List.append_nil]

/-- The markup of a cell depends on the markup in the name of the drawing and on whether there
is a note, and on nothing else. -/
theorem markup_staticCell_congr {dayUrl' date' : String} (hurl : markup dayUrl = [])
    (hurl' : markup dayUrl' = []) (written : Naming.IsWrittenDate date)
    (written' : Naming.IsWrittenDate date') (hour : Hour) {image image' note note' : Option String}
    (himage : image.map markup = image'.map markup) (hnote : note.isSome = note'.isSome) :
    markup (staticCell dayUrl date hour image note) =
      markup (staticCell dayUrl' date' hour image' note') := by
  cases image with
  | none =>
      obtain rfl : image' = none := Option.map_eq_none_iff.mp himage.symm
      cases note with
      | none =>
          obtain rfl : note' = none := by simpa using hnote.symm
          rfl
      | some text =>
          obtain ⟨text', rfl⟩ := Option.isSome_iff_exists.mp hnote.symm
          simp only [staticCell, markup_append, markup_noteLink hurl written,
            markup_noteLink hurl' written']
  | some name =>
      obtain ⟨name', rfl, hname⟩ := Option.map_eq_some_iff.mp himage.symm
      cases note with
      | none =>
          obtain rfl : note' = none := by simpa using hnote.symm
          simp only [staticCell, markup_append, markup_imageLink hurl, markup_imageLink hurl',
            hname]
      | some text =>
          obtain ⟨text', rfl⟩ := Option.isSome_iff_exists.mp hnote.symm
          simp only [staticCell, markup_append, markup_imageLink hurl, markup_imageLink hurl',
            markup_noteLink hurl written, markup_noteLink hurl' written', hname]

/-- A quote in the name of a drawing is one more quote in the cell. -/
example : markup (staticCell "." "2022-11-01" 5 (some "a\"b-2022-11-01-5.png") none) ≠
    markup (staticCell "." "2022-11-01" 5 (some "ab-2022-11-01-5.png") none) := by decide

/-- The cells of two days have the same markup when hour by hour the names of their drawings
have, and there are notes at the same hours. -/
theorem markup_join_static_congr {dayUrl' date' : String} (hurl : markup dayUrl = [])
    (hurl' : markup dayUrl' = []) (written : Naming.IsWrittenDate date)
    (written' : Naming.IsWrittenDate date') {images images' notes notes' : Slots String}
    (himages : ∀ hour, (images.at? hour).map markup = (images'.at? hour).map markup)
    (hnotes : ∀ hour, (notes.at? hour).isSome = (notes'.at? hour).isSome) :
    markup (String.join (static dayUrl date images notes)) =
      markup (String.join (static dayUrl' date' images' notes')) := by
  rw [markup_join, markup_join, static, static, List.flatMap_map, List.flatMap_map]
  congr 1
  funext hour
  exact markup_staticCell_congr hurl hurl' written written' hour (himages hour) (hnotes hour)

end Cells

namespace Page

theorem result_dayLinks_static (view : View) (path dayUrl : String) (day : Day) :
    (dayLinks view (.static path) dayUrl day).result =
      (Day.events view day).result.map fun notes =>
        String.join (Cells.static dayUrl day.date (day.imageFileNames view.disk) notes) := by
  simp only [dayLinks, Run.bind_apply, Run.state]
  cases (Day.events view day).result <;> rfl

/-- The cells of two days with drawings and notes at the same hours have the same markup,
whatever the notes say, as long as the names of the drawings have the same markup. -/
theorem markup_dayLinks_congr {view view' : View} {day day' : Day} {month month' : Option String}
    (dated : Naming.isDayName day.date = true) (dated' : Naming.isDayName day'.date = true)
    {notes notes' : Slots String} (read : (Day.events view day).result = some notes)
    (read' : (Day.events view' day').result = some notes')
    (drawn : ∀ hour, (day.imageMask view.disk).has hour = (day'.imageMask view'.disk).has hour)
    (noted : ∀ hour, (notes.at? hour).isSome = (notes'.at? hour).isSome)
    (named : ∀ hour name name', (day.imageFileNames view.disk).at? hour = some name →
      (day'.imageFileNames view'.disk).at? hour = some name' → markup name = markup name') :
    ∃ cells cells',
      (dayLinks view (.staticPage month) ((PageTarget.staticPage month).dayUrl day.date)
        day).result = some cells ∧
      (dayLinks view' (.staticPage month') ((PageTarget.staticPage month').dayUrl day'.date)
        day').result = some cells' ∧
      markup cells = markup cells' := by
  have written := Naming.isDayName_iff.mp dated
  have written' := Naming.isDayName_iff.mp dated'
  have himages : ∀ hour, ((day.imageFileNames view.disk).at? hour).map markup =
      ((day'.imageFileNames view'.disk).at? hour).map markup := by
    intro hour
    have hdrawn := drawn hour
    rw [Day.has_imageMask, Day.has_imageMask] at hdrawn
    cases hname : (day.imageFileNames view.disk).at? hour with
    | none =>
        have hnone : (day'.imageFileNames view'.disk).at? hour = none := by
          rw [hname] at hdrawn
          exact Option.isSome_eq_false_iff.mp hdrawn.symm |> Option.isNone_iff_eq_none.mp
        rw [hnone]
    | some name =>
        rw [hname] at hdrawn
        obtain ⟨name', hname'⟩ := Option.isSome_iff_exists.mp hdrawn.symm
        rw [hname', Option.map_some, Option.map_some, named hour name name' hname hname']
  refine ⟨_, _, (result_dayLinks_static _ _ _ _).trans (congrArg _ read),
    (result_dayLinks_static _ _ _ _).trans (congrArg _ read'), ?_⟩
  exact Cells.markup_join_static_congr (PageTarget.markup_dayUrl written month)
    (PageTarget.markup_dayUrl written' month') written written' himages noted

open Disk (Stands)
open DrawingDiary.Path (PlainName)

section TwoDays

/-- What a day directory holds, a note and a drawing. -/
def twoDaysEntries (note drawing : String) : List (String × Tree) :=
  [(note, .file ByteArray.empty ⟨0, 0⟩), (drawing, .file ByteArray.empty ⟨0, 0⟩)]

/-- A disk with two days that have a drawing at five and a note at seven. -/
def twoDaysDisk : Disk where
  root := .directory
    [("2022-11-01", .directory (twoDaysEntries "event-2022-11-01-7.txt" "a-2022-11-01-05.png")),
    ("2022-11-02", .directory (twoDaysEntries "event-2022-11-02-07.txt" "b & c-2022-11-02-5.png"))]

/-- A look at this disk with a reader that reads one text from every note. -/
def twoDaysView (text : String) : View where
  reader := { image := fun _ _ => .aborted, note := fun _ _ => .success text }
  now := 0
  disk := twoDaysDisk

def firstDay : Day := Day.new "2022-11-01" ⟨"/2022-11-01"⟩ {}

def secondDay : Day := Day.new "2022-11-02" ⟨"/2022-11-02"⟩ {}

theorem stands_firstDay : Stands twoDaysDisk ⟨"/2022-11-01"⟩ ["2022-11-01"]
    (twoDaysEntries "event-2022-11-01-7.txt" "a-2022-11-01-05.png") := ⟨by cbv, by cbv⟩

theorem stands_secondDay : Stands twoDaysDisk ⟨"/2022-11-02"⟩ ["2022-11-02"]
    (twoDaysEntries "event-2022-11-02-07.txt" "b & c-2022-11-02-5.png") := ⟨by cbv, by cbv⟩

theorem result_events_of_single (text : String) {date : String} {directory : Path}
    {file : HourlyFile} (hfiles : (Day.new date directory {}).files .event twoDaysDisk = [file]) :
    ∃ notes, (Day.events (twoDaysView text) (Day.new date directory {})).result = some notes ∧
      ∀ hour, (notes.at? hour).isSome = (hour == file.hour) := by
  let day := Day.new date directory {}
  have hshown : day.files .event (twoDaysView text).disk = [file] := hfiles
  have hlooks : day.noteLooks (twoDaysView text) = [⟨file.hour, file.path, .success text⟩] := by
    rw [Day.noteLooks, hshown, List.filter_cons_of_pos]
    · rfl
    · exact congrArg Option.isNone (Slots.at?_empty file.hour)
  have hresult : (Day.events (twoDaysView text) day).result = some
      ({ day.notes with gate := day.notes.gate.stamp 0 }.settle [file.hour]
        [⟨file.hour, file.path, .success text⟩]).slots := by
    simp only [Day.events, Run.bind_apply, Day.refreshEvents_eq, hlooks, hshown]
    rfl
  refine ⟨_, hresult, fun hour => ?_⟩
  by_cases hhour : hour = file.hour
  · simp [NoteState.settle, NoteState.accept, hhour]
  · simp [NoteState.settle, hhour]

theorem files_image_firstDay : firstDay.files .image twoDaysDisk =
    [⟨5, "a-2022-11-01-05.png", firstDay.directory.join "a-2022-11-01-05.png"⟩] :=
  Day.files_of_single stands_firstDay ⟨by decide, by decide⟩ (by decide) (by decide) rfl (by decide)

theorem files_image_secondDay : secondDay.files .image twoDaysDisk =
    [⟨5, "b & c-2022-11-02-5.png", secondDay.directory.join "b & c-2022-11-02-5.png"⟩] :=
  Day.files_of_single stands_secondDay ⟨by decide, by decide⟩ (by decide) (by decide) rfl
    (by decide)

theorem files_event_firstDay : firstDay.files .event twoDaysDisk =
    [⟨7, "event-2022-11-01-7.txt", firstDay.directory.join "event-2022-11-01-7.txt"⟩] :=
  Day.files_of_single stands_firstDay ⟨by decide, by decide⟩ (by decide) (by decide) rfl (by decide)

theorem files_event_secondDay : secondDay.files .event twoDaysDisk =
    [⟨7, "event-2022-11-02-07.txt", secondDay.directory.join "event-2022-11-02-07.txt"⟩] :=
  Day.files_of_single stands_secondDay ⟨by decide, by decide⟩ (by decide) (by decide) rfl
    (by decide)

theorem markup_dayLinks_congr_twoDays : ∃ cells cells',
    (dayLinks (twoDaysView "say \"<b>\"") (.staticPage none)
      ((PageTarget.staticPage none).dayUrl firstDay.date)
      firstDay).result = some cells ∧
    (dayLinks (twoDaysView "carrots") (.staticPage none)
      ((PageTarget.staticPage none).dayUrl secondDay.date)
      secondDay).result = some cells' ∧
    markup cells = markup cells' := by
  obtain ⟨notes, hread, hnoted⟩ :=
    result_events_of_single "say \"<b>\"" files_event_firstDay
  obtain ⟨notes', hread', hnoted'⟩ :=
    result_events_of_single "carrots" files_event_secondDay
  have hdrawing : (firstDay.imageMask twoDaysDisk).has = (secondDay.imageMask twoDaysDisk).has := by
    rw [Day.imageMask, Day.imageMask, files_image_firstDay, files_image_secondDay]
    rfl
  apply markup_dayLinks_congr (by decide) (by decide) hread hread'
  · exact fun hour => congrFun hdrawing hour
  · intro hour
    rw [hnoted, hnoted']
  · intro hour name name' hname hname'
    have hfirst : (firstDay.imageFileNames twoDaysDisk).at? hour = some name := hname
    have hsecond : (secondDay.imageFileNames twoDaysDisk).at? hour = some name' := hname'
    rw [Day.imageFileNames, files_image_firstDay, List.foldl_cons, List.foldl_nil, Slots.at?_put]
      at hfirst
    rw [Day.imageFileNames, files_image_secondDay, List.foldl_cons, List.foldl_nil, Slots.at?_put]
      at hsecond
    by_cases hhour : (5 : Hour) = hour
    · rw [if_pos hhour, Option.some_inj] at hfirst hsecond
      rw [← hfirst, ← hsecond]
      decide
    · rw [if_neg hhour, Slots.at?_empty] at hfirst
      cases hfirst
end TwoDays

end Page

end DrawingDiary
