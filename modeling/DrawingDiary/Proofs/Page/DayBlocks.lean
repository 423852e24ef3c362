import DrawingDiary.Proofs.Naming.Date
import DrawingDiary.Proofs.Page.Markup
import DrawingDiary.Proofs.Page.Parity
import DrawingDiary.Proofs.Page.Placeholders

/-!
# What a day block becomes

The placeholders of a block are replaced one after the other, its cells last. As neither a date
nor the address of a thumbnail can be taken for a part of a placeholder, this is one pass over
the block, and whatever the names of drawings and the texts of notes say comes out as it is
(`expandsAtOnce`): in the block, and in the page as well, where it is part of one line that is
not read again.
-/

namespace DrawingDiary

open Naming (IsWrittenDate)
open Text (Lacks unlines)

/-- No address of a day closes a placeholder: the page is static, or its endpoint has no closing
bracket. -/
def PageTarget.Unbracketed (target : PageTarget) : Prop :=
  (∃ page, target = .staticPage page) ∨
    ∃ endpoint : String, target = .live endpoint ∧ ']' ∉ endpoint.toList

namespace Page

/-- The placeholders of a day block with their values, in the order of replacement. -/
def blockValues (target : PageTarget) (date links : String) : List (String × String) :=
  [("[NAME]", date), ("[THUMBNAIL_URL]", target.dayUrl date ++ "/" ++ Naming.thumbnailFile),
    ("[LINKS]", links)]

theorem areTokens_block : AreTokens [']'] ["[NAME]", "[THUMBNAIL_URL]", "[LINKS]"] where
  letters := by decide +kernel
  closed := by decide +kernel
  apart := by decide +kernel

theorem isInert_date {date : String} (written : IsWrittenDate date) : IsInert [']'] date := by
  refine isInert_of_digits (by decide) ?_ fun c hc => written.isDigit hc
  obtain ⟨year, month, day, htext, -⟩ := written
  simp [htext]

theorem lacks_dayUrl {target : PageTarget} (unbracketed : target.Unbracketed) {date : String}
    (written : IsWrittenDate date) : Lacks [']'] (target.dayUrl date).toList := by
  have hdate := (isInert_date written).clear
  rcases unbracketed with ⟨page, rfl⟩ | ⟨endpoint, rfl, hendpoint⟩
  · have hpath : Lacks [']'] (PageTarget.staticPage page).pathToRoot.toList :=
      (isInert_staticPath page).clear.mono (by simp [pageEnds])
    have hdirectory : Lacks [']'] ("/" ++ PageTarget.drawingsDirectory ++ "/").toList := by decide
    have hurl : (PageTarget.staticPage page).dayUrl date =
        (PageTarget.staticPage page).pathToRoot ++ (("/" ++ PageTarget.drawingsDirectory ++ "/") ++
          date) := by
      simp only [PageTarget.staticPage, PageTarget.dayUrl, PageTarget.pathToRoot,
        String.append_assoc]
    rw [hurl, String.toList_append, String.toList_append]
    exact hpath.append (hdirectory.append hdate)
  · have hpath : Lacks [']'] endpoint.toList := fun c hc hclose =>
      hendpoint (List.mem_singleton.mp hclose ▸ hc)
    have hslash : Lacks [']'] "/".toList := by decide
    rw [PageTarget.dayUrl, String.append_assoc, String.toList_append, String.toList_append]
    exact hpath.append (hslash.append hdate)

theorem isInert_thumbnailUrl {target : PageTarget} (unbracketed : target.Unbracketed)
    {date : String} (written : IsWrittenDate date) :
    IsInert [']'] (target.dayUrl date ++ "/" ++ Naming.thumbnailFile) := by
  rw [String.append_assoc]
  exact (by decide : IsInert [']'] ("/" ++ Naming.thumbnailFile)).append
    (lacks_dayUrl unbracketed written)

/-- The placeholders of a block are replaced at once, whatever the cells of the day say. -/
theorem replacesAtOnce_blockValues {target : PageTarget} (unbracketed : target.Unbracketed)
    {date : String} (written : IsWrittenDate date) (links : String) :
    ReplacesAtOnce (blockValues target date links) := by
  have hvalues : blockValues target date links =
      (blockValues target date links).dropLast ++ [("[LINKS]", links)] := rfl
  have hinert : ∀ v ∈ (blockValues target date links).dropLast, IsInert [']'] v.2 := by
    simp only [blockValues, List.dropLast, List.forall_mem_cons]
    exact ⟨isInert_date written, isInert_thumbnailUrl unbracketed written, List.forall_mem_nil _⟩
  rw [hvalues]
  exact areTokens_block.replacesAtOnce hinert

theorem result_expandDay (view : View) (target : PageTarget) (block : String) (day : Day) :
    (expandDay view target block day).result =
      (dayLinks view target (target.dayUrl day.date) day).result.map fun links =>
        fillLine (blockValues target day.date links) block := by
  simp only [expandDay, Run.bind_apply, Run.state]
  cases (dayLinks view target (target.dayUrl day.date) day).result <;> rfl

/-- Each day of a block is one pass over the text of the block, and what has come out of it is
not read again. -/
structure ExpandsAtOnce (view : View) (target : PageTarget) (days : List DayId) (shelf : Shelf) :
    Prop where
  /-- no value that a day puts in is taken for a part of a placeholder -/
  replaces : ∀ id ∈ days, ∀ links, ReplacesAtOnce (blockValues target (shelf.day id).date links)
  each : ∀ id ∈ days, ∀ block, (expandDay view target block (shelf.day id)).result =
    (dayLinks view target (target.dayUrl (shelf.day id).date) (shelf.day id)).result.map
      fun links => fillAtOnce (blockValues target (shelf.day id).date links) block
  joined : ∀ block, (expandDays view target days block shelf).result =
    (days.mapM fun id => (expandDay view target block (shelf.day id)).result).map
      (String.intercalate "\n")
  answers : NotesReadable view target →
    ∀ block, ∃ text, (expandDays view target days block shelf).result = some text
  /-- in a page the days of a block are one line, and the lines of the page are those of its
  template -/
  page : ∀ template months requested lines,
    windowDays months (MonthWindow.resolve (months.map (·.name)) requested) = days →
    (renderLines view template months requested target shelf).result = some lines →
    lines.length = template.length ∧ ∀ i (hi : i < template.length),
      isMarker template[i] = true → ¬ Even ((template.take i).countP isMarker) →
      lines[i]? = (expandDays view target days (unlines (linesBehindMarker (template.take i)))
        shelf).result

/-- The days of a page are expanded at once, on a static page and on a live page whose endpoint
closes no placeholder, whatever the drawings are called and the notes say. -/
theorem expandsAtOnce (view : View) {target : PageTarget} (unbracketed : target.Unbracketed)
    {days : List DayId} {shelf : Shelf} (dated : ∀ id ∈ days, IsWrittenDate (shelf.day id).date) :
    ExpandsAtOnce view target days shelf where
  replaces id hid := replacesAtOnce_blockValues unbracketed (dated id hid)
  each id hid block := by
    rw [result_expandDay]
    congr 1
    funext links
    exact (replacesAtOnce_blockValues unbracketed (dated id hid) links).eq_fillAtOnce block
  joined block := result_expandDays view target days block shelf
  answers readable block := completes_expandDays readable days block shelf
  page template months requested lines hdays hlines := by
    rw [result_renderLines_eq_pageBehind, pageBehind_eq_some_iff] at hlines
    obtain ⟨hlength, hrule⟩ := hlines
    refine ⟨hlength, fun i hi hmarker hodd => ?_⟩
    rw [hrule i hi, List.nil_append, lineAfter, if_neg hodd, if_pos hmarker, hdays]

/-- The cells of a day with a note that says what placeholders and markers say. -/
theorem expandsAtOnce_markerInNote :
    let view := twoDaysView "[NAME] <!--RABBIT DAY-->"
    (PageTarget.staticPage none).Unbracketed ∧ IsWrittenDate firstDay.date ∧
      ∃ links, (dayLinks view (.staticPage none)
          ((PageTarget.staticPage none).dayUrl firstDay.date) firstDay).result = some links ∧
        (expandDay view (.staticPage none) "[LINKS]" firstDay).result = some links := by
  intro view
  have unbracketed : (PageTarget.staticPage none).Unbracketed := .inl ⟨none, rfl⟩
  have dated : IsWrittenDate firstDay.date := Naming.isDayName_iff.mp (by decide)
  have atOnce : ExpandsAtOnce view (.staticPage none) [0] #[firstDay] := by
    refine expandsAtOnce view unbracketed fun id hid => ?_
    rw [List.mem_singleton.mp hid]
    exact dated
  have heach : (expandDay view (.staticPage none) "[LINKS]" firstDay).result = _ :=
    atOnce.each 0 (List.mem_singleton_self 0) "[LINKS]"
  have readable : NotesReadable view (.staticPage none) := fun _ _ _ _ => rfl
  obtain ⟨text, htext⟩ := completes_expandDay readable "[LINKS]" firstDay
  have hanswer := htext
  rw [heach, Option.map_eq_some_iff] at hanswer
  obtain ⟨links, hlinks, rfl⟩ := hanswer
  have hreplaces : ReplacesAtOnce (blockValues (.staticPage none) firstDay.date links) :=
    atOnce.replaces 0 (List.mem_singleton_self 0) links
  have hempty : fillLine (blockValues (.staticPage none) firstDay.date links) "" = "" := rfl
  have hcells := hreplaces.occurrence ("[LINKS]", links) (by simp [blockValues]) "" ""
  simp only [hempty, String.empty_append, String.append_empty, hreplaces.eq_fillAtOnce] at hcells
  exact ⟨unbracketed, dated, links, hlinks, htext.trans (congrArg some hcells)⟩

/-- A month without days gives nothing. -/
example (view : View) (target : PageTarget) (block : String) (shelf : Shelf) :
    (expandDays view target [] block shelf).result = some "" := rfl

end Page

end DrawingDiary
