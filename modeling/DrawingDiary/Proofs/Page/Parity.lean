import DrawingDiary.Proofs.Page.Expansion
import DrawingDiary.Text.Lines
import Mathlib.Algebra.Group.Nat.Even
import Mathlib.Data.List.DropRight

/-!
# Which line of a page is which

A line of a page is known from the lines of the template before it: an even number of markers
leaves it outside of the day blocks, an odd number puts it into one, which has begun behind the
last marker (`lineAfter`). Rendering carries the text of the open block along. It is always the
one that the lines before give (`openBlock_append_marker`, `openBlock_append_line`), so each
line of the page comes out by the rule (`renderLines_by_parity`).
-/

namespace DrawingDiary

theorem Text.unlines_append_singleton (lines : List String) (line : String) :
    unlines (lines ++ [line]) = unlines lines ++ line ++ "\n" := by
  induction lines with
  | nil => simp [unlines]
  | cons first rest ih =>
      have hcons (others : List String) :
          unlines (first :: others) = first ++ "\n" ++ unlines others := rfl
      rw [List.cons_append, hcons, hcons, ih, String.append_assoc, String.append_assoc,
        String.append_assoc, String.append_assoc, String.append_assoc]

namespace Page

open Text (unlines)

def linesBehindMarker (before : List String) : List String :=
  before.rtakeWhile fun line => !isMarker line

/-- What a line of a template becomes, by the lines before it: outside of the blocks it is filled
in, and inside of one it becomes empty. So does a marker that opens a block; one that closes a
block becomes the expansion of the lines between the two. -/
def lineAfter (values : List (String × String)) (expansion : String → Option String)
    (before : List String) (line : String) : Option String :=
  if Even (before.countP isMarker) then
    if isMarker line then some "" else some (fillLine values line)
  else
    if isMarker line then expansion (unlines (linesBehindMarker before)) else some ""

/-- The text of the block that is open behind some lines, if one is. -/
def openBlock (before : List String) : Option String :=
  if Even (before.countP isMarker) then none else some (unlines (linesBehindMarker before))

section Blocks

variable {values : List (String × String)} {expansion : String → Option String}
  {before : List String} {line : String}

theorem openBlock_of_even (h : Even (before.countP isMarker)) : openBlock before = none := if_pos h

theorem openBlock_append_marker (h : isMarker line = true) :
    openBlock (before ++ [line]) = if (openBlock before).isSome then none else some "" := by
  have hcount : (before ++ [line]).countP isMarker = before.countP isMarker + 1 := by
    rw [List.countP_append, List.countP_singleton, if_pos h]
  have hbehind : linesBehindMarker (before ++ [line]) = [] := by
    rw [linesBehindMarker, List.rtakeWhile_concat_neg _ _ _ (by simp [h])]
  by_cases heven : Even (before.countP isMarker)
  · simp [openBlock, hcount, hbehind, heven, Nat.even_add_one, unlines]
  · simp [openBlock, hcount, heven, Nat.even_add_one]

theorem openBlock_append_line (h : isMarker line = false) :
    openBlock (before ++ [line]) = (openBlock before).map (· ++ line ++ "\n") := by
  have hcount : (before ++ [line]).countP isMarker = before.countP isMarker := by
    simp [List.countP_append, h]
  have hbehind : linesBehindMarker (before ++ [line]) = linesBehindMarker before ++ [line] := by
    rw [linesBehindMarker, List.rtakeWhile_concat_pos _ _ _ (by simp [h])]
    rfl
  by_cases heven : Even (before.countP isMarker)
  · simp [openBlock, hcount, heven]
  · simp [openBlock, hcount, hbehind, heven, Text.unlines_append_singleton]

theorem lineAfter_of_none (h : openBlock before = none) :
    lineAfter values expansion before line =
      some (if isMarker line then "" else fillLine values line) := by
  unfold openBlock at h
  unfold lineAfter
  split at h
  case isTrue heven =>
    rw [if_pos heven]
    split <;> rfl
  case isFalse => cases h

theorem lineAfter_of_some {block : String} (h : openBlock before = some block) :
    lineAfter values expansion before line =
      if isMarker line then expansion block else some "" := by
  unfold openBlock at h
  unfold lineAfter
  split at h
  case isTrue => cases h
  case isFalse hodd => rw [if_neg hodd, Option.some.inj h]

/-- The rest of a page behind some lines of its template. -/
def pageBehind (values : List (String × String)) (expansion : String → Option String)
    (before rest : List String) : Option (List String) :=
  ((blocksFrom (openBlock before) rest).mapM expansion).map
    (assemble values (openBlock before).isSome rest)

/-- One line more of the template gives the line of the rule, and the rest follows. -/
theorem pageBehind_cons (rest : List String) :
    pageBehind values expansion before (line :: rest) =
      (lineAfter values expansion before line).bind fun first =>
        (pageBehind values expansion (before ++ [line]) rest).map (first :: ·) := by
  unfold pageBehind
  cases hmarker : isMarker line with
  | true =>
      rw [openBlock_append_marker hmarker]
      cases hopen : openBlock before with
      | none =>
          rw [lineAfter_of_none hopen]
          simp [blocksFrom, assemble, hmarker, Function.comp_def]
      | some block =>
          rw [lineAfter_of_some hopen]
          simp only [blocksFrom, hmarker, if_true, List.mapM_cons, Option.isSome_some]
          cases expansion block with
          | none => rfl
          | some text =>
              cases List.mapM expansion (blocksFrom none rest) with
              | none => simp
              | some texts => simp [assemble, hmarker]
  | false =>
      rw [openBlock_append_line hmarker]
      cases hopen : openBlock before with
      | none =>
          rw [lineAfter_of_none hopen]
          simp [blocksFrom, assemble, hmarker, Function.comp_def]
      | some block =>
          rw [lineAfter_of_some hopen]
          simp [blocksFrom, assemble, hmarker, Function.comp_def]

theorem pageBehind_append (first second : List String) :
    pageBehind values expansion before (first ++ second) =
      (pageBehind values expansion before first).bind fun lines =>
        (pageBehind values expansion (before ++ first) second).map (lines ++ ·) := by
  induction first generalizing before with
  | nil => simp [pageBehind, blocksFrom, assemble, Function.comp_def]
  | cons line rest ih =>
      rw [List.cons_append, pageBehind_cons, pageBehind_cons, ih, List.append_assoc,
        List.singleton_append]
      cases lineAfter values expansion before line with
      | none => rfl
      | some start =>
          cases pageBehind values expansion (before ++ [line]) rest with
          | none => rfl
          | some lines => simp [Function.comp_def]

/-- The lines of a page are those that the rule gives, and there is a page when it gives all. -/
theorem pageBehind_eq_some_iff {rest lines : List String} :
    pageBehind values expansion before rest = some lines ↔ lines.length = rest.length ∧
      ∀ i (hi : i < rest.length),
        lines[i]? = lineAfter values expansion (before ++ rest.take i) rest[i] := by
  induction rest generalizing before lines with
  | nil => simp [pageBehind, blocksFrom, assemble, eq_comm]
  | cons line rest ih =>
      rw [pageBehind_cons]
      constructor
      · intro h
        obtain ⟨first, hfirst, hothers⟩ := Option.bind_eq_some_iff.mp h
        obtain ⟨others, hrest, rfl⟩ := Option.map_eq_some_iff.mp hothers
        obtain ⟨hlength, hlines⟩ := ih.mp hrest
        refine ⟨by simp [hlength], fun i hi => ?_⟩
        cases i with
        | zero => simp [hfirst]
        | succ i => simpa using hlines i (Nat.lt_of_succ_lt_succ hi)
      · rintro ⟨hlength, hlines⟩
        cases lines with
        | nil => cases hlength
        | cons first others =>
            have hfirst : some first = lineAfter values expansion before line := by
              simpa using hlines 0 (Nat.zero_lt_succ _)
            have hothers : pageBehind values expansion (before ++ [line]) rest = some others := by
              refine ih.mpr ⟨Nat.succ.inj hlength, fun i hi => ?_⟩
              simpa using hlines (i + 1) (Nat.succ_lt_succ hi)
            rw [← hfirst, hothers]
            rfl

end Blocks

/-- What a line of a page is by the rule, with the blocks expanded for the days of the month that
is shown, as they are found. -/
def pageLine (view : View) (months : List Month) (requested : Option String) (target : PageTarget)
    (shelf : Shelf) : List String → String → Option String :=
  let window := MonthWindow.resolve (months.map (·.name)) requested
  lineAfter (PageFacts.gather months window target shelf view.disk).values fun block =>
    (expandDays view target (windowDays months window) block shelf).result

section Page

variable (view : View) (months : List Month) (requested : Option String) (target : PageTarget)
  (shelf : Shelf)

theorem result_renderLines_eq_pageBehind (template : List String) :
    let window := MonthWindow.resolve (months.map (·.name)) requested
    (renderLines view template months requested target shelf).result =
      pageBehind (PageFacts.gather months window target shelf view.disk).values
        (fun block => (expandDays view target (windowDays months window) block shelf).result)
        [] template :=
  result_renderLines view template months requested target shelf

/-- A page has as many lines as its template, and each of them comes out by the rule. It is
rendered at all when its notes can be read. Templates without a block that is left open are
rendered one by one. -/
theorem renderLines_by_parity (template : List String) :
    (∀ lines, (renderLines view template months requested target shelf).result = some lines ↔
      lines.length = template.length ∧ ∀ i (hi : i < template.length),
        lines[i]? = pageLine view months requested target shelf (template.take i) template[i]) ∧
    (NotesReadable view target →
      ∃ lines, (renderLines view template months requested target shelf).result = some lines) ∧
    ∀ first second, template = first ++ second → Even (first.countP isMarker) →
      (renderLines view template months requested target shelf).result =
        (renderLines view first months requested target shelf).result.bind fun lines =>
          (renderLines view second months requested target shelf).result.map (lines ++ ·) := by
  refine ⟨fun lines => ?_, fun readable => ?_, fun first second happend heven => ?_⟩
  · rw [result_renderLines_eq_pageBehind, pageBehind_eq_some_iff]
    rfl
  · exact completes_renderLines readable template months requested shelf
  · have hopen : openBlock ([] ++ first) = openBlock [] := by
      rw [List.nil_append, openBlock_of_even heven]
      rfl
    rw [happend, result_renderLines_eq_pageBehind, result_renderLines_eq_pageBehind,
      result_renderLines_eq_pageBehind, pageBehind_append]
    unfold pageBehind
    rw [hopen]

end Page

/-- A template with a block, a line behind it and a block that is left open. -/
def twoBlocks : List String :=
  ["rabbits", "x <!--RABBIT DAY-->", "[NAME]", "<!--RABBIT DAY-->", "[CURRENT_MONTH_NAME]",
    "<!--RABBIT DAY-->", "left open"]

/-- A month with one day that is still empty. -/
def emptyMonth : List Month := [⟨"2022-11", [0]⟩]

def emptyShelf : Shelf := #[Day.new "2022-11-01" ⟨"/2022-11-01"⟩ {}]

def emptyView : View where
  reader := .files
  now := 0
  disk := { root := .directory [] }

theorem renderLines_by_parity_twoBlocks :
    let rendered (template : List String) :=
      (renderLines emptyView template emptyMonth none (.live "/api") emptyShelf).result
    NotesReadable emptyView (.live "/api") ∧ Even ((twoBlocks.take 4).countP isMarker) ∧
      rendered twoBlocks = some ["rabbits", "", "", "2022-11-01\n", "November 2022", "", ""] ∧
      (∃ lines, rendered twoBlocks = some lines) ∧
      rendered twoBlocks = (rendered (twoBlocks.take 4)).bind fun lines =>
        (rendered (twoBlocks.drop 4)).map (lines ++ ·) := by
  intro rendered
  have readable : NotesReadable emptyView (.live "/api") := by
    intro path h
    cases h
  have heven : Even ((twoBlocks.take 4).countP isMarker) := by decide
  obtain ⟨byRule, completes, appends⟩ :=
    renderLines_by_parity emptyView emptyMonth none (.live "/api") emptyShelf twoBlocks
  refine ⟨readable, heven, (byRule _).mpr ⟨rfl, ?_⟩, completes readable,
    appends _ _ (List.take_append_drop 4 twoBlocks).symm heven⟩
  decide +kernel

end Page

end DrawingDiary
