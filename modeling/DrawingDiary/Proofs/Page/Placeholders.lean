import DrawingDiary.Page.Render
import DrawingDiary.Proofs.Naming.Month
import DrawingDiary.Proofs.Text.Simultaneous

/-!
# Placeholders are replaced at once

A line is filled in by replacing its placeholders one after the other. The values of a page
have no part that could be taken for a part of a placeholder, so the line comes out as if all
placeholders of the template had been replaced at once (`replacesAtOnce_gather`). Only the link
that is replaced last may be empty: an empty value would join what stands around it.
-/

namespace DrawingDiary

open Naming (IsWrittenMonth)
open Text (ClosedBy Lacks Separate Standalone)

/-- The link to an older month is not empty: the page is static, or it is live and has an older
month. -/
def PageFacts.LinksOlder (facts : PageFacts) : Prop :=
  (∃ page, facts.target = .staticPage page) ∨
    (∃ endpoint, facts.target = .live endpoint) ∧ facts.window.older < facts.months.length

namespace Page

/-- A line with each of its placeholders replaced by its value, in one pass from the left. -/
def fillAtOnce (values : List (String × String)) (line : String) : String :=
  String.ofList (Text.substitute (values.map fun v => rule v.1 v.2) line.toList)

/-- Filling in a line replaces the placeholders of the line, and nothing else, by their values. -/
structure ReplacesAtOnce (values : List (String × String)) : Prop where
  eq_fillAtOnce : ∀ line, fillLine values line = fillAtOnce values line
  /-- each occurrence is replaced on its own, whatever stands around it -/
  occurrence : ∀ v ∈ values, ∀ before after, fillLine values (before ++ v.1 ++ after) =
    fillLine values before ++ v.2 ++ fillLine values after
  copy : ∀ line, (∀ v ∈ values, ¬ v.1.toList <:+: line.toList) → fillLine values line = line

def isTokenLetter (c : Char) : Bool := c.isUpper || c == '_' || c == '[' || c == ']'

/-- A text that no placeholder can share a character with: it ends with a character that no
placeholder is spelled with, and has none that closes one. -/
structure IsInert (ends : List Char) (text : String) : Prop where
  last : text.toList.getLast?.any (!isTokenLetter ·) = true
  clear : Lacks ends text.toList

instance (ends : List Char) (text : String) : Decidable (IsInert ends text) :=
  decidable_of_iff (text.toList.getLast?.any (!isTokenLetter ·) = true ∧ Lacks ends text.toList)
    ⟨fun h => ⟨h.1, h.2⟩, fun h => ⟨h.1, h.2⟩⟩

section Inert

variable {ends : List Char} {text front : String}

theorem IsInert.separate (inert : IsInert ends text) {token : String}
    (closed : ClosedBy ends token.toList) (letters : token.toList.all isTokenLetter = true) :
    Separate text.toList token.toList := by
  obtain ⟨c, hc, hclear⟩ := (Option.any_eq_true _ _).mp inert.last
  obtain ⟨e, he, hends⟩ := closed.exists_last
  refine Text.separate_of_getLast? hc he (fun hmem => ?_) fun hmem => inert.clear e hmem hends
  rw [List.all_eq_true.mp letters c hmem] at hclear
  cases hclear

/-- In front of an inert text may stand whatever does not close a placeholder. -/
theorem IsInert.append (inert : IsInert ends text) (hfront : Lacks ends front.toList) :
    IsInert ends (front ++ text) := by
  have hne : text.toList ≠ [] := by
    intro hnil
    have hlast := inert.last
    rw [hnil] at hlast
    cases hlast
  constructor
  case last =>
    rw [String.toList_append, List.getLast?_append_of_ne_nil _ hne]
    exact inert.last
  case clear =>
    rw [String.toList_append]
    exact hfront.append inert.clear

theorem not_isTokenLetter_of_digit {c : Char} (h : c = '-' ∨ c.isDigit = true) :
    isTokenLetter c = false := by
  rcases h with rfl | hdigit
  · decide
  · apply Bool.eq_false_iff.mpr
    intro hletter
    simp only [isTokenLetter, Bool.or_eq_true, beq_iff_eq] at hletter
    rcases hletter with ((hupper | rfl) | rfl) | rfl
    · have hrange : 'A'.val ≤ c.val ∧ c.val ≤ 'Z'.val := of_decide_eq_true hupper
      simp only [Char.isDigit, Bool.and_eq_true, decide_eq_true_eq] at hdigit
      exact absurd (UInt32.le_trans hrange.1 hdigit.2) (by decide)
    · cases hdigit
    · cases hdigit
    · cases hdigit

/-- Texts of digits and dashes are inert, as placeholders have neither. -/
theorem isInert_of_digits (letters : ends.all isTokenLetter = true) (hne : text.toList ≠ [])
    (h : ∀ c ∈ text.toList, c = '-' ∨ c.isDigit = true) : IsInert ends text := by
  constructor
  case last =>
    rw [List.getLast?_eq_getLast_of_ne_nil hne, Option.any_some,
      not_isTokenLetter_of_digit (h _ (List.getLast_mem hne))]
    rfl
  case clear =>
    intro c hc hends
    have hplain := not_isTokenLetter_of_digit (h c hc)
    rw [List.all_eq_true.mp letters c hends] at hplain
    cases hplain

theorem isInert_repr (letters : ends.all isTokenLetter = true) (n : Nat) :
    IsInert ends n.repr := by
  refine isInert_of_digits letters ?_ fun c hc => .inr ?_
  · rw [Nat.toList_repr]
    exact Nat.toDigits_ne_nil
  · rw [Nat.toList_repr] at hc
    exact Nat.isDigit_of_mem_toDigits (by decide) (by decide) hc

end Inert

/-- Placeholders that are spelled with their letters, closed, and apart from each other. -/
structure AreTokens (ends : List Char) (tokens : List String) : Prop where
  letters : ∀ token ∈ tokens, token.toList.all isTokenLetter = true
  closed : ∀ token ∈ tokens, ClosedBy ends token.toList
  apart : tokens.Pairwise fun a b => ¬ a.toList <:+ b.toList ∧ ¬ b.toList <:+ a.toList

section Tokens

variable {ends : List Char} {values : List (String × String)}

theorem AreTokens.standalone (areTokens : AreTokens ends (values.map (·.1))) :
    Standalone ((values.map fun v => rule v.1 v.2).map (·.1)) := by
  have hpatterns : (values.map fun v => rule v.1 v.2).map (·.1) =
      (values.map (·.1)).map String.toList := by
    rw [List.map_map, List.map_map]
    rfl
  rw [hpatterns]
  exact Text.standalone_of_closedBy (List.forall_mem_map.mpr areTokens.closed)
    (List.pairwise_map.mpr areTokens.apart)

/-- A placeholder cannot be laid over an inert value. -/
theorem AreTokens.separate (areTokens : AreTokens ends (values.map (·.1)))
    {v w : String × String} (inert : IsInert ends v.2) (hw : w ∈ values) :
    Separate v.2.toList w.1.toList :=
  inert.separate (areTokens.closed _ (List.mem_map_of_mem hw))
    (areTokens.letters _ (List.mem_map_of_mem hw))

/-- Placeholders are replaced at once when all values but the last are inert. -/
theorem AreTokens.replacesAtOnce {last : String × String}
    (areTokens : AreTokens ends ((values ++ [last]).map (·.1)))
    (inert : ∀ v ∈ values, IsInert ends v.2) : ReplacesAtOnce (values ++ [last]) := by
  have standalone := areTokens.standalone
  have hvalues : ((values ++ [last]).map fun v => rule v.1 v.2).Pairwise
      fun a b => Separate a.2 b.1 := by
    rw [List.pairwise_map, List.pairwise_append]
    refine ⟨List.pairwise_of_forall_mem_list fun v hv w hw => ?_, List.pairwise_singleton _ _,
      fun v hv w hw => ?_⟩
    · exact areTokens.separate (inert v hv) (List.mem_append_left _ hw)
    · exact areTokens.separate (inert v hv) (List.mem_append_right _ hw)
  have hfill (line : String) : fillLine (values ++ [last]) line =
      fillAtOnce (values ++ [last]) line :=
    congrArg String.ofList (Text.replaceInTurn_eq_substitute standalone.pairwise
      standalone.rule_ne_nil hvalues line.toList)
  constructor
  case eq_fillAtOnce => exact hfill
  case occurrence =>
    intro v hv before after
    have happend := standalone.substitute_append (List.mem_map_of_mem hv) before.toList after.toList
    apply String.toList_injective
    simp only [hfill, fillAtOnce, String.toList_append, String.toList_ofList, List.append_assoc]
    exact happend
  case copy =>
    intro line hline
    rw [hfill, fillAtOnce, Text.substitute_eq_self, String.ofList_toList]
    exact List.forall_mem_map.mpr hline

end Tokens

/-- The placeholders of a page, in the order of replacement. -/
def pageTokens : List String :=
  ["[PATH_TO_RABBIT_ROOT]", "[NEXT_MONTH_NAME]", "[CURRENT_MONTH_NAME]", "[PREVIOUS_MONTH_NAME]",
    "[PREVIOUS_RABBITS_COUNT]", "[CURRENT_RABBITS_COUNT]", "[NEXT_RABBITS_COUNT]",
    "PREVIOUS_RABBITS_TAG", "NEXT_RABBITS_TAG", "[PREVIOUS_RABBITS_MONTH]",
    "[NEXT_RABBITS_MONTH]"]

/-- What closes a placeholder of a page: the bracket, or the last letter of a bare one. -/
def pageEnds : List Char := [']', 'G']

theorem areTokens_pageTokens : AreTokens pageEnds pageTokens where
  letters := by decide +kernel
  closed := by decide +kernel
  apart := by decide +kernel

theorem lacks_pageEnds_monthName (number : Option Nat) :
    Lacks pageEnds ((number.bind Naming.monthName?).getD "???" ++ " ").toList := by
  cases number with
  | none => decide
  | some n =>
      rw [Option.bind_some]
      unfold Naming.monthName?
      split <;> decide

theorem isInert_monthDisplayName {month : String} (written : IsWrittenMonth month) :
    IsInert pageEnds (Naming.monthDisplayName month) := by
  obtain ⟨number, year, heq, hne, hdigits⟩ := written.exists_monthDisplayName
  have hyear : IsInert pageEnds year :=
    isInert_of_digits (by decide) hne fun c hc => .inr (hdigits c hc)
  rw [heq]
  exact hyear.append (lacks_pageEnds_monthName number)

theorem isInert_tag (count : UInt32) : IsInert pageEnds (PageFacts.tag count) := by
  unfold PageFacts.tag
  split <;> decide

theorem isInert_staticPath (page : Option String) :
    IsInert pageEnds (PageTarget.staticPage page).pathToRoot := by
  cases page with
  | none => exact (by decide : IsInert pageEnds ".")
  | some _ => exact (by decide : IsInert pageEnds "..")

theorem isInert_writtenMonth {name : String} (written : IsWrittenMonth name) :
    IsInert pageEnds name := by
  refine isInert_of_digits (by decide) ?_ fun c hc => written.isDigit hc
  exact List.length_pos_iff.mp (written.length ▸ Nat.zero_lt_succ _)

theorem isInert_monthLink_live {name : String} (written : IsWrittenMonth name)
    (endpoint : String) : IsInert pageEnds ((PageTarget.live endpoint).monthLink name) :=
  (isInert_writtenMonth written).append (by decide : Lacks pageEnds "?month=".toList)

theorem isInert_monthLink_static {name : String} (written : IsWrittenMonth name)
    (page : Option String) : IsInert pageEnds ((PageTarget.staticPage page).monthLink name) := by
  have hslash : IsInert pageEnds "/" := by decide
  have hpath := hslash.append (isInert_staticPath page).clear
  have hname := (isInert_writtenMonth written).append hpath.clear
  exact hslash.append hname.clear

section Values

variable {facts : PageFacts}

theorem isInert_monthName (written : ∀ name ∈ facts.months, IsWrittenMonth name)
    (index : Option Nat) {none : String} (hnone : IsInert pageEnds none) :
    IsInert pageEnds (facts.monthName index none) := by
  unfold PageFacts.monthName
  cases hmonth : index.bind (facts.months[·]?) with
  | none => exact hnone
  | some name =>
      obtain ⟨i, -, hget⟩ := Option.bind_eq_some_iff.mp hmonth
      exact isInert_monthDisplayName (written name (List.mem_of_getElem? hget))

theorem isInert_pathToRoot (linksOlder : facts.LinksOlder) :
    IsInert pageEnds facts.target.pathToRoot := by
  rcases linksOlder with ⟨page, htarget⟩ | ⟨⟨endpoint, htarget⟩, -⟩
  · rw [htarget]
    exact isInert_staticPath page
  · rw [htarget]
    exact isInert_staticPath none

theorem isInert_olderLink (written : ∀ name ∈ facts.months, IsWrittenMonth name)
    (linksOlder : facts.LinksOlder) : IsInert pageEnds facts.olderLink := by
  unfold PageFacts.olderLink
  rcases linksOlder with ⟨page, htarget⟩ | ⟨⟨endpoint, htarget⟩, hlt⟩
  · rw [htarget]
    cases hmonth : facts.months[facts.window.older]? with
    | none => exact isInert_staticPath page
    | some name => exact isInert_monthLink_static (written name (List.mem_of_getElem? hmonth)) page
  · rw [htarget, List.getElem?_eq_getElem hlt]
    exact isInert_monthLink_live (written _ (List.getElem_mem hlt)) endpoint

theorem replacesAtOnce_values (written : ∀ name ∈ facts.months, IsWrittenMonth name)
    (linksOlder : facts.LinksOlder) : ReplacesAtOnce facts.values := by
  have hvalues : facts.values =
      facts.values.dropLast ++ [("[NEXT_RABBITS_MONTH]", facts.newerLink)] := rfl
  have hcount (count : UInt32) : IsInert pageEnds count.toNat.repr :=
    isInert_repr (by decide) count.toNat
  have hinert : ∀ v ∈ facts.values.dropLast, IsInert pageEnds v.2 := by
    simp only [PageFacts.values, List.dropLast, List.forall_mem_cons]
    exact ⟨isInert_pathToRoot linksOlder, isInert_monthName written _ (by decide),
      isInert_monthName written _ (by decide), isInert_monthName written _ (by decide),
      hcount _, hcount _, hcount _, isInert_tag _, isInert_tag _,
      isInert_olderLink written linksOlder, List.forall_mem_nil _⟩
  rw [hvalues]
  exact areTokens_pageTokens.replacesAtOnce hinert

end Values

/-- The placeholders of a line are replaced by the values of the page all at once, on every
static page, and on every live page that has an older month. -/
theorem replacesAtOnce_gather {months : List Month}
    (written : ∀ month ∈ months, IsWrittenMonth month.name) (requested : Option String)
    (target : PageTarget) (shelf : Shelf) (disk : Disk)
    (linksOlder : (PageFacts.gather months (MonthWindow.resolve (months.map (·.name)) requested)
      target shelf disk).LinksOlder) :
    ReplacesAtOnce (PageFacts.gather months (MonthWindow.resolve (months.map (·.name)) requested)
      target shelf disk).values :=
  replacesAtOnce_values (List.forall_mem_map.mpr written) linksOlder

/-- Months with a gap, of which none has days. -/
def gapMonths : List Month := [⟨"2022-12", []⟩, ⟨"2022-10", []⟩]

theorem written_gapMonths : ∀ month ∈ gapMonths, IsWrittenMonth month.name := by
  intro month hmonth
  apply Naming.isMonth_iff.mp
  revert month
  decide

/-- What a live page of the months with a gap says, asked for the month that is missing. -/
def gapFacts : PageFacts :=
  PageFacts.gather gapMonths (MonthWindow.resolve (gapMonths.map (·.name)) (some "2022-11"))
    (.live "/api") #[] { root := .directory [] }

theorem gapFacts_fillAtOnce :
    fillAtOnce gapFacts.values "[NEXT_RABBITS_[PREVIOUS_RABBITS_MONTH]MONTH] [NEXT_MONTH_NAME]" =
      "[NEXT_RABBITS_?month=2022-10MONTH] December 2022" := by
  decide +kernel

/-- A placeholder around another one is no placeholder once the inner one is replaced. -/
theorem replacesAtOnce_gather_gap :
    gapFacts.LinksOlder ∧
      fillLine gapFacts.values "[NEXT_RABBITS_[PREVIOUS_RABBITS_MONTH]MONTH] [NEXT_MONTH_NAME]" =
        "[NEXT_RABBITS_?month=2022-10MONTH] December 2022" := by
  have linksOlder : gapFacts.LinksOlder := .inr ⟨⟨"/api", rfl⟩, by decide⟩
  have atOnce := replacesAtOnce_gather written_gapMonths (some "2022-11") (.live "/api") #[]
    { root := .directory [] } linksOlder
  exact ⟨linksOlder, (atOnce.eq_fillAtOnce _).trans gapFacts_fillAtOnce⟩

/-- Without an older month the inner placeholder of a live page is replaced by nothing, and the
outer one is found then. -/
example :
    let facts := PageFacts.gather [] (MonthWindow.resolve [] none) (.live "/api") #[]
      { root := .directory [] }
    fillLine facts.values "[NEXT_RABBITS_[PREVIOUS_RABBITS_MONTH]MONTH]" = "" ∧
      fillAtOnce facts.values "[NEXT_RABBITS_[PREVIOUS_RABBITS_MONTH]MONTH]" =
        "[NEXT_RABBITS_MONTH]" := by
  decide +kernel

end Page

end DrawingDiary
