import DrawingDiary.Proofs.Disk.Behind
import DrawingDiary.Proofs.Page.Window
import DrawingDiary.Proofs.Site.Contents

/-!
# The months of a site as a list linked both ways

Every page of a site has the number of its month (`window_month`, `window_root`), and its
links are read as paths from its own directory: the one to the older month leads to the page
of the next number, or to the root page behind the last (`follow_older`), the one to the newer
month to the page of the number before, which is the root page for the newest month
(`follow_newer`). From there the walks in both directions are followed by induction
(`visit_eq`).
-/

namespace DrawingDiary

namespace MonthWindow

/-- The window of the month with this number. -/
def ofIndex (i : Nat) : MonthWindow := ⟨some i, if i = 0 then none else some (i - 1), i + 1⟩

theorem resolve_eq_ofIndex {names : List String} (distinct : names.Nodup) {i : Nat}
    {name : String} (hname : names[i]? = some name) : resolve names (some name) = ofIndex i := by
  obtain ⟨hi, rfl⟩ := List.getElem?_eq_some_iff.mp hname
  have hfind : names.findIdx? (· == names[i]) = some i := by
    apply List.findIdx?_eq_some_iff_getElem.mpr
    refine ⟨hi, beq_self_eq_true _, fun j hj heq => ?_⟩
    exact absurd (distinct.getElem_inj_iff.mp (beq_iff_eq.mp heq)) (Nat.ne_of_lt hj)
  cases i with
  | zero => simp [resolve, hfind, ofIndex]
  | succ i => simp [resolve, hfind, ofIndex]

end MonthWindow

namespace Site

open Naming (IsWrittenMonth)

/-- What the page of a month is filled in with; the root page has no month. -/
def pageFacts (months : List Month) (shelf : Shelf) (disk : Disk) (page : Option String) :
    PageFacts :=
  PageFacts.gather months (MonthWindow.resolve (months.map (·.name)) page) (.staticPage page)
    shelf disk

/-- The name of the month that a page shows. -/
def shownMonth (months : List Month) (shelf : Shelf) (disk : Disk) (page : Option String) :
    Option String :=
  (pageFacts months shelf disk page).window.current.bind ((months.map (·.name))[·]?)

/-- Where a step leads from a place in the site. No step leads out of the site. -/
def placeAfter? : Location → Path.Step → Option Location
  | place, .here => some place
  | [], .up => none
  | name :: rest, .up => some (name :: rest).dropLast
  | place, .into name => some (place ++ [name])

/-- The page whose directory stands at a place. -/
def pageIn? (names : List String) : Location → Option (Option String)
  | [] => some none
  | [name] => if name ∈ names then some (some name) else none
  | _ => none

/-- The page that a link leads to from the directory of a page, if there is one. -/
def linkedPage? (names : List String) (page : Option String) (link : String) :
    Option (Option String) :=
  ((Path.mk link).steps.foldlM placeAfter? page.toList).bind (pageIn? names)

structure NeighbourTokens where
  link : String
  tag : String
  count : String

def olderTokens : NeighbourTokens :=
  ⟨"[PREVIOUS_RABBITS_MONTH]", "PREVIOUS_RABBITS_TAG", "[PREVIOUS_RABBITS_COUNT]"⟩

def newerTokens : NeighbourTokens :=
  ⟨"[NEXT_RABBITS_MONTH]", "NEXT_RABBITS_TAG", "[NEXT_RABBITS_COUNT]"⟩

/-- The page that the link to a neighbour leads to. -/
def follow (months : List Month) (shelf : Shelf) (disk : Disk) (tokens : NeighbourTokens)
    (page : Option String) : Option (Option String) :=
  ((pageFacts months shelf disk page).values.lookup tokens.link).bind
    (linkedPage? (months.map (·.name)) page)

/-- The page reached from the root page by so many links to an older month. -/
def visit (months : List Month) (shelf : Shelf) (disk : Disk) : Nat → Option (Option String)
  | 0 => some none
  | k + 1 => (visit months shelf disk k).bind (follow months shelf disk olderTokens)

/-- On this side of a page there is nothing: the link leads to the root page and is none. -/
structure EndsAt (months : List Month) (shelf : Shelf) (disk : Disk) (tokens : NeighbourTokens)
    (page : Option String) : Prop where
  home : follow months shelf disk tokens page = some none
  tag : (pageFacts months shelf disk page).values.lookup tokens.tag = some "span"
  count : (pageFacts months shelf disk page).values.lookup tokens.count = some "0"

section Links

variable {names : List String} {page : Option String} {name : String}

theorem linkedPage?_rootLink : linkedPage? names page (PageTarget.staticPage page).rootLink =
    some none := by
  cases page with
  | none =>
      have hsteps : (Path.mk ".").steps = [.here] := by decide
      exact congrArg (fun steps => (List.foldlM placeAfter? [] steps).bind (pageIn? names)) hsteps
  | some month =>
      have hsteps : (Path.mk "..").steps = [.up] := by decide
      exact congrArg (fun steps => (List.foldlM placeAfter? [month] steps).bind (pageIn? names))
        hsteps

theorem linkedPage?_monthLink (written : IsWrittenMonth name) (hname : name ∈ names) :
    linkedPage? names page ((PageTarget.staticPage page).monthLink name) = some (some name) := by
  have hsteps (path : String) : (Path.mk (path ++ "/" ++ name ++ "/")).steps =
      (Path.mk path).steps ++ [.into name, .here] := by
    have htext : path ++ "/" ++ name ++ "/" = path ++ "/" ++ name ++ "/" ++ "" := by simp
    rw [htext, Path.steps_append_slash, Path.steps_append_slash, written.plainName.steps_eq,
      List.append_assoc]
    rfl
  have hplace : ((Path.mk ((PageTarget.staticPage page).monthLink name)).steps.foldlM
      placeAfter? page.toList) = some [name] := by
    cases page with
    | none => exact congrArg (List.foldlM placeAfter? []) (hsteps ".")
    | some other => exact congrArg (List.foldlM placeAfter? [other]) (hsteps "..")
  rw [linkedPage?, hplace]
  exact if_pos hname

end Links

section Pages

variable {months : List Month} {shelf : Shelf} {disk : Disk} {page : Option String}
  {name : String} {i : Nat}

theorem window_root (distinct : (months.map (·.name)).Nodup) (some_month : months ≠ []) :
    (pageFacts months shelf disk none).window = .ofIndex 0 := by
  obtain ⟨first, rest, rfl⟩ := List.exists_cons_of_ne_nil some_month
  change MonthWindow.resolve _ none = _
  rw [MonthWindow.resolve_none]
  exact MonthWindow.resolve_eq_ofIndex distinct rfl

theorem window_month (distinct : (months.map (·.name)).Nodup)
    (hname : (months.map (·.name))[i]? = some name) :
    (pageFacts months shelf disk (some name)).window = .ofIndex i :=
  MonthWindow.resolve_eq_ofIndex distinct hname

theorem shownMonth_eq (hwindow : (pageFacts months shelf disk page).window = .ofIndex i) :
    shownMonth months shelf disk page = (months.map (·.name))[i]? := by
  rw [shownMonth, hwindow]
  rfl

theorem olderLink_eq (hwindow : (pageFacts months shelf disk page).window = .ofIndex i) :
    (pageFacts months shelf disk page).olderLink =
      match (months.map (·.name))[i + 1]? with
      | some name => (PageTarget.staticPage page).monthLink name
      | none => (PageTarget.staticPage page).rootLink := by
  rw [PageFacts.olderLink, hwindow]
  rfl

/-- Behind the last month the link to an older one leads to the root page. -/
theorem follow_older (written : ∀ name ∈ months.map (·.name), IsWrittenMonth name)
    (hwindow : (pageFacts months shelf disk page).window = .ofIndex i) :
    follow months shelf disk olderTokens page = some (months.map (·.name))[i + 1]? := by
  have hlookup : (pageFacts months shelf disk page).values.lookup olderTokens.link =
      some (pageFacts months shelf disk page).olderLink := rfl
  rw [follow, hlookup, Option.bind_some, olderLink_eq hwindow]
  cases holder : (months.map (·.name))[i + 1]? with
  | none => exact linkedPage?_rootLink
  | some name =>
      have hmem := List.mem_of_getElem? holder
      exact linkedPage?_monthLink (written name hmem) hmem

/-- The page of a number; the newest month is shown on the root page. -/
def pageOfIndex (months : List Month) (i : Nat) : Option String :=
  if i = 0 then none else (months.map (·.name))[i]?

theorem window_pageOfIndex (shelf : Shelf) (disk : Disk)
    (distinct : (months.map (·.name)).Nodup) (hi : i < months.length) :
    (pageFacts months shelf disk (pageOfIndex months i)).window = .ofIndex i := by
  by_cases hzero : i = 0
  · subst hzero
    exact window_root distinct (List.length_pos_iff.mp hi)
  · have hlt : i < (months.map (·.name)).length := by rwa [List.length_map]
    rw [pageOfIndex, if_neg hzero, List.getElem?_eq_getElem hlt]
    exact window_month distinct (List.getElem?_eq_getElem hlt)

/-- The link to a newer month leads to the page of the number before, and from the newest month
to the root page. -/
theorem follow_newer (written : ∀ name ∈ months.map (·.name), IsWrittenMonth name)
    (hi : i < months.length)
    (hwindow : (pageFacts months shelf disk page).window = .ofIndex i) :
    follow months shelf disk newerTokens page = some (pageOfIndex months (i - 1)) := by
  have hlookup : (pageFacts months shelf disk page).values.lookup newerTokens.link =
      some (pageFacts months shelf disk page).newerLink := rfl
  rw [follow, hlookup, Option.bind_some, PageFacts.newerLink, hwindow]
  match i with
  | 0 => exact linkedPage?_rootLink
  | 1 => exact linkedPage?_rootLink
  | j + 2 =>
    have hlt : j + 1 < (months.map (·.name)).length := by
      rw [List.length_map]
      omega
    have hname := List.getElem?_eq_getElem hlt
    have hmem := List.mem_of_getElem? hname
    have hpage : pageOfIndex months (j + 2 - 1) = some (months.map (·.name))[j + 1] := hname
    change linkedPage? _ page (match (months.map (·.name))[j + 1]? with
      | some month => (PageTarget.staticPage page).monthLink month
      | none => (PageTarget.staticPage page).rootLink) = _
    rw [hpage, hname]
    exact linkedPage?_monthLink (written _ hmem) hmem

/-- The walk to the older months comes to the page of each number. -/
theorem visit_eq (distinct : (months.map (·.name)).Nodup)
    (written : ∀ name ∈ months.map (·.name), IsWrittenMonth name) {k : Nat}
    (hk : k < months.length) : visit months shelf disk k = some (pageOfIndex months k) := by
  induction k with
  | zero => rfl
  | succ k ih =>
      have hwindow := window_pageOfIndex shelf disk distinct (Nat.lt_of_succ_lt hk)
      rw [visit, ih (Nat.lt_of_succ_lt hk), Option.bind_some, follow_older written hwindow]
      rfl

theorem endsAt_older (written : ∀ name ∈ months.map (·.name), IsWrittenMonth name)
    (hlast : i + 1 = months.length)
    (hwindow : (pageFacts months shelf disk page).window = .ofIndex i) :
    EndsAt months shelf disk olderTokens page := by
  have hnone : (months.map (·.name))[i + 1]? = none := by
    apply List.getElem?_eq_none
    rw [List.length_map, hlast]
  have hcount : (pageFacts months shelf disk page).olderCount = 0 := by
    change PageFacts.countImages (months.drop (pageFacts months shelf disk page).window.older)
      shelf disk = 0
    rw [hwindow]
    change PageFacts.countImages (months.drop (i + 1)) shelf disk = 0
    rw [hlast, List.drop_length]
    rfl
  constructor
  case home => rw [follow_older written hwindow, hnone]
  case tag =>
    change some (PageFacts.tag (pageFacts months shelf disk page).olderCount) = _
    rw [hcount]
    rfl
  case count =>
    change some (pageFacts months shelf disk page).olderCount.toNat.repr = _
    rw [hcount]
    rfl

theorem endsAt_newer (written : ∀ name ∈ months.map (·.name), IsWrittenMonth name)
    (some_month : months ≠ [])
    (hwindow : (pageFacts months shelf disk page).window = .ofIndex 0) :
    EndsAt months shelf disk newerTokens page := by
  have hcount : (pageFacts months shelf disk page).newerCount = 0 := by
    have hnewer : (pageFacts months shelf disk page).window.newer = none := by
      rw [hwindow]
      rfl
    simp only [pageFacts, PageFacts.gather] at hnewer ⊢
    simp only [hnewer]
  constructor
  case home =>
    rw [follow_newer written (List.length_pos_iff.mpr some_month) hwindow]
    rfl
  case tag =>
    change some (PageFacts.tag (pageFacts months shelf disk page).newerCount) = _
    rw [hcount]
    rfl
  case count =>
    change some (pageFacts months shelf disk page).newerCount.toNat.repr = _
    rw [hcount]
    rfl

/-- The pages of a site: the root page and one for each month. -/
def sitePages (months : List Month) : List (Option String) :=
  none :: months.map fun m => some m.name

theorem exists_index_of_mem_sitePages (distinct : (months.map (·.name)).Nodup)
    (some_month : months ≠ []) (hpage : page ∈ sitePages months) :
    ∃ i, i < months.length ∧ (pageFacts months shelf disk page).window = .ofIndex i := by
  rcases List.mem_cons.mp hpage with rfl | hmonth
  · exact ⟨0, List.length_pos_iff.mpr some_month, window_root distinct some_month⟩
  · obtain ⟨month, hmem, rfl⟩ := List.mem_map.mp hmonth
    obtain ⟨i, hi, rfl⟩ := List.mem_iff_getElem.mp hmem
    exact ⟨i, hi, window_month distinct (by simp [hi])⟩

/-- The months of a site are linked both ways, newest first. -/
structure LinkedBothWays (months : List Month) (shelf : Shelf) (disk : Disk) : Prop where
  /-- the newest month has two pages, which show the same window -/
  newest : ∀ name, (months.map (·.name)).head? = some name →
    (pageFacts months shelf disk none).window = (pageFacts months shelf disk (some name)).window
  /-- the walk from the root page shows all months in order -/
  older : ∀ k, k < months.length → ∃ page, visit months shelf disk k = some page ∧
    shownMonth months shelf disk page = (months.map (·.name))[k]?
  once : (months.map (·.name)).Nodup
  newer : ∀ i name, (months.map (·.name))[i + 1]? = some name → ∃ page,
    follow months shelf disk newerTokens (some name) = some page ∧
      shownMonth months shelf disk page = (months.map (·.name))[i]? ∧ (i = 0 → page = none)
  oldestEnd : ∀ page ∈ sitePages months,
    shownMonth months shelf disk page = (months.map (·.name)).getLast? →
      EndsAt months shelf disk olderTokens page
  newestEnd : ∀ page ∈ sitePages months,
    shownMonth months shelf disk page = (months.map (·.name)).head? →
      EndsAt months shelf disk newerTokens page

theorem linkedBothWays (shelf : Shelf) (disk : Disk) (some_month : months ≠ [])
    (descending : (months.map (·.name)).Pairwise fun a b => b < a)
    (written : ∀ name ∈ months.map (·.name), IsWrittenMonth name) :
    LinkedBothWays months shelf disk := by
  have distinct : (months.map (·.name)).Nodup :=
    descending.imp fun {a b} (hlt : b < a) (heq : a = b) => String.lt_irrefl a (heq ▸ hlt)
  have index_eq {page : Option String} {i k : Nat} (hi : i < months.length)
      (hwindow : (pageFacts months shelf disk page).window = .ofIndex i)
      (hshown : shownMonth months shelf disk page = (months.map (·.name))[k]?) : i = k := by
    rw [shownMonth_eq hwindow] at hshown
    exact (List.getElem?_inj (by rwa [List.length_map]) distinct).mp hshown
  constructor
  case newest =>
    intro name hname
    rw [List.head?_eq_getElem?] at hname
    rw [window_root distinct some_month, window_month distinct hname]
  case older =>
    intro k hk
    have hwindow := window_pageOfIndex shelf disk distinct hk
    exact ⟨_, visit_eq distinct written hk, shownMonth_eq hwindow⟩
  case once => exact distinct
  case newer =>
    intro i name hname
    have hi : i + 1 < months.length := by
      have hlt := (List.getElem?_eq_some_iff.mp hname).1
      rwa [List.length_map] at hlt
    have hwindow := window_pageOfIndex shelf disk distinct (Nat.lt_of_succ_lt hi)
    refine ⟨pageOfIndex months i, follow_newer written hi (window_month distinct hname),
      shownMonth_eq hwindow, fun hzero => ?_⟩
    rw [pageOfIndex, if_pos hzero]
  case oldestEnd =>
    intro page hpage hshown
    obtain ⟨i, hi, hwindow⟩ := exists_index_of_mem_sitePages distinct some_month hpage
    rw [List.getLast?_eq_getElem?] at hshown
    have hlast := index_eq hi hwindow hshown
    rw [List.length_map] at hlast
    exact endsAt_older written (by omega) hwindow
  case newestEnd =>
    intro page hpage hshown
    obtain ⟨i, hi, hwindow⟩ := exists_index_of_mem_sitePages distinct some_month hpage
    rw [List.head?_eq_getElem?] at hshown
    exact endsAt_newer written some_month (index_eq hi hwindow hshown ▸ hwindow)

end Pages

/-- A site of three months, none of which has days. -/
def threeMonths : List Month := [⟨"2023-01", []⟩, ⟨"2022-12", []⟩, ⟨"2022-10", []⟩]

theorem linkedBothWays_threeMonths : LinkedBothWays threeMonths #[] { root := .directory [] } := by
  have hwritten : ∀ name ∈ threeMonths.map (·.name), IsWrittenMonth name := by
    simp only [threeMonths, List.map_cons, List.map_nil, List.forall_mem_cons]
    exact ⟨⟨['2', '0', '2', '3'], ['0', '1'], by decide, by decide, by decide, by simp⟩,
      ⟨['2', '0', '2', '2'], ['1', '2'], by decide, by decide, by decide, by simp⟩,
      ⟨['2', '0', '2', '2'], ['1', '0'], by decide, by decide, by decide, by simp⟩, by simp⟩
  exact linkedBothWays #[] { root := .directory [] } (by decide) (by decide) hwritten

end Site

end DrawingDiary
