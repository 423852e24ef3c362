import DrawingDiary.Proofs.Naming.Month
import DrawingDiary.Proofs.Site.Navigation

/-!
# The links of a live page

A live page has an address for every month that can be asked for, and its links are references
that are resolved against this address. The link to a neighbour that names its month leads to
the page of this month. The link to the newest month is an empty reference instead, so it leads
to the page that it stands on: from the page of a month that was asked for the newest month is
not reached by it (`neighbourLinks_live`).
-/

namespace DrawingDiary

open Naming (IsWrittenMonth)

/-- The address of a page that is served on request. -/
structure Address where
  resource : String
  query : Option String
deriving DecidableEq, Repr

namespace Address

/-- The address of the page of a month, or of the page that is shown without a request. -/
def ofPage (resource : String) (requested : Option String) : Address :=
  ⟨resource, requested.map ("month=" ++ ·)⟩

/-- Where a reference to the same resource leads from an address. It is read without its
fragment: an empty one leads to the address itself, with its query, and one that is only a query
replaces the query. -/
def resolve? (base : Address) (reference : String) : Option Address :=
  match reference.toList.takeWhile (· != '#') with
  | [] => some base
  | '?' :: query => some { base with query := some (String.ofList query) }
  | _ => none

variable {base : Address} {name : String}

theorem resolve?_rootLink (endpoint : String) :
    base.resolve? (PageTarget.live endpoint).rootLink = some base := rfl

theorem resolve?_monthLink (written : IsWrittenMonth name) (endpoint : String) :
    base.resolve? ((PageTarget.live endpoint).monthLink name) =
      some (ofPage base.resource (some name)) := by
  have htext : ((PageTarget.live endpoint).monthLink name).toList =
      '?' :: ("month=" ++ name).toList := by
    rw [PageTarget.monthLink, String.toList_append, String.toList_append]
    rfl
  have hplain : ∀ c ∈ '?' :: ("month=" ++ name).toList, (c != '#') = true := by
    intro c hc
    rw [← htext, PageTarget.monthLink, String.toList_append, List.mem_append] at hc
    apply bne_iff_ne.mpr
    rintro rfl
    rcases hc with hquery | hname
    · exact absurd hquery (by decide)
    · rcases written.isDigit hname with hdash | hdigit
      · cases hdash
      · cases hdigit
  rw [resolve?, htext, List.takeWhile_eq_self_iff.mpr hplain]
  simp only [String.ofList_toList]
  rfl

end Address

namespace Page

/-- The closest month before one that is asked for. -/
structure IsClosestOlder (names : List String) (asked name : String) : Prop where
  mem : name ∈ names
  lt : name < asked
  le : ∀ other ∈ names, other < asked → other ≤ name

/-- The closest month after one that is asked for. -/
structure IsClosestNewer (names : List String) (asked name : String) : Prop where
  mem : name ∈ names
  lt : asked < name
  le : ∀ other ∈ names, asked < other → name ≤ other

/-- The name of the month that is shown on request. -/
def shownName (names : List String) (requested : Option String) : Option String :=
  (MonthWindow.resolve names requested).current.bind (names[·]?)

section Closest

theorem head?_of_first {α : Type} {r : α → α → Prop} {xs : List α} {x : α}
    (ordered : xs.Pairwise r) (hx : x ∈ xs) (first : ∀ y ∈ xs, ¬ r y x) : xs.head? = some x := by
  cases xs with
  | nil => cases hx
  | cons y rest =>
      rcases List.mem_cons.mp hx with rfl | hrest
      · rfl
      · exact absurd ((List.pairwise_cons.mp ordered).1 x hrest) (first y List.mem_cons_self)

theorem map_name_filter (months : List Month) (p : String → Bool) :
    (months.filter fun month => p month.name).map (·.name) =
      (months.map (·.name)).filter p := by
  rw [List.filter_map]
  rfl

theorem exists_newer_of_getLast? {names : List String} {requested : Option String} {name : String}
    (h : (names.take (MonthWindow.resolve names requested).newerEnd).getLast? = some name) :
    ∃ i, (MonthWindow.resolve names requested).newer = some i ∧ names[i]? = some name := by
  rw [MonthWindow.newerEnd] at h
  cases hindex : (MonthWindow.resolve names requested).newer with
  | none =>
      rw [hindex] at h
      cases h
  | some i =>
      rw [hindex] at h
      have hlt := (MonthWindow.inRange_resolve names requested).newer i hindex
      refine ⟨i, rfl, ?_⟩
      rw [Option.map_some, Option.getD_some, List.getLast?_take, if_neg (Nat.succ_ne_zero i),
        Nat.add_sub_cancel, List.getElem?_eq_getElem hlt, Option.some_or] at h
      rw [List.getElem?_eq_getElem hlt, h]

variable {months : List Month} {asked name : String}
  (descending : months.Pairwise fun a b => b.name < a.name)

include descending

theorem IsClosestOlder.getElem?_older
    (closest : IsClosestOlder (months.map (·.name)) asked name) :
    (months.map (·.name))[(MonthWindow.resolve (months.map (·.name)) (some asked)).older]? =
      some name := by
  have ordered : (months.map (·.name)).Pairwise fun a b => b < a :=
    List.pairwise_map.mpr descending
  have holder := congrArg (List.map (·.name))
    (MonthWindow.splitsAt_resolve descending asked).older
  rw [List.map_drop, map_name_filter months fun other => decide (other < asked)] at holder
  rw [← List.head?_drop, holder]
  apply head?_of_first (ordered.filter _)
  · exact List.mem_filter.mpr ⟨closest.mem, decide_eq_true closest.lt⟩
  · intro other hother hlater
    obtain ⟨hmem, hlt⟩ := List.mem_filter.mp hother
    exact Std.not_lt.mpr (closest.le other hmem (of_decide_eq_true hlt)) hlater

theorem IsClosestNewer.exists_newer
    (closest : IsClosestNewer (months.map (·.name)) asked name) :
    ∃ i, (MonthWindow.resolve (months.map (·.name)) (some asked)).newer = some i ∧
      (months.map (·.name))[i]? = some name := by
  have ordered : (months.map (·.name)).Pairwise fun a b => b < a :=
    List.pairwise_map.mpr descending
  have hnewer := congrArg (List.map (·.name))
    (MonthWindow.splitsAt_resolve descending asked).newer
  rw [List.map_take, map_name_filter months fun other => decide (asked < other)] at hnewer
  apply exists_newer_of_getLast?
  rw [hnewer, List.getLast?_eq_head?_reverse]
  apply head?_of_first (List.pairwise_reverse.mpr (ordered.filter _))
  · exact List.mem_reverse.mpr (List.mem_filter.mpr ⟨closest.mem, decide_eq_true closest.lt⟩)
  · intro other hother hearlier
    obtain ⟨hmem, hlt⟩ := List.mem_filter.mp (List.mem_reverse.mp hother)
    exact Std.not_lt.mpr (closest.le other hmem (of_decide_eq_true hlt)) hearlier

end Closest

/-- A link leads from the address of a page to that of the page that shows a month. -/
def LeadsTo (facts : PageFacts) (tokens : Site.NeighbourTokens) (base : Address)
    (name : String) : Prop :=
  ∃ link page, facts.values.lookup tokens.link = some link ∧
    base.resolve? link = some (.ofPage base.resource page) ∧
    shownName facts.months page = some name

/-- Where the links to the neighbours of a month that is asked for lead from its page. -/
structure NeighbourLinks (facts : PageFacts) (base : Address) (requested : Option String)
    (asked : String) : Prop where
  older : ∀ name, IsClosestOlder facts.months asked name →
    LeadsTo facts Site.olderTokens base name
  newer : ∀ name, IsClosestNewer facts.months asked name → facts.months.head? ≠ some name →
    LeadsTo facts Site.newerTokens base name
  /-- the link to the newest month leads back to the page, which shows another one or none -/
  newest : ∀ name, IsClosestNewer facts.months asked name → facts.months.head? = some name →
    (facts.values.lookup Site.newerTokens.link).bind base.resolve? = some base ∧
      shownName facts.months requested ≠ some name

section Live

variable {months : List Month} {requested : Option String} {asked name : String}

theorem resolve_eq_resolve_asked {names : List String}
    (h : requested.or names.head? = some asked) :
    MonthWindow.resolve names requested = MonthWindow.resolve names (some asked) := by
  cases requested with
  | none =>
      rw [Option.none_or] at h
      rw [MonthWindow.resolve_none, h]
  | some month =>
      rw [Option.some_or] at h
      rw [h]

theorem shownName_of_mem {names : List String} (distinct : names.Nodup) (hname : name ∈ names) :
    shownName names (some name) = some name := by
  obtain ⟨i, hi⟩ := List.mem_iff_getElem?.mp hname
  rw [shownName, MonthWindow.resolve_eq_ofIndex distinct hi]
  exact hi

theorem leadsTo_of_monthLink {facts : PageFacts} {tokens : Site.NeighbourTokens} {base : Address}
    {endpoint : String} (distinct : facts.months.Nodup) (written : IsWrittenMonth name)
    (hname : name ∈ facts.months)
    (hlink : facts.values.lookup tokens.link = some ((PageTarget.live endpoint).monthLink name)) :
    LeadsTo facts tokens base name :=
  ⟨_, some name, hlink, Address.resolve?_monthLink written endpoint,
    shownName_of_mem distinct hname⟩

theorem lookup_older {facts : PageFacts}
    (h : facts.months[facts.window.older]? = some name) :
    facts.values.lookup Site.olderTokens.link = some (facts.target.monthLink name) := by
  have hlink : facts.olderLink = facts.target.monthLink name := by
    rw [PageFacts.olderLink, h]
  exact congrArg some hlink

theorem lookup_newer_of_ne_zero {facts : PageFacts} {i : Nat}
    (hnewer : facts.window.newer = some i) (hi : i ≠ 0) (h : facts.months[i]? = some name) :
    facts.values.lookup Site.newerTokens.link = some (facts.target.monthLink name) := by
  have hlink : facts.newerLink = facts.target.monthLink name := by
    obtain ⟨j, rfl⟩ := Nat.exists_eq_succ_of_ne_zero hi
    rw [PageFacts.newerLink, hnewer]
    simp only [h]
  exact congrArg some hlink

theorem lookup_newer_of_zero {facts : PageFacts} (hnewer : facts.window.newer = some 0) :
    facts.values.lookup Site.newerTokens.link = some facts.target.rootLink := by
  have hlink : facts.newerLink = facts.target.rootLink := by
    rw [PageFacts.newerLink, hnewer]
  exact congrArg some hlink

theorem eq_of_shownName (descending : months.Pairwise fun a b => b.name < a.name)
    (h : shownName (months.map (·.name)) (some asked) = some name) : name = asked := by
  have hcurrent := (MonthWindow.splitsAt_resolve descending asked).current
  rw [shownName] at h
  obtain ⟨i, hi, hname⟩ := Option.bind_eq_some_iff.mp h
  rw [List.getElem?_map, Option.map_eq_some_iff] at hname
  obtain ⟨month, hmonth, rfl⟩ := hname
  rw [hi, Option.bind_some, hmonth] at hcurrent
  have hmem : month ∈ months.filter (·.name = asked) :=
    hcurrent ▸ List.mem_singleton_self month
  exact of_decide_eq_true (List.mem_filter.mp hmem).2

/-- On a live page the links to the neighbours lead to their pages, with one exception: the link
to the newest month leads back to the page. -/
theorem neighbourLinks_live (descending : months.Pairwise fun a b => b.name < a.name)
    (written : ∀ month ∈ months, IsWrittenMonth month.name) (requested : Option String)
    (asked : String) (h : requested.or (months.map (·.name)).head? = some asked)
    (endpoint resource : String) (shelf : Shelf) (disk : Disk) :
    NeighbourLinks (PageFacts.gather months
      (MonthWindow.resolve (months.map (·.name)) requested) (.live endpoint) shelf disk)
      (.ofPage resource requested) requested asked := by
  have distinct : (months.map (·.name)).Nodup := by
    apply List.pairwise_map.mpr
    exact descending.imp fun hlt heq => absurd hlt (Std.not_lt.mpr (Std.le_of_eq heq))
  have hwritten : ∀ name ∈ months.map (·.name), IsWrittenMonth name :=
    List.forall_mem_map.mpr written
  have hwindow := resolve_eq_resolve_asked h
  constructor
  case older =>
    intro name closest
    have holder := closest.getElem?_older descending
    rw [← hwindow] at holder
    exact leadsTo_of_monthLink distinct (hwritten name closest.mem) closest.mem
      (lookup_older holder)
  case newer =>
    intro name closest hnot
    obtain ⟨i, hnewer, hname⟩ := closest.exists_newer descending
    rw [← hwindow] at hnewer
    have hi : i ≠ 0 := by
      rintro rfl
      exact hnot (List.head?_eq_getElem?.trans hname)
    exact leadsTo_of_monthLink distinct (hwritten name closest.mem) closest.mem
      (lookup_newer_of_ne_zero hnewer hi hname)
  case newest =>
    intro name closest hhead
    obtain ⟨i, hnewer, hname⟩ := closest.exists_newer descending
    rw [← hwindow] at hnewer
    obtain rfl : i = 0 := by
      have hhead' : (months.map (·.name))[0]? = some name := List.head?_eq_getElem?.symm.trans hhead
      have hlt : i < (months.map (·.name)).length := (List.getElem?_eq_some_iff.mp hname).1
      exact (List.getElem?_inj hlt distinct).mp (hname.trans hhead'.symm)
    constructor
    · rw [lookup_newer_of_zero hnewer]
      exact Address.resolve?_rootLink endpoint
    · intro hshown
      have hasked : shownName (months.map (·.name)) (some asked) = some name := by
        rw [shownName, ← hwindow]
        exact hshown
      obtain rfl := eq_of_shownName descending hasked
      exact String.lt_irrefl name closest.lt

end Live

theorem written_threeMonths : ∀ month ∈ Site.threeMonths, IsWrittenMonth month.name := by
  intro month hmonth
  apply Naming.isMonth_iff.mp
  revert month
  decide

/-- A request for a month that is missing has two neighbours that are reached; from the middle
month the newest one is not. -/
theorem neighbourLinks_live_threeMonths :
    let facts (requested : String) := PageFacts.gather Site.threeMonths
      (MonthWindow.resolve (Site.threeMonths.map (·.name)) (some requested)) (.live "/api") #[]
      { root := .directory [] }
    let page (requested : String) := Address.ofPage "/rabbits" (some requested)
    LeadsTo (facts "2022-11") Site.olderTokens (page "2022-11") "2022-10" ∧
      LeadsTo (facts "2022-11") Site.newerTokens (page "2022-11") "2022-12" ∧
      ((facts "2022-12").values.lookup Site.newerTokens.link).bind (page "2022-12").resolve? =
        some (page "2022-12") := by
  intro facts page
  have descending : Site.threeMonths.Pairwise fun a b => b.name < a.name := by decide
  have links (requested : String) := neighbourLinks_live descending written_threeMonths
    (some requested) requested rfl "/api" "/rabbits" #[] { root := .directory [] }
  exact ⟨(links "2022-11").older "2022-10" ⟨by decide, by decide, by decide⟩,
    (links "2022-11").newer "2022-12" ⟨by decide, by decide, by decide⟩ (by decide),
    ((links "2022-12").newest "2023-01" ⟨by decide, by decide, by decide⟩ rfl).1⟩

end Page

end DrawingDiary
