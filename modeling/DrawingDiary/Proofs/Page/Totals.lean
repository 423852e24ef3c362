import DrawingDiary.Proofs.Day.NewStart
import DrawingDiary.Proofs.Page.Shown
import DrawingDiary.Proofs.Page.Window
import DrawingDiary.Report.Listing

/-!
# The totals of a page and of the listing

The drawings counted on a page, in the older months, in the month shown and in the newer ones,
are together all drawings of the months, and this is the total that the listing ends with: the
days are counted one by one, and counting one does not change what the others have.
-/

namespace DrawingDiary

section Counting

theorem toNat_sum (counts : List UInt32) :
    (counts.foldr (· + ·) 0).toNat = (counts.map (·.toNat)).sum % 2 ^ 32 := by
  induction counts with
  | nil => rfl
  | cons count rest ih =>
      rw [List.foldr_cons, UInt32.toNat_add, ih, List.map_cons, List.sum_cons, Nat.add_mod_mod]

theorem sum_append (a b : List UInt32) :
    (a ++ b).foldr (· + ·) 0 = a.foldr (· + ·) 0 + b.foldr (· + ·) 0 := by
  induction a with
  | nil => simp
  | cons count rest ih =>
      rw [List.cons_append, List.foldr_cons, ih, List.foldr_cons, UInt32.add_assoc]

theorem sum_ones {α : Type} (xs : List α) :
    (xs.map fun _ => (1 : UInt32)).foldr (· + ·) 0 = UInt32.ofNat xs.length := by
  induction xs with
  | nil => rfl
  | cons x rest ih =>
      rw [List.map_cons, List.foldr_cons, ih, List.length_cons, UInt32.ofNat_add, UInt32.add_comm]
      rfl

end Counting

namespace PageFacts

variable {shelf : Shelf} {disk : Disk}

/-- The drawings of each day of some months. -/
def dayCounts (months : List Month) (shelf : Shelf) (disk : Disk) : List UInt32 :=
  (months.flatMap (·.days)).map fun id => (shelf.day id).imageCount disk

/-- How many drawings the days of some months have, as a number without bound. -/
def imageTotal (months : List Month) (shelf : Shelf) (disk : Disk) : Nat :=
  ((dayCounts months shelf disk).map (·.toNat)).sum

theorem dayCounts_append (first rest : List Month) :
    dayCounts (first ++ rest) shelf disk =
      dayCounts first shelf disk ++ dayCounts rest shelf disk := by
  simp [dayCounts]

theorem imageTotal_append (first rest : List Month) :
    imageTotal (first ++ rest) shelf disk =
      imageTotal first shelf disk + imageTotal rest shelf disk := by
  simp [imageTotal, dayCounts_append]

theorem countImages_eq (months : List Month) :
    countImages months shelf disk = (dayCounts months shelf disk).foldr (· + ·) 0 := by
  induction months with
  | nil => rfl
  | cons month rest ih =>
      have hmonth : dayCounts (month :: rest) shelf disk =
          (month.days.map fun id => (shelf.day id).imageCount disk) ++
            dayCounts rest shelf disk := by
        simp [dayCounts]
      rw [hmonth, sum_append, ← ih]
      rfl

theorem countImages_append (first rest : List Month) :
    countImages (first ++ rest) shelf disk =
      countImages first shelf disk + countImages rest shelf disk := by
  rw [countImages_eq, countImages_eq, countImages_eq, dayCounts_append, sum_append]

theorem toNat_countImages {months : List Month} (fits : imageTotal months shelf disk < 2 ^ 32) :
    (countImages months shelf disk).toNat = imageTotal months shelf disk := by
  rw [countImages_eq, toNat_sum]
  exact Nat.mod_eq_of_lt fits

theorem newerCount_gather (months : List Month) (window : MonthWindow) (target : PageTarget) :
    (gather months window target shelf disk).newerCount =
      countImages (months.take window.newerEnd) shelf disk := by
  cases hnewer : window.newer with
  | none => simp [gather, hnewer, MonthWindow.newerEnd, countImages]
  | some i => simp [gather, hnewer, MonthWindow.newerEnd]

end PageFacts

namespace Report

variable {view : View} {shelf before after : Shelf}

/-- The days have the same dates and directories. -/
def SameDays (before after : Shelf) : Prop :=
  ∀ id, (after.day id).date = (before.day id).date ∧
    (after.day id).directory = (before.day id).directory

theorem SameDays.imageCount_eq (same : SameDays before after) (id : DayId) (disk : Disk) :
    (after.day id).imageCount disk = (before.day id).imageCount disk := by
  obtain ⟨hdate, hdirectory⟩ := same id
  rw [Day.imageCount, Day.imageMask, Day.files, hdate, hdirectory]
  rfl

theorem state_dayRow (view : View) (day : Day) :
    (dayRow view day).state = Day.Call.after view day .eventMask := by
  simp only [dayRow, Run.bind_apply, Run.state, Day.Call.after]
  cases (Day.eventMask view day).result <;> rfl

theorem images_of_dayRow {day : Day} {row : DayRow} (h : (dayRow view day).result = some row) :
    row.images = day.imageCount view.disk := by
  simp only [dayRow, Run.bind_apply, Run.state] at h
  cases hmask : (Day.eventMask view day).result with
  | none =>
      rw [hmask] at h
      cases h
  | some mask =>
      rw [hmask] at h
      cases h
      rfl

/-- Each row has the drawings of its day, and making it changes neither the name nor the place
of a day. -/
theorem ensures_dayRow (view : View) (shelf : Shelf) (id : DayId) :
    Run.Ensures (SameDays shelf) (Shelf.onDay id (dayRow view)) fun row after =>
      SameDays shelf after ∧ row.images = (shelf.day id).imageCount view.disk := by
  intro between row same hrow
  refine ⟨?_, (images_of_dayRow hrow).trans (same.imageCount_eq id view.disk)⟩
  intro other
  have hday : (Shelf.onDay id (dayRow view) between).state.day other =
      if id = other ∧ id < between.size then (dayRow view (between.day id)).state
      else between.day other := Shelf.day_replace between id other _
  rw [hday]
  by_cases hother : id = other ∧ id < between.size
  · have named : (Day.Call.after view (between.day id) .eventMask).Named
        (between.day id).date (between.day id).directory (between.day id).settings :=
      Day.Named.after ⟨rfl, rfl, rfl⟩ view .eventMask
    rw [if_pos hother, state_dayRow, named.date_eq, named.directory_eq, ← hother.1]
    exact same id
  · rw [if_neg hother]
    exact same other

theorem ensures_monthRows (view : View) (shelf : Shelf) (months : List Month) :
    Run.Ensures (SameDays shelf) (monthRows view months) fun rows after =>
      SameDays shelf after ∧ rows.map (fun month => month.2.map (·.images)) =
        months.map fun month => month.days.map fun id => (shelf.day id).imageCount view.disk := by
  apply Run.Ensures.forEach_map
  intro month _
  have hdays : Run.Ensures (SameDays shelf) (dayRows view month.days) fun rows after =>
      SameDays shelf after ∧ rows.map (·.images) =
        month.days.map fun id => (shelf.day id).imageCount view.disk :=
    Run.Ensures.forEach_map fun id _ => ensures_dayRow view shelf id
  exact hdays.bind fun rows => Run.ensures_pure fun s hs => hs

theorem totalLines_of_ne_nil {rows : List DayRow} (h : rows ≠ []) :
    totalLines rows = ["", Text.counted (UInt32.ofNat rows.length) "day" "days" ++ ", " ++
      Text.counted ((rows.map (·.images)).foldr (· + ·) 0) "image" "images"] := by
  have hempty : rows.isEmpty = false := List.isEmpty_eq_false_iff.mpr h
  simp only [totalLines, hempty, Bool.false_eq_true, if_false, sum_ones]

theorem getLast?_listing {months : List Month} {lines : List String}
    (hdays : months.flatMap (·.days) ≠ [])
    (hlines : (listing view months shelf).result = some lines) :
    lines.getLast? = some
      (Text.counted (UInt32.ofNat (months.flatMap (·.days)).length) "day" "days" ++ ", " ++
        Text.counted (PageFacts.countImages months shelf view.disk) "image" "images") := by
  obtain ⟨rows, hrows, rfl⟩ : ∃ rows, (monthRows view months shelf).result = some rows ∧
      listingOf rows = lines := by
    simp only [listing, Run.bind_apply] at hlines
    cases hrows : (monthRows view months shelf).result with
    | none =>
        rw [hrows] at hlines
        cases hlines
    | some rows =>
        rw [hrows] at hlines
        exact ⟨rows, rfl, Option.some.inj hlines⟩
  have hmonths := (ensures_monthRows view shelf months shelf rows (fun _ => ⟨rfl, rfl⟩) hrows).2
  have himages : (rows.flatMap (·.2)).map (·.images) =
      PageFacts.dayCounts months shelf view.disk := by
    rw [PageFacts.dayCounts, List.map_flatMap, List.map_flatMap, List.flatMap_def, List.flatMap_def,
      hmonths]
  have hlength : (rows.flatMap (·.2)).length = (months.flatMap (·.days)).length := by
    have hlengths := congrArg List.length himages
    rwa [List.length_map, PageFacts.dayCounts, List.length_map] at hlengths
  have hne : rows.flatMap (·.2) ≠ [] := by
    rw [← List.length_pos_iff, hlength]
    exact List.length_pos_iff.mpr hdays
  rw [listingOf, totalLines_of_ne_nil hne, hlength, himages, ← PageFacts.countImages_eq]
  simp

theorem completes_listing (images : ∀ path, view.reader.image view.disk path ≠ .aborted)
    (notes : ∀ disk path, (view.reader.note disk path).isAborted = false) (months : List Month) :
    Run.Completes (listing view months) := by
  have hstate : Run.Completes (Run.state : Run Day Day) := fun day => ⟨day, rfl⟩
  have himages : Run.Completes (Day.refreshImages view) := fun _ =>
    ⟨(), Day.result_refreshImages_of_reads images⟩
  have hmask : Run.Completes (Day.eventMask view) :=
    himages.bind fun _ => (Page.completes_refreshEvents notes).bind fun _ =>
      hstate.bind fun day => Run.completes_pure _
  have hrow : Run.Completes (dayRow view) :=
    hstate.bind fun _ => hmask.bind fun _ => hstate.bind fun _ => Run.completes_pure _
  have hrows (days : List DayId) : Run.Completes (dayRows view days) :=
    Run.Completes.forEach fun id _ => hrow.onPart _ _
  have hmonths : Run.Completes (monthRows view months) :=
    Run.Completes.forEach fun month _ => (hrows month.days).bind fun _ => Run.completes_pure _
  exact hmonths.bind fun rows => Run.completes_pure _

end Report

namespace PageFacts

variable {months : List Month} {shelf : Shelf} {view : View}

/-- The drawings counted on a page are all drawings of the months, as many as the listing of
these months says, if it lists any day. -/
structure CountsAll (facts : PageFacts) (months : List Month) (shelf : Shelf) (view : View) :
    Prop where
  sum_eq : facts.olderCount + facts.currentCount + facts.newerCount =
    countImages months shelf view.disk
  /-- nothing is lost above thirty-two bits while the total itself fits -/
  toNat_eq : imageTotal months shelf view.disk < 2 ^ 32 →
    facts.olderCount.toNat + facts.currentCount.toNat + facts.newerCount.toNat =
      imageTotal months shelf view.disk
  listed : months.flatMap (·.days) ≠ [] → ∀ lines,
    (Report.listing view months shelf).result = some lines → lines.getLast? = some
      (Text.counted (UInt32.ofNat (months.flatMap (·.days)).length) "day" "days" ++ ", " ++
        Text.counted (facts.olderCount + facts.currentCount + facts.newerCount)
          "image" "images")
  unlisted : months.flatMap (·.days) = [] →
    facts.olderCount + facts.currentCount + facts.newerCount = 0
  answers : (∀ path, view.reader.image view.disk path ≠ .aborted) →
    (∀ disk path, (view.reader.note disk path).isAborted = false) →
    ∃ lines, (Report.listing view months shelf).result = some lines

theorem countsAll_gather (months : List Month) (requested : Option String) (target : PageTarget)
    (shelf : Shelf) (view : View) :
    (gather months (MonthWindow.resolve (months.map (·.name)) requested) target shelf
      view.disk).CountsAll months shelf view := by
  have hparts := MonthWindow.take_append_current_append_drop months requested
  generalize MonthWindow.resolve (months.map (·.name)) requested = window at hparts
  have hsum : (gather months window target shelf view.disk).olderCount +
      (gather months window target shelf view.disk).currentCount +
      (gather months window target shelf view.disk).newerCount =
      countImages months shelf view.disk := by
    conv_rhs => rw [← hparts]
    rw [newerCount_gather, countImages_append, countImages_append, UInt32.add_comm,
      UInt32.add_comm (gather months window target shelf view.disk).olderCount]
    rfl
  constructor
  case sum_eq => exact hsum
  case toNat_eq =>
    intro fits
    have htotal := congrArg (fun months => imageTotal months shelf view.disk) hparts
    simp only [imageTotal_append] at htotal
    rw [newerCount_gather, toNat_countImages (by omega)]
    change (countImages _ _ _).toNat + (countImages _ _ _).toNat + _ = _
    rw [toNat_countImages (by omega), toNat_countImages (by omega)]
    omega
  case listed =>
    intro hdays lines hlines
    rw [hsum]
    exact Report.getLast?_listing hdays hlines
  case unlisted =>
    intro hdays
    rw [hsum, countImages_eq, dayCounts, hdays]
    rfl
  case answers =>
    intro images notes
    exact Report.completes_listing images notes months shelf

/-- A neighbour is only written as a link when there is such a month. -/
structure TagsNeighbours (facts : PageFacts) (months : List Month) : Prop where
  older : facts.values.lookup "PREVIOUS_RABBITS_TAG" = some "a" →
    ∃ month, months[facts.window.older]? = some month
  newer : facts.values.lookup "NEXT_RABBITS_TAG" = some "a" →
    ∃ i month, facts.window.newer = some i ∧ months[i]? = some month

theorem ne_zero_of_tag {count : UInt32} (h : some (tag count) = some "a") : count ≠ 0 := by
  rintro rfl
  exact absurd h (by decide)

theorem tagsNeighbours_gather {window : MonthWindow} (inRange : window.InRange months.length)
    (target : PageTarget) (shelf : Shelf) (disk : Disk) :
    (gather months window target shelf disk).TagsNeighbours months := by
  constructor
  case older =>
    intro htag
    by_cases hlt : window.older < months.length
    · exact ⟨_, List.getElem?_eq_getElem hlt⟩
    · have hzero : (gather months window target shelf disk).olderCount = 0 := by
        rw [gather, List.drop_eq_nil_of_le (Nat.not_lt.mp hlt)]
        rfl
      exact absurd hzero (ne_zero_of_tag htag)
  case newer =>
    intro htag
    cases hnewer : window.newer with
    | some i => exact ⟨i, _, hnewer, List.getElem?_eq_getElem (inRange.newer i hnewer)⟩
    | none =>
        have hzero : (gather months window target shelf disk).newerCount = 0 := by
          simp only [gather, hnewer]
        exact absurd hzero (ne_zero_of_tag htag)

/-- The window of a page divides the months: no index is outside the list, in months strictly
newest first its parts are the months after, of and before the one asked for, all drawings are
counted once, and only neighbours that exist are links. -/
theorem divides_months (months : List Month) (requested : Option String) (target : PageTarget)
    (shelf : Shelf) (view : View) :
    let window := MonthWindow.resolve (months.map (·.name)) requested
    let facts := gather months window target shelf view.disk
    window.InRange months.length ∧
      ((months.Pairwise fun a b => b.name < a.name) → ∀ name,
        requested.or (months.head?.map (·.name)) = some name → window.SplitsAt months name) ∧
      facts.CountsAll months shelf view ∧ facts.TagsNeighbours months := by
  have inRange : (MonthWindow.resolve (months.map (·.name)) requested).InRange months.length :=
    List.length_map (α := Month) _ ▸ MonthWindow.inRange_resolve (months.map (·.name)) requested
  refine ⟨inRange, fun descending name hname => ?_, countsAll_gather months requested target
    shelf view, tagsNeighbours_gather inRange target shelf view.disk⟩
  cases requested with
  | some month =>
      obtain rfl : month = name := Option.some.inj hname
      exact MonthWindow.splitsAt_resolve descending month
  | none =>
      rw [MonthWindow.resolve_none, List.head?_map]
      have hhead : months.head?.map (·.name) = some name := hname
      rw [hhead]
      exact MonthWindow.splitsAt_resolve descending name

/-- Two months, the older one with a day of two drawings. -/
def twoMonths : List Month := [⟨"2023-01", []⟩, ⟨"2022-11", [0]⟩]

/-- A request for the month between them. -/
theorem divides_months_between :
    let shelf : Shelf := #[Day.new "2022-11-01" ⟨"/d"⟩ {}]
    let view := Day.twoHoursView true
    let window := MonthWindow.resolve (twoMonths.map (·.name)) (some "2022-12")
    let facts := gather twoMonths window (.staticPage none) shelf view.disk
    window.SplitsAt twoMonths "2022-12" ∧
      ∃ lines, (Report.listing view twoMonths shelf).result = some lines ∧
        lines.getLast? = some (Text.counted 1 "day" "days" ++ ", " ++
          Text.counted (facts.olderCount + facts.currentCount + facts.newerCount)
            "image" "images") := by
  intro shelf view window facts
  obtain ⟨-, splits, counts, -⟩ :=
    divides_months twoMonths (some "2022-12") (.staticPage none) shelf view
  have hdescending : twoMonths.Pairwise fun a b => b.name < a.name := by decide
  have himages : ∀ path, view.reader.image view.disk path ≠ .aborted := by
    intro path h
    cases h
  obtain ⟨lines, hlines⟩ := counts.answers himages fun _ _ => rfl
  exact ⟨splits hdescending "2022-12" rfl, lines, hlines, counts.listed (by decide) lines hlines⟩

end PageFacts

end DrawingDiary
