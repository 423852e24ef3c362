import DrawingDiary.Proofs.Diary.Index
import DrawingDiary.Proofs.Naming.DateNumber
import DrawingDiary.Proofs.Page.Totals

/-!
# Counts that fit

Drawings and days are counted with words of thirty-two bits, and nothing bounds these counts
where they are added up. What bounds them is the diary: its months hold each of its days once, a
date has one day, there are at most a hundred million dates (`Reached.length_days_months_le`),
and a day has at most twenty-four drawings (`Day.imageCount_le`). So every sum over the months of
a diary that calls lead to, or over some of them, is the sum of the numbers themselves
(`Reached.counts_exactly`).
-/

namespace DrawingDiary

theorem HourMask.count_le (mask : HourMask) : mask.count.toNat ≤ hoursPerDay := by
  have hle : allHours.countP mask.has ≤ hoursPerDay :=
    List.countP_le_length.trans (List.length_finRange (n := hoursPerDay)).le
  have hfits : allHours.countP mask.has < 2 ^ 32 := hle.trans_lt (by decide)
  have hcount : mask.count.toNat = allHours.countP mask.has % 2 ^ 32 := rfl
  rwa [hcount, Nat.mod_eq_of_lt hfits]

/-- A day has at most one drawing for each of its hours. -/
theorem Day.imageCount_le (day : Day) (disk : Disk) :
    (day.imageCount disk).toNat ≤ hoursPerDay :=
  HourMask.count_le _

namespace PageFacts

variable {part months : List Month} {shelf : Shelf} {disk : Disk}

theorem imageTotal_le (months : List Month) (shelf : Shelf) (disk : Disk) :
    imageTotal months shelf disk ≤ (months.flatMap (·.days)).length * hoursPerDay := by
  have hbound : ∀ count ∈ (dayCounts months shelf disk).map (·.toNat), count ≤ hoursPerDay := by
    intro count hcount
    obtain ⟨word, hword, rfl⟩ := List.mem_map.mp hcount
    obtain ⟨id, -, rfl⟩ := List.mem_map.mp hword
    exact (shelf.day id).imageCount_le disk
  have hsum := List.sum_le_card_nsmul _ hoursPerDay hbound
  rwa [List.length_map, dayCounts, List.length_map, smul_eq_mul] at hsum

theorem length_days_le_of_sublist (hpart : part.Sublist months) :
    (part.flatMap (·.days)).length ≤ (months.flatMap (·.days)).length :=
  (hpart.flatMap _).length_le

/-- As long as there are no more days than dates, their drawings fit into a word. -/
theorem imageTotal_lt (hpart : part.Sublist months)
    (few : (months.flatMap (·.days)).length ≤ Naming.dateLimit) (shelf : Shelf) (disk : Disk) :
    imageTotal part shelf disk < 2 ^ 32 := by
  have hdays := (length_days_le_of_sublist hpart).trans few
  calc imageTotal part shelf disk
      ≤ (part.flatMap (·.days)).length * hoursPerDay := imageTotal_le part shelf disk
    _ ≤ Naming.dateLimit * hoursPerDay := Nat.mul_le_mul_right _ hdays
    _ < 2 ^ 32 := by decide

theorem toNat_countImages_of_sublist (hpart : part.Sublist months)
    (few : (months.flatMap (·.days)).length ≤ Naming.dateLimit) (shelf : Shelf) (disk : Disk) :
    (countImages part shelf disk).toNat = imageTotal part shelf disk :=
  toNat_countImages (imageTotal_lt hpart few shelf disk)

theorem sublist_of_getElem? (months : List Month) (index : Option Nat) :
    (index.bind (months[·]?)).toList.Sublist months := by
  cases h : index.bind (months[·]?) with
  | none => exact List.nil_sublist months
  | some month =>
      obtain ⟨i, -, hmonth⟩ := Option.bind_eq_some_iff.mp h
      exact List.singleton_sublist.mpr (List.mem_of_getElem? hmonth)

end PageFacts

theorem Month.imageCount_eq (month : Month) (shelf : Shelf) (disk : Disk) :
    month.imageCount shelf disk = PageFacts.countImages [month] shelf disk := by
  rw [PageFacts.countImages_eq]
  simp [Month.imageCount, PageFacts.dayCounts]

namespace Diary

variable {roots : List Path} {settings : DaySettings} {cooldown : Nat} {diary : Diary}

theorem Reached.length_days_le (reached : Reached roots settings cooldown diary) :
    diary.days.length ≤ Naming.dateLimit := by
  have hdates : ∀ date ∈ diary.days.map (·.1), Naming.IsWrittenDate date :=
    List.forall_mem_map.mpr reached.dated.written
  have hle := Naming.length_le_dateLimit reached.wellFormed.nodup hdates
  rwa [List.length_map] at hle

theorem Reached.length_days_months (reached : Reached roots settings cooldown diary) :
    (diary.months.flatMap (·.days)).length = diary.days.length := by
  rw [reached.monthsMatchDays.same_days.length_eq, List.length_map]

theorem Reached.length_days_months_le (reached : Reached roots settings cooldown diary) :
    (diary.months.flatMap (·.days)).length ≤ Naming.dateLimit :=
  reached.length_days_months ▸ reached.length_days_le

/-- The sums of drawings and days over some months, counted in words, are the sums of the numbers
themselves: the drawings of one month, those before, in and after the month of any window, and the
totals that the listing ends with. All of them fit into a word. -/
structure CountsExactly (months : List Month) (shelf : Shelf) (view : View) : Prop where
  fits : PageFacts.imageTotal months shelf view.disk < 2 ^ 32
  days_fit : (months.flatMap (·.days)).length < 2 ^ 32
  ofMonth : ∀ month ∈ months, (month.imageCount shelf view.disk).toNat =
    (month.days.map fun id => ((shelf.day id).imageCount view.disk).toNat).sum
  older : ∀ window target,
    (PageFacts.gather months window target shelf view.disk).olderCount.toNat =
      PageFacts.imageTotal (months.drop window.older) shelf view.disk
  current : ∀ window target,
    (PageFacts.gather months window target shelf view.disk).currentCount.toNat =
      PageFacts.imageTotal (window.current.bind (months[·]?)).toList shelf view.disk
  newer : ∀ window target,
    (PageFacts.gather months window target shelf view.disk).newerCount.toNat =
      PageFacts.imageTotal (months.take window.newerEnd) shelf view.disk
  listed : months.flatMap (·.days) ≠ [] → ∀ lines,
    (Report.listing view months shelf).result = some lines → ∃ days images : UInt32,
      days.toNat = (months.flatMap (·.days)).length ∧
        images.toNat = PageFacts.imageTotal months shelf view.disk ∧
        lines.getLast? = some (Text.counted days "day" "days" ++ ", " ++
          Text.counted images "image" "images")
  /-- there is a listing unless a read is aborted -/
  answers : (∀ path, view.reader.image view.disk path ≠ .aborted) →
    (∀ disk path, (view.reader.note disk path).isAborted = false) →
    ∃ lines, (Report.listing view months shelf).result = some lines

/-- No count of days or drawings is ever too large for a word, whatever months a diary has after
any calls, and whatever it is that stands on the disk when the drawings are counted. -/
theorem Reached.counts_exactly (reached : Reached roots settings cooldown diary) (shelf : Shelf)
    (view : View) : CountsExactly diary.months shelf view := by
  have few := reached.length_days_months_le
  have hdays : (diary.months.flatMap (·.days)).length < 2 ^ 32 := few.trans_lt (by decide)
  have exact {part : List Month} (hpart : part.Sublist diary.months) :=
    PageFacts.toNat_countImages_of_sublist hpart few shelf view.disk
  constructor
  case fits => exact PageFacts.imageTotal_lt (List.Sublist.refl _) few shelf view.disk
  case days_fit => exact hdays
  case ofMonth =>
    intro month hmonth
    rw [month.imageCount_eq, exact (List.singleton_sublist.mpr hmonth)]
    simp [PageFacts.imageTotal, PageFacts.dayCounts, Function.comp_def]
  case older => exact fun window _ => exact (List.drop_sublist window.older _)
  case current => exact fun window _ => exact (PageFacts.sublist_of_getElem? _ window.current)
  case newer =>
    intro window target
    rw [PageFacts.newerCount_gather]
    exact exact (List.take_sublist window.newerEnd _)
  case listed =>
    intro hsome lines hlines
    refine ⟨_, _, ?_, exact (List.Sublist.refl _), Report.getLast?_listing hsome hlines⟩
    rw [UInt32.toNat_ofNat', Nat.mod_eq_of_lt hdays]
  case answers => exact fun images notes => Report.completes_listing images notes _ shelf

section Album

open Disk (Stands)

/-- The two drawings of one day of the album. -/
def christmasDrawings : List HourlyFile :=
  [⟨0, "rabbit-2022-12-25-0.png", ⟨"/b/2022-12-25/rabbit-2022-12-25-0.png"⟩⟩,
    ⟨23, "rabbit-2022-12-25-23.png", ⟨"/b/2022-12-25/rabbit-2022-12-25-23.png"⟩⟩]

theorem hourlyFiles_christmas :
    hourlyFiles .image "2022-12-25" ⟨"/b/2022-12-25"⟩ albumView.disk = christmasDrawings := by
  have stands := stands_albumDays.2.2
  have hnames : (christmasFiles.map (·.1)).filterMap
      (HourlyFile.ofName? .image "2022-12-25" ⟨"/b/2022-12-25"⟩) = christmasDrawings := by decide
  have hjoin : Path.join ⟨"/b/2022-12-25"⟩ "rabbit-2022-12-25-0.png" =
        ⟨"/b/2022-12-25/rabbit-2022-12-25-0.png"⟩ ∧
      Path.join ⟨"/b/2022-12-25"⟩ "rabbit-2022-12-25-23.png" =
        ⟨"/b/2022-12-25/rabbit-2022-12-25-23.png"⟩ := by decide
  have plain : Path.PlainName "rabbit-2022-12-25-0.png" := ⟨by decide, by decide⟩
  have plain' : Path.PlainName "rabbit-2022-12-25-23.png" := ⟨by decide, by decide⟩
  have hfirst := stands.isFile_of_short plain (by decide) (by decide) rfl
  have hsecond := stands.isFile_of_short plain' (by decide) (by decide) rfl
  rw [hjoin.1] at hfirst
  rw [hjoin.2] at hsecond
  have areFiles : ∀ file ∈ christmasDrawings, albumView.disk.isFile file.path = true :=
    List.forall_mem_cons.mpr ⟨hfirst, List.forall_mem_singleton.mpr hsecond⟩
  rw [hourlyFiles_of_stands stands hnames areFiles, List.mergeSort_of_pairwise (by decide)]
  rfl

theorem imageCount_album :
    ((Day.new "2022-11-01" ⟨"/a/2022-11-01"⟩ {}).imageCount albumView.disk).toNat = 1 ∧
      ((Day.new "2022-12-24" ⟨"/a/2022-12-24"⟩ {}).imageCount albumView.disk).toNat = 1 ∧
      ((Day.new "2022-12-25" ⟨"/b/2022-12-25"⟩ {}).imageCount albumView.disk).toNat = 2 := by
  obtain ⟨standsNovember, standsDecember, -⟩ := stands_albumDays
  have november : (Day.new "2022-11-01" ⟨"/a/2022-11-01"⟩ {}).files .image albumView.disk =
      [⟨5, "rabbit-2022-11-01-5.png", _⟩] :=
    Day.files_of_single standsNovember ⟨by decide, by decide⟩ (by decide) (by decide) rfl
      (by decide)
  have december : (Day.new "2022-12-24" ⟨"/a/2022-12-24"⟩ {}).files .image albumView.disk =
      [⟨7, "rabbit-2022-12-24-7.png", _⟩] :=
    Day.files_of_single standsDecember ⟨by decide, by decide⟩ (by decide) (by decide) rfl
      (by decide)
  have christmas : (Day.new "2022-12-25" ⟨"/b/2022-12-25"⟩ {}).files .image albumView.disk =
      christmasDrawings := hourlyFiles_christmas
  simp only [Day.imageCount, Day.imageMask, november, december, christmas]
  decide

/-- Three days with four drawings. -/
theorem Reached.counts_exactly_album :
    let diary := earlierDiary.refresh albumView
    ∃ lines, (Report.listing albumView diary.months diary.shelf).result = some lines ∧
      lines.getLast? = some "3 days, 4 images" := by
  intro diary
  have counts := Reached.counts_exactly (reached_earlierDiary.refresh albumView) diary.shelf
    albumView
  have hmonths : diary.months = [⟨"2022-12", [4, 3]⟩, ⟨"2022-11", [1]⟩] :=
    months_refresh_earlierDiary
  have himages : ∀ path, albumView.reader.image albumView.disk path ≠ .aborted := by
    intro path
    simp only [albumView, Reader.files]
    split
    · simp
    · split <;> simp
  have hnotes : ∀ disk path, (albumView.reader.note disk path).isAborted = false := by
    intro disk path
    simp only [albumView, Reader.files]
    split <;> rfl
  obtain ⟨lines, hlines⟩ := counts.answers himages hnotes
  obtain ⟨days, images, hdays, hcount, hlast⟩ :=
    counts.listed (by rw [hmonths]; decide) lines hlines
  have hthree : days = 3 := UInt32.toNat_inj.mp (by rw [hdays, hmonths]; rfl)
  have hfour : images = 4 := by
    obtain ⟨hnovember, hdecember, hchristmas⟩ := day_refresh_earlierDiary
    obtain ⟨november, december, christmas⟩ := imageCount_album
    rw [← UInt32.toNat_inj, hcount, PageFacts.imageTotal, PageFacts.dayCounts, hmonths]
    change ((diary.shelf.day 4).imageCount _).toNat + (((diary.shelf.day 3).imageCount _).toNat +
      (((diary.shelf.day 1).imageCount _).toNat + 0)) = 4
    rw [hnovember, hdecember, hchristmas, november, december, christmas]
  rw [hthree, hfour] at hlast
  exact ⟨lines, hlines, hlast⟩

end Album

end Diary

end DrawingDiary
