import DrawingDiary.Proofs.Day.Agreement

/-!
# A refresh is as good as a new start

A refresh skips the files whose moment of change it remembers. It may do so as long as
such a file still holds the picture that it held when it was read (`HonestMoments`).
Then the refresh leaves exactly the drawings that a new day over the same directory has
after its first refresh, whatever was done with the day before
(`refreshImages_eq_refreshImages_new`). The argument goes hour by hour: the two looks at
an hour may differ, but what they leave there does not.
-/

namespace DrawingDiary

theorem HourAgrees.cleared_eq {width height : UInt32} {shown : ShownHour}
    {source : Option Picture} (agrees : HourAgrees width height shown source) :
    shown.cleared width height = (none, Strip.blankTile width height) := by
  cases agrees <;> rfl

theorem loadAt?_of_mem {looks : List ImageLook}
    (distinct : looks.Pairwise fun a b => a.hour ≠ b.hour) {look : ImageLook}
    (h : look ∈ looks) : loadAt? looks look.hour = some look.load := by
  induction looks with
  | nil => cases h
  | cons first rest ih =>
      obtain ⟨hne, hrest⟩ := List.pairwise_cons.mp distinct
      rw [loadAt?_cons]
      rcases List.mem_cons.mp h with rfl | hmem
      · rw [if_pos rfl]
      · rw [if_neg (hne look hmem), ih hrest hmem]

namespace Day

variable {view : View} {day : Day}

/-- A file whose moment of change is the one remembered for its hour holds the picture
that filled the hour. -/
def HonestMoments (view : View) (day : Day) (past : ImagePast) : Prop :=
  ∀ hour file picture, day.file? .image view.disk hour = some file →
    day.knownModified hour = view.disk.modified? file.path →
    past.source hour = some picture → view.reader.image view.disk file.path = .success picture

theorem completesImages_iff :
    day.completesImages view = true ↔ day.images.gate.isOpen view.now = true ∧
      ∀ hour, loadAt? (day.imageLooks view) hour ≠ some .aborted := by
  have distinct := pairwise_hour_imageLooks view day
  simp only [completesImages, Bool.and_eq_true, Bool.not_eq_true', List.any_eq_false]
  constructor
  · intro h
    rcases h with ⟨hopen, hlooks⟩
    refine ⟨hopen, fun hour habort => ?_⟩
    obtain ⟨look, hfind, hload⟩ := Option.map_eq_some_iff.mp habort
    exact hlooks look (List.mem_of_find?_eq_some hfind) (by rw [hload]; rfl)
  · intro h
    rcases h with ⟨hopen, hlooks⟩
    refine ⟨hopen, fun look hlook habort => ?_⟩
    apply hlooks look.hour
    rw [loadAt?_of_mem distinct hlook]
    cases hload : look.load with
    | aborted => rfl
    | _ => rw [hload] at habort; cases habort

/-- Once a refresh was completed, what is shown at the hours decides the mask and the
thumbnail. -/
theorem ImagesAgree.images_eq {other : Day} {past otherPast : ImagePast}
    (agree : ImagesAgree day past) (agreeOther : ImagesAgree other otherPast)
    (settings : other.settings = day.settings) (completed : past.completed = true)
    (completedOther : otherPast.completed = true)
    (shown : ∀ hour, day.images.shown hour = other.images.shown hour)
    (gate : day.images.gate = other.images.gate) : day.images = other.images := by
  have slots : day.images.slots = other.images.slots :=
    Slots.ext fun hour => congrArg Prod.fst (shown hour)
  have strip : day.images.strip = other.images.strip :=
    Strip.ext_segment agree.sized (settings ▸ agreeOther.sized) fun hour =>
      congrArg Prod.snd (shown hour)
  have mask : day.images.mask = other.images.mask := by
    apply HourMask.ext_has
    intro hour
    rw [agree.mask, agreeOther.mask, slots]
  have thumbnail : day.images.thumbnail = other.images.thumbnail := by
    have hencoded := agree.encoded completed
    rw [strip, agreeOther.encoded completedOther] at hencoded
    exact (Option.some.inj hencoded).symm
  generalize day.images = images at *
  generalize other.images = otherImages at *
  cases images
  cases otherImages
  simp_all

/-- A remembered moment belongs to a stored drawing, and so to the picture behind it. -/
theorem ImagesAgree.exists_source {past : ImagePast} (agree : ImagesAgree day past)
    {hour : Hour} {moment : Timestamp} (known : day.knownModified hour = some moment) :
    ∃ picture data, past.source hour = some picture ∧ Png.encode picture = some data ∧
      day.images.shown hour = (some ⟨data, moment⟩,
        composeTile picture day.settings.tileWidth day.settings.tileHeight) := by
  obtain ⟨image, hslot, rfl⟩ := Option.map_eq_some_iff.mp known
  have agrees := agree.hours hour
  have hfst : (day.images.shown hour).1 = some image := hslot
  generalize day.images.shown hour = shown at agrees hfst
  generalize past.source hour = source at agrees
  cases agrees with
  | empty => cases hfst
  | filled hencode =>
      cases hfst
      exact ⟨_, _, rfl, hencode, rfl⟩

theorem shown_new (date : String) (directory : Path) {settings : DaySettings}
    (sides : AllowedSides settings.tileWidth settings.tileHeight) (hour : Hour) :
    (new date directory settings).images.shown hour =
      (none, Strip.blankTile settings.tileWidth settings.tileHeight) :=
  Prod.ext (Slots.at?_empty hour) (Strip.segment_blank sides hour)

/-- With honest moments, the look of a new day at an hour is only aborted where the look
of the day itself is, and else leaves the same at the hour. -/
theorem afterLook_new {past : ImagePast} (agree : ImagesAgree day past)
    (honest : HonestMoments view day past) {hour : Hour}
    (hgoes : loadAt? (day.imageLooks view) hour ≠ some .aborted) :
    loadAt? ((new day.date day.directory day.settings).imageLooks view) hour ≠
        some .aborted ∧
      ImageState.afterLook day.settings.tileWidth day.settings.tileHeight
          (loadAt? (day.imageLooks view) hour) (day.images.shown hour) =
        ImageState.afterLook day.settings.tileWidth day.settings.tileHeight
          (loadAt? ((new day.date day.directory day.settings).imageLooks view) hour)
          (none, Strip.blankTile day.settings.tileWidth day.settings.tileHeight) := by
  have hcleared := (agree.hours hour).cleared_eq
  have hunknown : (new day.date day.directory day.settings).knownModified hour = none := by
    simp [knownModified, new]
  have hfile : (new day.date day.directory day.settings).file? .image view.disk hour =
      day.file? .image view.disk hour := rfl
  rw [loadAt?_imageLooks] at hgoes
  rw [loadAt?_imageLooks, loadAt?_imageLooks, hunknown, hfile]
  cases hlisted : day.file? .image view.disk hour with
  | none => exact ⟨by simp, hcleared⟩
  | some file =>
      rw [hlisted, Option.map_some, load_ofFile] at hgoes
      rw [Option.map_some, Option.map_some, load_ofFile, load_ofFile]
      cases hmoment : view.disk.modified? file.path with
      | none => exact ⟨by simp, hcleared⟩
      | some moment =>
          rw [hmoment] at hgoes
          by_cases hknown : day.knownModified hour = some moment
          · obtain ⟨picture, data, hsource, hencode, hshown⟩ := agree.exists_source hknown
            have hread := honest hour file picture hlisted (hknown.trans hmoment.symm) hsource
            simp [hknown, hread, ImageLoad.ofRead, ImageLoad.ofPicture, hencode,
              ImageState.afterLook, hshown, new]
          · simp only [if_neg hknown] at hgoes ⊢
            refine ⟨hgoes, ?_⟩
            exact ImageState.afterLook_congr (ImageLoad.ofRead_ne_unchanged _ _ _) hcleared

/-- A refresh of the drawings only stops short of its end when a read is aborted. -/
theorem result_refreshImages_of_reads
    (goes : ∀ path, view.reader.image view.disk path ≠ .aborted) :
    (refreshImages view day).result = some () := by
  have hlooks : (day.imageLooks view).any (·.load.isAborted) = false := by
    rw [List.any_eq_false]
    intro look hlook
    obtain ⟨file, -, rfl⟩ := List.mem_map.mp hlook
    rw [load_ofFile]
    cases view.disk.modified? file.path with
    | none => simp [ImageLoad.isAborted]
    | some moment =>
        have hread := goes file.path
        by_cases hknown : day.knownModified file.hour = some moment
        · simp [hknown, ImageLoad.isAborted]
        · simp only [if_neg hknown]
          cases hpicture : view.reader.image view.disk file.path with
          | success picture =>
              cases h : Png.encode picture <;>
                simp [ImageLoad.ofRead, ImageLoad.ofPicture, h, ImageLoad.isAborted]
          | failure cause => simp [ImageLoad.ofRead, ImageLoad.isAborted]
          | aborted => exact absurd hpicture hread
  by_cases hopen : day.images.gate.isOpen view.now <;> simp [refreshImages_eq, hopen, hlooks]

theorem sourceAfter_eq_some {before : Option Picture} {hour : Hour} {picture : Picture}
    (h : day.sourceAfter view before hour = some picture) :
    before = some picture ∨ ∃ path, view.reader.image view.disk path = .success picture := by
  unfold sourceAfter at h
  split at h
  · cases h
  next file _ =>
      split at h
      · cases h
      · split at h
        · exact .inl h
        · refine .inr ⟨file.path, ?_⟩
          unfold View.picture? at h
          split at h
          · split at h
            · cases h
              assumption
            · cases h
          · cases h

/-- Over honest moments a completed refresh leaves the drawings that a new day has after
its first refresh. -/
theorem refreshImages_eq_refreshImages_new {date : String} {directory : Path}
    {settings : DaySettings} (sides : AllowedSides settings.tileWidth settings.tileHeight)
    (noCooldown : settings.imageCooldown = 0) {past : ImagePast}
    (reached : Reached date directory settings day past)
    (honest : HonestMoments view day past)
    (completed : (refreshImages view day).result = some ()) :
    (refreshImages view (new date directory settings)).result = some () ∧
      (refreshImages view day).state.images =
        (refreshImages view (new date directory settings)).state.images := by
  have agree := reached.imagesAgree sides
  have hperiod := reached.imagePeriod
  obtain ⟨rfl, rfl, rfl⟩ := reached.named
  have hopen : day.images.gate.isOpen view.now = true :=
    Cooldown.isOpen_of_period_zero (hperiod.trans noCooldown) view.now
  have hdone : day.completesImages view = true := by
    rcases refreshImages_cases view day with ⟨hclosed, -⟩ | ⟨-, haborted, -⟩ | ⟨hdone, -⟩
    · rw [hopen] at hclosed
      cases hclosed
    · rw [haborted] at completed
      cases completed
    · exact hdone
  let fresh := new day.date day.directory day.settings
  have hours := fun hour => afterLook_new agree honest ((completesImages_iff.mp hdone).2 hour)
  have hfresh : fresh.completesImages view = true :=
    completesImages_iff.mpr ⟨rfl, fun hour => (hours hour).1⟩
  obtain ⟨-, hstate⟩ := state_refreshImages_of_completes hdone
  obtain ⟨hresult, hstateFresh⟩ := state_refreshImages_of_completes hfresh
  refine ⟨hresult, ?_⟩
  rw [hstate, hstateFresh]
  have agreeFresh : ImagesAgree fresh {} := imagesAgree_new day.date day.directory sides
  have shown : ∀ hour, (day.settledImages view).shown hour =
      (fresh.settledImages view).shown hour := by
    intro hour
    rw [shown_settledImages agree sides, shown_settledImages agreeFresh sides,
      shown_new day.date day.directory sides]
    exact (hours hour).2
  have gate : (day.settledImages view).gate = (fresh.settledImages view).gate := by
    simp [settledImages, stampedImages, Cooldown.stamp, hperiod, fresh, new,
      Cooldown.ofSeconds]
  exact (agree.settled sides view).images_eq (agreeFresh.settled sides view) rfl rfl rfl
    shown gate

theorem refreshImages_eq_refreshImages_new_twoHours :
    let settings : DaySettings := { imageCooldown := 0, tileWidth := 1, tileHeight := 1 }
    let fresh := new "2022-11-01" ⟨"/d"⟩ settings
    let day := Call.refreshImages.after (twoHoursView false) fresh
    (∃ past, Reached "2022-11-01" ⟨"/d"⟩ settings day past ∧
      HonestMoments (twoHoursView true) day past) ∧
    (refreshImages (twoHoursView true) day).result = some () ∧
    (refreshImages (twoHoursView true) day).state.images =
      (refreshImages (twoHoursView true) fresh).state.images := by
  intro settings fresh day
  have reached : Reached "2022-11-01" ⟨"/d"⟩ settings day _ :=
    .call (twoHoursView false) .refreshImages .new
  have honest : HonestMoments (twoHoursView true) day
      (ImagePast.afterKinds (twoHoursView false) [.image] fresh {}) := by
    intro hour file picture _ _ hsource
    have hafter : fresh.sourceAfter (twoHoursView false) none hour = some picture := by
      have hresult : (refreshKind (twoHoursView false) .image fresh).result = some () :=
        result_refreshImages_of_reads fun _ h => by cases h
      simp only [ImagePast.afterKinds, hresult, ImagePast.afterKind] at hsource
      split at hsource
      · exact hsource
      · cases hsource
    rcases sourceAfter_eq_some hafter with hbefore | ⟨path, hread⟩
    · cases hbefore
    · exact hread
  have completed : (refreshImages (twoHoursView true) day).result = some () :=
    result_refreshImages_of_reads fun _ h => by cases h
  exact ⟨⟨_, reached, honest⟩, completed,
    (refreshImages_eq_refreshImages_new ⟨by decide, by decide, by decide, by decide⟩ rfl
      reached honest completed).2⟩

end Day

end DrawingDiary
