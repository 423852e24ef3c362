import DrawingDiary.Proofs.Diary.Index

/-!
# The strips of all days

To see to the strips of all days is a refresh of the diary that beyond that only changes what
days remember (`diary_materializeThumbnails`). Where all days have their strips already,
nothing is written and nothing is read (`materializeThumbnails_of_present`). The days of a diary
that was just opened remember nothing (`exists_date_of_new`).
-/

namespace DrawingDiary

theorem Shelf.replace_day_self (shelf : Shelf) (id : DayId) :
    shelf.replace id (shelf.day id) = shelf := by
  unfold replace day
  refine Array.ext (by simp) fun i hi hi' => ?_
  rw [Array.getElem_setIfInBounds]
  split
  next heq =>
    subst heq
    simp [Array.getD, hi']
  · rfl

namespace Diary

/-- Writing the strips is a refresh of the diary and beyond that only changes days. -/
theorem diary_materializeThumbnails (setting : Setting) (disk : Disk) (diary : Diary) :
    (materializeThumbnails setting (disk, diary)).state.2 =
      { diary.refresh { toSetting := setting, disk := disk } with
        shelf := (materializeThumbnails setting (disk, diary)).state.2.shelf } := by
  let forget : Disk × Diary → Diary := fun s => { s.2 with shelf := #[] }
  suffices h : forget (materializeThumbnails setting (disk, diary)).state =
      forget (disk, diary.refresh { toSetting := setting, disk := disk }) from
    congrArg (fun kept : Diary => { kept with
      shelf := (materializeThumbnails setting (disk, diary)).state.2.shelf }) h
  let view : View := { toSetting := setting, disk := disk }
  change forget ((Run.forEach (diary.refresh view).newestFirst
    (createThumbnailFile setting) >>= _) (disk, diary.refresh view)).state = _
  rw [Run.state_bind_of_keeps _ fun _ _ => rfl]
  exact Run.forEach_keeps forget (fun _ _ => rfl) _ _

variable {setting : Setting} {disk : Disk} {diary : Diary}

theorem createThumbnailFile_of_isFile {id : DayId}
    (h : disk.isFile (diary.shelf.day id).thumbnailPath = true) :
    createThumbnailFile setting id (disk, diary) = ⟨(disk, diary), [], some false⟩ := by
  simp only [createThumbnailFile, Run.onPart, Day.createThumbnailFile_eq, if_pos h,
    Shelf.replace_day_self]

theorem forEach_createThumbnailFile {ids : List DayId}
    (present : ∀ id ∈ ids, disk.isFile (diary.shelf.day id).thumbnailPath = true) :
    Run.forEach ids (createThumbnailFile setting) (disk, diary) =
      ⟨(disk, diary), [], some (List.replicate ids.length false)⟩ := by
  induction ids with
  | nil => rfl
  | cons id rest ih =>
      obtain ⟨hid, hrest⟩ := List.forall_mem_cons.mp present
      simp only [Run.forEach_cons, Run.bind_apply, createThumbnailFile_of_isFile hid, ih hrest]
      rfl

theorem materializeThumbnails_of_present {refreshed : Diary}
    (hrefresh : diary.refresh ⟨setting, disk⟩ = refreshed)
    (present : ∀ id ∈ refreshed.newestFirst,
      disk.isFile (refreshed.shelf.day id).thumbnailPath = true) :
    materializeThumbnails setting (disk, diary) =
      ⟨(disk, refreshed), [], some (refreshed.newestFirst.length, 0)⟩ := by
  subst hrefresh
  change (Run.forEach (diary.refresh ⟨setting, disk⟩).newestFirst
    (createThumbnailFile setting) >>= fun written =>
      pure ((diary.refresh ⟨setting, disk⟩).newestFirst.length, written.count true))
    (disk, diary.refresh ⟨setting, disk⟩) = _
  simp [Run.bind_apply, forEach_createThumbnailFile present, List.count_replicate,
    -bind_pure_comp]

theorem day_refresh_new {roots : List Path} {settings : DaySettings} {cooldown : Nat}
    {view : View} {date : String} {id : DayId}
    (h : (date, id) ∈ ((Diary.new roots settings cooldown).refresh view).days) :
    ∃ root, roots.find? (holdsDayOn view.disk date) = some root ∧
      ((Diary.new roots settings cooldown).refresh view).shelf.day id =
        Day.new date (root.join date) settings := by
  have isOpen : (Diary.new roots settings cooldown).gate.isOpen view.now = true := rfl
  rw [days_refresh isOpen] at h
  rw [shelf_refresh isOpen]
  obtain ⟨path, hclaim, hkept | ⟨-, -, -, hnew⟩⟩ := mem_settleClaims h
  · cases hkept
  · obtain ⟨root, hroot, rfl⟩ := mem_claimsOn_iff.mp hclaim
    exact ⟨root, hroot, hnew⟩

section New

variable {root : Path} {settings : DaySettings} {cooldown : Nat} {refreshed : Diary}
  (hrefresh : (Diary.new [root] settings cooldown).refresh ⟨setting, disk⟩ = refreshed)

include hrefresh

/-- The days of the months of a diary with one root that was just opened. -/
theorem exists_date_of_new {id : DayId} (hid : id ∈ refreshed.months.flatMap (·.days)) :
    ∃ date, holdsDayOn disk date root = true ∧
      refreshed.shelf.day id = Day.new date (root.join date) settings := by
  have reached : Reached [root] settings cooldown refreshed := by
    rw [← hrefresh]
    exact .refresh _ .new
  rw [reached.monthsMatchDays.same_days.mem_iff] at hid
  obtain ⟨⟨date, id⟩, hentry, rfl⟩ := List.mem_map.mp hid
  rw [← hrefresh] at hentry ⊢
  obtain ⟨first, hfirst, hnew⟩ := day_refresh_new hentry
  obtain rfl := List.mem_singleton.mp (List.mem_of_find?_eq_some hfirst)
  exact ⟨date, List.find?_some hfirst, hnew⟩

end New

section Days

variable {diary : Diary}

theorem mem_newestFirst_iff {id : DayId} :
    id ∈ diary.newestFirst ↔ ∃ date, (date, id) ∈ diary.days := by
  simp [newestFirst, (List.mergeSort_perm _ _).mem_iff]

theorem WellFormed.eq_of_date_eq (wellFormed : diary.WellFormed) {id other : DayId}
    (hid : id ∈ diary.newestFirst) (hother : other ∈ diary.newestFirst)
    (same : (diary.shelf.day id).date = (diary.shelf.day other).date) : id = other := by
  obtain ⟨date, hentry⟩ := mem_newestFirst_iff.mp hid
  obtain ⟨date', hentry'⟩ := mem_newestFirst_iff.mp hother
  rw [(wellFormed.stands hentry).2, (wellFormed.stands hentry').2] at same
  subst same
  exact congrArg Prod.snd (List.inj_on_of_nodup_map wellFormed.nodup hentry hentry' rfl)

theorem WellFormed.nodup_newestFirst (wellFormed : diary.WellFormed) :
    diary.newestFirst.Nodup := by
  have hdays : (diary.days.map (·.2)).Nodup := by
    refine List.Nodup.map_on ?_ (List.Nodup.of_map _ wellFormed.nodup)
    rintro ⟨date, id⟩ hentry ⟨date', other⟩ hentry' (rfl : id = other)
    rw [← (wellFormed.stands hentry).2, (wellFormed.stands hentry').2]
  exact ((List.mergeSort_perm _ _).map _).nodup_iff.mpr hdays

theorem refresh_new_of_claims {view : View} {roots : List Path} {settings : DaySettings}
    {cooldown : Nat} {date : String} {directory : Path}
    (hclaims : claimsOn view.disk roots = [(date, directory)]) :
    ((Diary.new roots settings cooldown).refresh view).newestFirst = [0] ∧
      ((Diary.new roots settings cooldown).refresh view).shelf.day 0 =
        Day.new date directory settings := by
  have hrefresh : ((Diary.new roots settings cooldown).refresh view).days = [(date, 0)] ∧
      ((Diary.new roots settings cooldown).refresh view).shelf =
        #[Day.new date directory settings] := by
    rw [days_refresh rfl, shelf_refresh rfl]
    change (settleClaims _ _ (claimsOn view.disk roots)).2 = _ ∧
      (settleClaims _ _ (claimsOn view.disk roots)).1 = _
    rw [hclaims]
    exact ⟨rfl, rfl⟩
  rw [newestFirst, hrefresh.1, hrefresh.2]
  exact ⟨by simp, rfl⟩

end Days

end Diary

end DrawingDiary
