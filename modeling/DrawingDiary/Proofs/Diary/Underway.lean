import DrawingDiary.Proofs.Diary.Schedules

/-!
# What the days have done

After some steps of the days it is known of each day how far it has come, which strips were made
and what else has changed. This is the invariant `Underway`: one step keeps it (`Underway.step`),
so a whole schedule does. It needs that no two days without a strip have the same directory. When
all days are done, the strips that were made are those of the days without
(`Underway.perm_of_finished`), and the answer counts them (`Underway.outcome_eq`). Where all days
have their strips, no schedule does anything (`materializes_of_present`).
-/

namespace DrawingDiary.Diary

open Naming (thumbnailFile)
open Disk (Stands Speakable)

variable {looks : Disk → View → Prop} {ids : List DayId} {id other : DayId} {work next : Work}
  {n : Nat} {stage : Stage}

section Present

theorem Step.days_eq (step : Step looks id work next) : next.diary.days = work.diary.days := by
  cases step <;> rfl

theorem Steps.newestFirst_eq (steps : Steps looks ids n work next) :
    next.diary.newestFirst = work.diary.newestFirst := by
  induction steps with
  | none => rfl
  | step _ _ step ih =>
      rw [← ih, newestFirst, newestFirst, step.days_eq]

theorem Step.eq_of_present (step : Step looks id work next)
    (present : work.disk.isFile (work.day id).thumbnailPath = true)
    (idle : work.stage id = .waiting ∨ work.stage id = .done false) :
    next = work.enter id (.done false) := by
  cases step with
  | found => rfl
  | missing _ absent => exact absurd present (Bool.eq_false_iff.mp absent)
  | note h | draw h | save h => simp [h] at idle

theorem Steps.of_present {disk : Disk} {diary : Diary}
    (present : ∀ id ∈ ids, disk.isFile (diary.shelf.day id).thumbnailPath = true)
    (steps : Steps looks ids n (.start disk diary) work) :
    work.disk = disk ∧ work.diary = diary ∧ work.reads = [] ∧
      ∀ id, work.stage id = .waiting ∨ work.stage id = .done false := by
  generalize hstart : Work.start disk diary = first at steps
  induction steps with
  | none =>
      subst hstart
      exact ⟨rfl, rfl, rfl, fun _ => .inl rfl⟩
  | @step _ _ work _ id _ hid step ih =>
      obtain ⟨hdisk, hdiary, hreads, idle⟩ := ih hstart
      obtain rfl := step.eq_of_present (by rw [hdisk, Work.day, hdiary]; exact present id hid)
        (idle id)
      refine ⟨hdisk, hdiary, hreads, fun other => ?_⟩
      by_cases h : other = id
      · exact .inr (h ▸ Work.stage_enter_self)
      · rw [Work.stage_enter_of_ne h]
        exact idle other

theorem materializes_of_present {view : View} {diary refreshed : Diary}
    {outcome : Outcome (Disk × Diary) (Nat × Nat)} (hrefresh : diary.refresh view = refreshed)
    (present : ∀ id ∈ refreshed.newestFirst,
      view.disk.isFile (refreshed.shelf.day id).thumbnailPath = true)
    (h : Materializes looks view diary outcome) :
    outcome = ⟨(view.disk, refreshed), [], some (refreshed.newestFirst.length, 0)⟩ := by
  subst hrefresh
  obtain ⟨n, work, steps, -, rfl⟩ := h
  obtain ⟨hdisk, hdiary, hreads, idle⟩ := Steps.of_present present steps
  have hcount : (diary.refresh view).newestFirst.countP
      (fun id => work.stage id = .done true) = 0 := by
    refine List.countP_eq_zero.mpr fun id _ => ?_
    rcases idle id with h | h <;> simp [h]
  rw [Work.outcome, hdisk, hdiary, hreads, hcount]

end Present

section Underway

def Stage.HasLooked : Stage → Prop
  | .noted | .drawn | .done true => True
  | .waiting | .missing | .done false => False

/-- No two of the days that are without a strip have the same directory. -/
def StripsApart (disk : Disk) (diary : Diary) (ids : List DayId) : Prop :=
  ∀ id ∈ ids, disk.isFile (diary.shelf.day id).thumbnailPath = false → ∀ other ∈ ids, ∀ place,
    disk.locate (diary.shelf.day id).directory = .ok place →
      disk.locate (diary.shelf.day other).directory = .ok place → id = other

variable {settings : DaySettings} {start : Disk × Diary} {made more : List (DayId × Location)}

/-- What is known of a day from how far it has come. -/
def Stage.Knows (start : Disk × Diary) (id : DayId) (day : Day) : Stage → Prop
  | .waiting | .done true => True
  | .missing | .noted => start.1.isFile (start.2.shelf.day id).thumbnailPath = false
  | .drawn => start.1.isFile (start.2.shelf.day id).thumbnailPath = false ∧
      day.images.gate.lastOpened ≠ none
  | .done false => start.1.isFile (start.2.shelf.day id).thumbnailPath = true

/-- What has been done since the start, and what is known of each day. -/
structure Underway (settings : DaySettings) (start : Disk × Diary) (ids : List DayId)
    (made : List (DayId × Location)) (work : Work) : Prop where
  stripsMade : StripsMade start (work.disk, work.diary) made
    (fun id => (work.stage id).HasLooked) work.reads
  made_iff : ∀ id, id ∈ made.map (·.1) ↔ work.stage id = .done true
  idle : ∀ id ∉ ids, work.stage id = .waiting
  day : ∀ id ∈ ids, Day.Undisturbed settings (work.day id) ∧
    (work.stage id).Knows start id (work.day id)

theorem underway_start (undisturbed : ∀ id ∈ ids, Day.Undisturbed settings (start.2.shelf.day id)) :
    Underway settings start ids [] (.start start.1 start.2) where
  stripsMade := (stripsMade_nil start).mono fun _ h => h.elim
  made_iff _ := by simp [Work.start]
  idle _ _ := rfl
  day id hid := ⟨undisturbed id hid, trivial⟩

theorem Underway.change (underway : Underway settings start ids made work) (hid : id ∈ ids)
    (hothers : ∀ other, other ≠ id →
      next.stage other = work.stage other ∧ next.day other = work.day other)
    (stripsMade : StripsMade start (next.disk, next.diary) (made ++ more)
      (fun id => (next.stage id).HasLooked) next.reads)
    (unmade : work.stage id ≠ .done true)
    (hmore : ∀ other, other ∈ more.map (·.1) ↔ other = id ∧ next.stage id = .done true)
    (hday : Day.Undisturbed settings (next.day id) ∧
      (next.stage id).Knows start id (next.day id)) :
    Underway settings start ids (made ++ more) next where
  stripsMade := stripsMade
  made_iff other := by
    rw [List.map_append, List.mem_append, underway.made_iff, hmore]
    by_cases h : other = id
    · subst h
      simp [unmade]
    · simp [h, hothers other h]
  idle other hother := by
    have h : other ≠ id := fun heq => hother (heq ▸ hid)
    rw [(hothers other h).1, underway.idle other hother]
  day other hother := by
    by_cases h : other = id
    · exact h ▸ hday
    · rw [(hothers other h).1, (hothers other h).2]
      exact underway.day other hother

variable (sides : AllowedSides settings.tileWidth settings.tileHeight)
  (never : ∀ disk view, looks disk view → view.NeverAborts)
  (onShelf : ∀ id ∈ ids, id < start.2.shelf.size)
  (takes : ∀ id ∈ ids, TakesStrip start.1 (start.2.shelf.day id).directory)
  (apart : StripsApart start.1 start.2 ids)

include takes apart in
theorem Underway.exists_free (underway : Underway settings start ids made work) (hid : id ∈ ids)
    (missing : start.1.isFile (start.2.shelf.day id).thumbnailPath = false)
    (unmade : work.stage id ≠ .done true) :
    ∃ place children, Stands work.disk (work.day id).directory place children ∧
      Tree.lookup thumbnailFile children = none := by
  have made := underway.stripsMade
  rcases (takes id hid).cases with hfile | ⟨place, children, stands, free⟩
  · exact absurd hfile (Bool.eq_false_iff.mp missing)
  obtain ⟨children', hget⟩ := made.adds.toKeptOn.directory trivial stands.directory
  have stands' : Stands work.disk (start.2.shelf.day id).directory place children' :=
    stands.of_grown made.adds.toKeptOn hget
  refine ⟨place, children', ?_, ?_⟩
  · rw [Work.day, made.directory_eq]
    exact stands'
  cases hchild : Tree.lookup thumbnailFile children' with
  | none => rfl
  | some t =>
      have hat : work.disk.at? (place ++ [thumbnailFile]) = some t := by
        rw [Disk.at?, Tree.get?_snoc stands'.directory, hchild]
      have hfree : start.1.at? (place ++ [thumbnailFile]) = none := by
        rw [Disk.at?, Tree.get?_snoc stands.directory, free]
      -- the strip of another day cannot be there, since this day would have the same directory
      obtain ⟨entry, hentry, hplace⟩ := List.mem_map.mp (made.adds.isFresh trivial hat hfree).2
      obtain ⟨parent, _, standsEntry, hparent⟩ := made.placed entry hentry
      obtain ⟨rfl, -⟩ := List.append_inj' (hparent.symm.trans hplace) rfl
      have hdone := (underway.made_iff entry.1).mp (List.mem_map_of_mem hentry)
      have hentryId : entry.1 ∈ ids := by
        by_contra h
        rw [underway.idle _ h] at hdone
        cases hdone
      have hsame := apart id hid missing entry.1 hentryId parent
        (Disk.locate_eq_ok_iff.mpr stands.resolve_eq)
        (Disk.locate_eq_ok_iff.mpr standsEntry.resolve_eq)
      rw [← hsame] at hdone
      exact absurd hdone unmade

theorem Underway.speakable (underway : Underway settings start ids made work) (hid : id ∈ ids)
    (takes : ∀ id ∈ ids, TakesStrip start.1 (start.2.shelf.day id).directory) :
    Speakable (work.day id).thumbnailPath := by
  rw [Work.day, underway.stripsMade.thumbnailPath_eq]
  exact (takes id hid).speakable

theorem Underway.enter (underway : Underway settings start ids made work) (hid : id ∈ ids)
    (waiting : work.stage id = .waiting) (idle : stage ≠ .done true)
    (knows : stage.Knows start id (work.day id)) :
    Underway settings start ids (made ++ []) (work.enter id stage) := by
  refine underway.change hid (fun other h => ⟨Work.stage_enter_of_ne h, rfl⟩) ?_
    (by simp [waiting]) (by simp [idle]) ⟨(underway.day id hid).1, ?_⟩
  · rw [List.append_nil]
    refine underway.stripsMade.mono fun other hlooked => ?_
    by_cases h : other = id
    · rw [h, waiting] at hlooked
      exact hlooked.elim
    · rwa [Work.stage_enter_of_ne h]
  · rw [Work.stage_enter_self]
    exact knows

include onShelf in
theorem Underway.refresh (underway : Underway settings start ids made work) (hid : id ∈ ids)
    (unmade : work.stage id ≠ .done true) {view : View} (never : view.NeverAborts)
    (kind : Naming.HourlyKind) (looked : stage.HasLooked) (unsaved : stage ≠ .done true)
    (knows : stage.Knows start id (Day.refreshKind view kind (work.day id)).state) :
    Underway settings start ids (made ++ [])
      (work.refresh id (Day.refreshKind view kind) stage) := by
  have hsize : id < work.diary.shelf.size := underway.stripsMade.size_eq.symm ▸ onShelf id hid
  have hday := work.day_refresh hsize (Day.refreshKind view kind) stage
  have named : (work.day id).Named (work.day id).date (work.day id).directory
      (work.day id).settings := ⟨rfl, rfl, rfl⟩
  have look : StripsMade (work.disk, work.diary)
      (work.disk, (work.refresh id (Day.refreshKind view kind) stage).diary) [] (· = id)
      (Day.refreshKind view kind (work.day id)).reads :=
    stripsMade_look hsize (named.refreshKind view kind) fun path => Day.hasPath_of_mem_reads
  have made := underway.stripsMade.trans look fun other hother h =>
    unmade (h ▸ (underway.made_iff other).mp hother)
  refine underway.change hid (fun other h => ⟨Work.stage_enter_of_ne h, ?_⟩)
    (made.mono fun other hlooked => ?_) unmade (fun other => ?_) ⟨?_, ?_⟩
  · simp only [Work.day, Work.refresh, Shelf.day_replace]
    exact if_neg fun hsame => h hsame.1.symm
  · by_cases h : other = id
    · rw [h, Work.refresh, Work.stage_enter_self]
      exact looked
    · rw [Work.refresh, Work.stage_enter_of_ne h]
      exact hlooked.resolve_right h
  · rw [Work.refresh, Work.stage_enter_self]
    simp [unsaved]
  · rw [hday]
    exact (underway.day id hid).1.refreshKind never kind
  · rw [hday, Work.refresh, Work.stage_enter_self]
    exact knows

include sides takes apart in
theorem Underway.save (underway : Underway settings start ids made work) (hid : id ∈ ids)
    (drawn : work.stage id = .drawn) :
    ∃ place, Underway settings start ids (made ++ [(id, place)]) (work.save id) := by
  obtain ⟨undisturbed, knows⟩ := underway.day id hid
  rw [drawn] at knows
  obtain ⟨missing, opened⟩ := knows
  have unmade : work.stage id ≠ .done true := by simp [drawn]
  obtain ⟨place, children, stands, free⟩ := underway.exists_free takes apart hid missing unmade
  have speakable := underway.speakable hid takes
  have hencode := undisturbed.encode_eq sides opened
  have hwrite := stands.writeFile_join_of_free Naming.plainName_thumbnailFile speakable free
    (by decide) (work.day id).images.thumbnail
  have hsave : work.save id = { work.enter id (.done true) with
      disk := work.disk.putFile (place ++ [thumbnailFile]) (work.day id).images.thumbnail } := by
    simp only [Work.save, Day.saveStrip, hencode, Option.getD_some, Day.thumbnailPath, hwrite,
      Option.isSome_some]
  have put := underway.stripsMade.trans (stripsMade_put stands speakable free hencode)
    fun _ _ => not_false
  rw [List.append_nil] at put
  refine ⟨place ++ [thumbnailFile], ?_⟩
  rw [hsave]
  have hstage : (work.enter id (.done true)).stage id = .done true := Work.stage_enter_self
  refine underway.change hid (fun other h => ⟨Work.stage_enter_of_ne h, rfl⟩)
    (put.mono fun other hlooked => ?_) unmade (fun other => ?_) ⟨undisturbed, ?_⟩
  · by_cases h : other = id
    · rw [h, hstage]
      trivial
    · rw [Work.stage_enter_of_ne h]
      exact hlooked.resolve_right not_false
  · simp
  · rw [hstage]
    trivial

include sides never onShelf takes apart in
/-- Whatever step a day takes, it is known what has been done. -/
theorem Underway.step (underway : Underway settings start ids made work) (hid : id ∈ ids)
    (step : Step looks id work next) :
    ∃ more, Underway settings start ids (made ++ more) next := by
  have grown : Disk.Grown start.1 work.disk := underway.stripsMade.adds.toKeptOn
  have hpath : (work.day id).thumbnailPath = (start.2.shelf.day id).thumbnailPath :=
    underway.stripsMade.thumbnailPath_eq id
  cases step with
  | found waiting present =>
      refine ⟨[], underway.enter hid waiting (by simp) ?_⟩
      by_contra missing
      obtain ⟨place, children, stands, free⟩ := underway.exists_free takes apart hid
        (Bool.eq_false_iff.mpr missing) (by simp [waiting])
      have absent := stands.isFile_join_of_free Naming.plainName_thumbnailFile
        (underway.speakable hid takes) free (by decide)
      exact absurd present (Bool.eq_false_iff.mp absent)
  | missing waiting absent =>
      refine ⟨[], underway.enter hid waiting (by simp) (Bool.eq_false_iff.mpr fun hfile => ?_)⟩
      rw [hpath, grown.isFile hfile] at absent
      cases absent
  | note missing seen _ =>
      have knows := (underway.day id hid).2
      rw [missing] at knows
      exact ⟨[], underway.refresh onShelf hid (by simp [missing]) (never _ _ seen) .event trivial
        (by simp) knows⟩
  | @draw view noted seen _ =>
      have knows := (underway.day id hid).2
      rw [noted] at knows
      exact ⟨[], underway.refresh onShelf hid (by simp [noted]) (never _ _ seen) .image trivial
        (by simp) ⟨knows, Day.lastOpened_refreshImages view (work.day id)⟩⟩
  | save drawn =>
      obtain ⟨place, underway'⟩ := underway.save sides takes apart hid drawn
      exact ⟨_, underway'⟩

include sides never onShelf takes apart in
theorem Underway.steps {first : Work} (underway : Underway settings start ids made first)
    (steps : Steps looks ids n first work) :
    ∃ more, Underway settings start ids (made ++ more) work := by
  induction steps with
  | none => exact ⟨[], by rwa [List.append_nil]⟩
  | step _ hid step ih =>
      obtain ⟨more, underway'⟩ := ih underway
      obtain ⟨further, underway''⟩ := underway'.step sides never onShelf takes apart hid step
      exact ⟨more ++ further, by rwa [← List.append_assoc]⟩

/-- When all days are done, those whose strip was made are those that had none. -/
theorem Underway.perm_of_finished (underway : Underway settings start ids made work)
    (finished : work.Finished ids) (distinct : ids.Nodup) :
    (made.map (·.1)).Perm
      (ids.filter fun id => !start.1.isFile (start.2.shelf.day id).thumbnailPath) := by
  refine (List.perm_ext_iff_of_nodup underway.stripsMade.nodup_days (distinct.filter _)).mpr
    fun id => ?_
  rw [List.mem_filter, Bool.not_eq_true']
  constructor
  · intro hmade
    refine ⟨?_, underway.stripsMade.isFile_eq_false hmade⟩
    by_contra h
    rw [underway.made_iff, underway.idle id h] at hmade
    cases hmade
  · rintro ⟨hid, missing⟩
    obtain ⟨written, hdone⟩ := finished id hid
    have knows := (underway.day id hid).2
    rw [hdone] at knows
    cases written with
    | true => exact (underway.made_iff id).mpr hdone
    | false => exact absurd knows (Bool.eq_false_iff.mp missing)

/-- The days that are done are counted by the strips that were made. -/
theorem Underway.outcome_eq (underway : Underway settings start ids made work)
    (distinct : ids.Nodup) :
    work.outcome ids =
      ⟨(work.disk, work.diary), work.reads, some (ids.length, made.length)⟩ := by
  have hsame : (ids.filter fun id => work.stage id = .done true).Perm (made.map (·.1)) := by
    refine (List.perm_ext_iff_of_nodup (distinct.filter _)
      underway.stripsMade.nodup_days).mpr fun id => ?_
    rw [List.mem_filter, underway.made_iff, decide_eq_true_eq, and_iff_right_iff_imp]
    intro hdone
    by_contra h
    rw [underway.idle id h] at hdone
    cases hdone
  rw [Work.outcome, List.countP_eq_length_filter, hsame.length_eq, List.length_map]

theorem Underway.isFile_of_finished (underway : Underway settings start ids made work)
    (finished : work.Finished ids) (hid : id ∈ ids) :
    work.disk.isFile (start.2.shelf.day id).thumbnailPath = true := by
  obtain ⟨written, hdone⟩ := finished id hid
  have knows := (underway.day id hid).2
  rw [hdone] at knows
  cases written with
  | true =>
      obtain ⟨entry, hentry, rfl⟩ := List.mem_map.mp ((underway.made_iff id).mpr hdone)
      rw [← underway.stripsMade.thumbnailPath_eq]
      exact (underway.stripsMade.holds entry hentry).isFile
  | false => exact Disk.Grown.isFile underway.stripsMade.adds.toKeptOn knows

end Underway

end DrawingDiary.Diary
