import DrawingDiary.Proofs.Day.Again
import DrawingDiary.Proofs.Day.Gates
import DrawingDiary.Proofs.Page.Markup

/-!
# The hours that a day shows

The mask, the file names and the number of drawings of a day, the cells of its live page and those
of its static page are all taken from the listing of its directory, each in its own way, and all
show the hours for which there is a drawing, `drawnHours` (`hour_views_agree`). What is stored for a
day after a refresh, and answered then, are these hours without those whose drawing the refresh
tried to read in vain, `misreadHours`. That a cell with a note and no drawing has no link to a
drawing rests on the escaping of the note (`not_imageLink_infix_noted`).
-/

namespace DrawingDiary

open Naming (HourlyKind IsWrittenDate)
open Text (markup markup_append)

section Infix

variable {α : Type*} {x front rest : List α} {a b : α}

theorem infix_of_append_infix_append (h : front ++ x <:+: front ++ rest) : x <:+: rest := by
  obtain ⟨s, t, h⟩ := h
  have hsplit : (s ++ front) ++ (x ++ t) = front ++ rest := by
    simpa only [List.append_assoc] using h
  rcases List.append_eq_append_iff.mp hsplit with ⟨more, hfront, hrest⟩ | ⟨more, -, hrest⟩
  · have hlength := congrArg List.length hfront
    simp only [List.length_append] at hlength
    have hmore : more = [] := List.eq_nil_of_length_eq_zero (by omega)
    exact ⟨[], t, by simpa [hmore] using hrest⟩
  · exact ⟨more, t, by simp [hrest]⟩

/-- What has its second character only in the last part of a text, is in this part. -/
theorem infix_of_notMem (hne : a ≠ b) (hfront : b ∉ front)
    (h : a :: b :: x <:+: front ++ a :: rest) : a :: b :: x <:+: a :: rest := by
  induction front with
  | nil => exact h
  | cons first front ih =>
      rw [List.mem_cons, not_or] at hfront
      rw [List.cons_append] at h
      rcases List.infix_cons_iff.mp h with hstart | hlater
      · obtain ⟨rfl, hnext⟩ := List.cons_prefix_cons.mp hstart
        cases front with
        | nil =>
            exact absurd (List.cons_prefix_cons.mp hnext).1.symm hne
        | cons second front =>
            obtain ⟨rfl, -⟩ := List.cons_prefix_cons.mp hnext
            exact absurd List.mem_cons_self hfront.2
      · exact ih hfront.2 hlater

end Infix

namespace Cells

variable {dayUrl date name text : String} {hour : Hour}

theorem toList_imageLink (dayUrl name : String) : (imageLink dayUrl name).toList =
    ("<a href=\"" ++ dayUrl ++ "/").toList ++ (name.toList ++ "\"></a>".toList) := by
  simp only [imageLink, String.toList_append, List.append_assoc]

/-- What stands between the beginning of a link to a note and the text between its tags. -/
def noteAttributes (date : String) (hour : Hour) (text : String) : String :=
  Naming.eventFileName date hour.val ++ "\" class=\"event-link\" title=\"" ++
    Text.escapeAttribute text

theorem toList_noteLink (dayUrl date : String) (hour : Hour) (text : String) :
    (noteLink dayUrl date hour text).toList = ("<a href=\"" ++ dayUrl ++ "/").toList ++
      ((noteAttributes date hour text).toList ++ "\">Note</a>".toList) := by
  simp only [noteLink, noteAttributes, String.toList_append, List.append_assoc]

/-- The tag that begins a link to a note has no bracket before its end. -/
theorem bracket_notMem_noteAttributes (written : IsWrittenDate date) (hour : Hour)
    (text : String) : '>' ∉ (noteAttributes date hour text).toList := by
  intro hbracket
  have hmarkup : '>' ∈ markup (noteAttributes date hour text) :=
    List.mem_filter.mpr ⟨hbracket, by decide⟩
  rw [noteAttributes, markup_append, markup_append, Naming.markup_eventFileName written,
    Text.markup_escapeAttribute, List.nil_append, List.append_nil] at hmarkup
  exact absurd hmarkup (by decide)

theorem not_imageLink_infix_inactive :
    ¬ (imageLink dayUrl name).toList <:+: "<div class=\"inactive\"></div>".toList := by
  intro h
  have hstart : "<a".toList <:+: (imageLink dayUrl name).toList := by
    rw [toList_imageLink, String.toList_append, String.toList_append]
    exact (List.prefix_append _ _).isInfix
  exact absurd (hstart.trans h) (by decide)

/-- A cell with a note and no drawing has no link to a drawing. -/
theorem not_imageLink_infix_noted (written : IsWrittenDate date) :
    ¬ (imageLink dayUrl name).toList <:+:
      ("<div>" ++ noteLink dayUrl date hour text ++ "</div>").toList := by
  intro h
  rw [String.toList_append, String.toList_append, toList_imageLink, toList_noteLink] at h
  -- the link begins where the link to the note does, so it ends within the latter
  have hbegin : ("<a href=\"" ++ dayUrl ++ "/").toList ++ (name.toList ++ "\"></a>".toList) <:+:
      ("<a href=\"" ++ dayUrl ++ "/").toList ++
        ((noteAttributes date hour text).toList ++ "\">Note</a></div>".toList) := by
    have htag : ("<a href=\"" ++ dayUrl ++ "/").toList =
        '<' :: 'a' :: (" href=\"" ++ dayUrl ++ "/").toList := by
      simp only [String.toList_append]
      rfl
    simp only [htag, List.cons_append, List.append_assoc] at h ⊢
    exact infix_of_notMem (by decide) (by decide) h
  have hend : "\"></a>".toList <:+:
      (noteAttributes date hour text).toList ++ "\">Note</a></div>".toList :=
    (List.suffix_append _ _).isInfix.trans (infix_of_append_infix_append hbegin)
  have hnote := infix_of_notMem (by decide) (bracket_notMem_noteAttributes written hour text) hend
  exact absurd hnote (by decide)

/-- The cells of a live page: links to the drawings of the given hours, and the others empty. -/
structure IsLiveRow (dayUrl : String) (drawn : Set Hour) (cells : List String) : Prop where
  length : cells.length = hoursPerDay
  link : ∀ hour ∈ drawn, cells[hour.val]? = some ("<a class=\"rabbit-link\" href=\"" ++ dayUrl ++
    "/" ++ hour.val.repr ++ "\" target=\"_blank\"></a>")
  empty : ∀ hour ∉ drawn, cells[hour.val]? = some "<div class=\"rabbit-link\"></div>"

/-- The cells of a static page: those of the given hours have a link to a drawing, and those
without a drawing and a note are inactive. -/
structure IsStaticRow (dayUrl : String) (drawn noted : Set Hour) (cells : List String) : Prop where
  length : cells.length = hoursPerDay
  linked : ∀ (hour : Hour) cell, cells[hour.val]? = some cell →
    ((∃ name, (imageLink dayUrl name).toList <:+: cell.toList) ↔ hour ∈ drawn)
  inactive : ∀ (hour : Hour) cell, cells[hour.val]? = some cell →
    ("<div class=\"inactive\">".toList <+: cell.toList ↔ hour ∉ drawn ∧ hour ∉ noted)

theorem getElem?_map_allHours {α : Type} (f : Hour → α) (hour : Hour) :
    (allHours.map f)[hour.val]? = some (f hour) := by
  simp [allHours]

theorem isLiveRow_live (mask : HourMask) (dayUrl : String) :
    IsLiveRow dayUrl {hour | mask.has hour = true} (live mask dayUrl) where
  length := by simp [live, allHours]
  link hour hdrawn := by
    rw [Set.mem_ofPred_eq] at hdrawn
    rw [live, getElem?_map_allHours, liveCell, if_pos hdrawn]
  empty hour hdrawn := by
    rw [Set.mem_ofPred_eq] at hdrawn
    rw [live, getElem?_map_allHours, liveCell, if_neg hdrawn]

theorem imageLink_infix_staticCell_iff {image note : Option String}
    (written : note.isSome = true → IsWrittenDate date) :
    (∃ name, (imageLink dayUrl name).toList <:+:
      (staticCell dayUrl date hour image note).toList) ↔ image.isSome = true := by
  cases image with
  | none =>
      refine iff_of_false ?_ Bool.false_ne_true
      rintro ⟨name, h⟩
      cases note with
      | none => exact not_imageLink_infix_inactive h
      | some text => exact not_imageLink_infix_noted (written rfl) h
  | some file =>
      refine iff_of_true ⟨file, ?_⟩ rfl
      cases note with
      | none => exact ⟨"<div>".toList, "</div>".toList, by simp [staticCell]⟩
      | some text =>
          refine ⟨"<div>".toList, (noteLink dayUrl date hour text).toList ++
            (imageLink dayUrl file).toList ++ "</div>".toList, ?_⟩
          simp only [staticCell, String.toList_append, List.append_assoc]

theorem inactive_prefix_staticCell_iff {image note : Option String} :
    "<div class=\"inactive\">".toList <+: (staticCell dayUrl date hour image note).toList ↔
      ¬ image.isSome = true ∧ ¬ note.isSome = true := by
  have hactive (rest : String) :
      ¬ "<div class=\"inactive\">".toList <+: ("<div>" ++ rest).toList := by
    intro h
    rw [String.toList_append] at h
    have hshort : "<div ".toList <+: "<div>".toList ++ rest.toList :=
      List.IsPrefix.trans (by decide) h
    have hequal := List.prefix_of_prefix_length_le hshort (List.prefix_append _ _) (by decide)
    exact absurd hequal (by decide)
  cases image with
  | none =>
      cases note with
      | none => simp only [staticCell]; decide
      | some text =>
          refine iff_of_false ?_ (by simp)
          simpa only [staticCell, String.append_assoc] using hactive _
  | some file =>
      refine iff_of_false ?_ (by simp)
      cases note with
      | none => simpa only [staticCell, String.append_assoc] using hactive _
      | some text => simpa only [staticCell, String.append_assoc] using hactive _

theorem isStaticRow_static {images notes : Slots String}
    (written : ∀ hour, (notes.at? hour).isSome = true → IsWrittenDate date) :
    IsStaticRow dayUrl {hour | (images.at? hour).isSome = true}
      {hour | (notes.at? hour).isSome = true} (static dayUrl date images notes) where
  length := by simp [static, allHours]
  linked hour cell hcell := by
    rw [static, getElem?_map_allHours, Option.some.injEq] at hcell
    rw [← hcell]
    exact imageLink_infix_staticCell_iff (written hour)
  inactive hour cell hcell := by
    rw [static, getElem?_map_allHours, Option.some.injEq] at hcell
    rw [← hcell]
    exact inactive_prefix_staticCell_iff

end Cells

theorem HourMask.toNat_count_eq_ncard (mask : HourMask) :
    mask.count.toNat = {hour | mask.has hour = true}.ncard := by
  have hnodup : (allHours.filter mask.has).Nodup := (List.nodup_finRange hoursPerDay).filter _
  have hset : {hour | mask.has hour = true} = ((allHours.filter mask.has).toFinset : Set Hour) := by
    ext hour
    simp [mem_allHours]
  rw [Day.toNat_count, hset, Set.ncard_coe_finset, List.toFinset_card_of_nodup hnodup,
    List.countP_eq_length_filter]

namespace Day

variable {view later : View} {day : Day} {hour : Hour}

/-- The hours for which there is a drawing in the directory of a day. -/
def drawnHours (day : Day) (disk : Disk) : Set Hour :=
  {hour | ∃ name, IsHourlyFile .image day.date day.directory disk hour name}

/-- The hours whose drawing a refresh tries to read, and cannot read or encode. -/
def misreadHours (view : View) (day : Day) : Set Hour :=
  {hour | ∃ name, IsFirstFile .image day.date day.directory view.disk hour name ∧
    day.directory.join name ∈ (refreshImages view day).reads ∧
    view.misreads .image (day.directory.join name) = true}

/-- The hours for which a day remembers a drawing. -/
def storedHours (day : Day) : Set Hour := {hour | (day.images.slots.at? hour).isSome = true}

/-- The hours for which a day remembers a note. -/
def notedHours (day : Day) : Set Hour := {hour | (day.notes.slots.at? hour).isSome = true}

/-- A completed refresh leaves a drawing for the hours with one, but for those that it tried to
read in vain. -/
theorem fills_iff (isOpen : (day.gate .image).isOpen view.now = true) :
    fills view day hour = true ↔ hour ∈ day.drawnHours view.disk \ day.misreadHours view := by
  have hreads : (refreshImages view day).reads = (day.due .image view.disk).map (·.path) :=
    reads_refreshKind_of_open isOpen
  rw [fills, Set.mem_sdiff]
  cases hfile : day.file? .image view.disk hour with
  | none =>
      refine iff_of_false Bool.false_ne_true ?_
      rintro ⟨⟨name, hourly⟩, -⟩
      exact file?_eq_none_iff.mp hfile name hourly
  | some file =>
      obtain ⟨first, heq⟩ := file?_eq_some_iff.mp hfile
      have hpath : day.directory.join file.name = file.path := by rw [heq]
      have hmisread : hour ∈ day.misreadHours view ↔
          day.isDue view.disk .image file = true ∧ view.misreads .image file.path = true := by
        rw [← mem_paths_due_iff (mem_of_file? hfile), ← hreads]
        constructor
        · rintro ⟨name, first', hread⟩
          obtain rfl := first.unique first'
          rwa [hpath] at hread
        · intro hread
          exact ⟨file.name, first, by rwa [hpath]⟩
      have hdrawn : hour ∈ day.drawnHours view.disk := ⟨file.name, first.toIsHourlyFile⟩
      rw [hmisread, and_iff_right hdrawn, ← Bool.and_eq_true, Bool.not_eq_true', Bool.not_eq_true]

/-- A day that is asked for the drawing of an hour answers with one for the given hours. -/
def AnswersFor (view : View) (day : Day) (hours : Set Hour) : Prop :=
  ∀ (asked : UInt32) (hlt : asked.toNat < hoursPerDay), ∃ answer,
    (imageData view asked day).result = some (.ok answer) ∧
      (answer.isSome = true ↔ ⟨asked.toNat, hlt⟩ ∈ hours)

/-- A refresh leaves drawings for the given hours, and when a day is asked then, or again with its
directory unchanged and the reads ending as they did, it answers with one for these hours. -/
structure Stores (view : View) (day : Day) (hours : Set Hour) : Prop where
  slots : (refreshImages view day).state.storedHours = hours
  mask : {hour | (refreshImages view day).state.images.mask.has hour = true} = hours
  answers : AnswersFor view day hours
  answers_again : ∀ later, LooksAgain view later day .image →
    AnswersFor later (refreshImages view day).state hours

theorem answersFor_of_done {hours : Set Hour} (done : (refreshImages view day).result = some ())
    (stored : (refreshImages view day).state.storedHours = hours) :
    AnswersFor view day hours := by
  intro asked hlt
  refine ⟨_, result_imageData_of_done hlt done, ?_⟩
  rw [Option.isSome_map, ← stored]
  rfl

theorem stores_of_done (free : day.images.gate.period = 0)
    (done : (refreshImages view day).result = some ()) :
    Stores view day (day.drawnHours view.disk \ day.misreadHours view) := by
  have isOpen : (day.gate .image).isOpen view.now = true :=
    Cooldown.isOpen_of_period_zero free view.now
  have hrefresh : refreshImages view day = _ := (refreshKind_of_done isOpen done).2
  have hslots : (refreshImages view day).state.storedHours =
      day.drawnHours view.disk \ day.misreadHours view := by
    ext hour
    rw [hrefresh, ← fills_iff isOpen, ← isSome_slots_settledImages]
    rfl
  refine ⟨hslots, ?_, answersFor_of_done done hslots, fun later again => ?_⟩
  · ext hour
    rw [hrefresh, ← fills_iff isOpen, ← has_mask_settledImages_eq]
    rfl
  · have free' : ((day.gate .image).stamp view.now).period = 0 := free
    have isOpen' := Cooldown.isOpen_of_period_zero free' later.now
    have hagain : refreshImages later (refreshImages view day).state = _ :=
      refreshKind_again isOpen done again isOpen'
    refine answersFor_of_done (congrArg Outcome.result hagain) ?_
    rw [hagain, ← hslots]
    rfl

theorem isWrittenDate_of_noted (isOpen : (day.gate .event).isOpen view.now = true)
    (done : (refreshEvents view day).result = some ())
    (noted : hour ∈ (refreshEvents view day).state.notedHours) : IsWrittenDate day.date := by
  have hrefresh : refreshEvents view day = _ := (refreshKind_of_done isOpen done).2
  rw [hrefresh, notedHours, Set.mem_ofPred_eq, notes_settled, at?_slots_settledNotes] at noted
  split at noted
  next hlisted =>
    obtain ⟨name, hourly⟩ := isSome_file?_iff.mp hlisted
    exact (Naming.hourlyName?_eq_some_iff.mp hourly.named).isWrittenDate
  · cases noted

/-- All that a day shows of its hours shows the hours with a drawing in its directory: the mask, the
names, the count, the cells of the live page and those of the static page, where the inactive ones
are the hours without a drawing and a note. A completed refresh stores these hours, but for those
whose drawing it tried to read in vain. -/
theorem hour_views_agree (view : View) (day : Day) (free : ∀ kind, (day.gate kind).period = 0)
    (dayUrl : String) :
    {hour | (day.imageMask view.disk).has hour = true} = day.drawnHours view.disk ∧
      {hour | ((day.imageFileNames view.disk).at? hour).isSome = true} =
        day.drawnHours view.disk ∧
      (day.imageCount view.disk).toNat = (day.drawnHours view.disk).ncard ∧
      (∀ endpoint, ∃ cells,
        (Page.dayLinks view (.live endpoint) dayUrl day).result = some (String.join cells) ∧
          Cells.IsLiveRow dayUrl (day.drawnHours view.disk) cells) ∧
      ((refreshEvents view day).result = some () → ∀ path, ∃ cells,
        (Page.dayLinks view (.static path) dayUrl day).result = some (String.join cells) ∧
          Cells.IsStaticRow dayUrl (day.drawnHours view.disk)
            (refreshEvents view day).state.notedHours cells) ∧
      ((refreshImages view day).result = some () →
        Stores view day (day.drawnHours view.disk \ day.misreadHours view)) := by
  have hmask : {hour | (day.imageMask view.disk).has hour = true} = day.drawnHours view.disk := by
    ext hour
    exact has_imageMask_iff
  have hnames : {hour | ((day.imageFileNames view.disk).at? hour).isSome = true} =
      day.drawnHours view.disk := by
    rw [← hmask]
    ext hour
    rw [Set.mem_ofPred_eq, Set.mem_ofPred_eq, has_imageMask]
  refine ⟨hmask, hnames, ?_, fun endpoint => ?_, fun done path => ?_, stores_of_done (free .image)⟩
  · rw [← hmask]
    exact HourMask.toNat_count_eq_ncard _
  · exact ⟨_, rfl, hmask ▸ Cells.isLiveRow_live _ dayUrl⟩
  · have isOpen : (day.gate .event).isOpen view.now = true :=
      Cooldown.isOpen_of_period_zero (free .event) view.now
    have hnotes : (events view day).result = some (refreshEvents view day).state.notes.slots := by
      rw [events, Run.bind_apply]
      simp only [done]
      rfl
    refine ⟨_, (Page.result_dayLinks_static view path dayUrl day).trans
      (congrArg _ hnotes), ?_⟩
    rw [← hnames]
    exact Cells.isStaticRow_static fun hour => isWrittenDate_of_noted isOpen done

/-- A look at a day directory with a drawing that cannot be read and a note. -/
def unreadableView : View where
  reader := { image := fun _ _ => .failure .unprocessable, note := fun _ _ => .success "carrots" }
  now := 0
  disk := drawnAndNotedDisk

/-- The drawing is counted and linked, and it is not stored. -/
theorem hour_views_agree_unreadable :
    let day := Day.new "2022-11-01" ⟨"/d"⟩ { imageCooldown := 0, eventCooldown := 0 }
    (day.imageCount drawnAndNotedDisk).toNat = 1 ∧
      (∃ cells, (Page.dayLinks unreadableView (.live "/api") "/api/2022-11-01" day).result =
          some (String.join cells) ∧ Cells.IsLiveRow "/api/2022-11-01" {3} cells) ∧
      (∃ cells, (Page.dayLinks unreadableView (.static "..") "../d" day).result =
          some (String.join cells) ∧
        Cells.IsStaticRow "../d" {3} (refreshEvents unreadableView day).state.notedHours cells) ∧
      Stores unreadableView day ∅ := by
  intro day
  let drawing : HourlyFile := ⟨3, "rabbit-2022-11-01-3.png", day.directory.join
    "rabbit-2022-11-01-3.png"⟩
  have stands : Disk.Stands drawnAndNotedDisk ⟨"/d"⟩ ["d"] _ := ⟨by cbv, by cbv⟩
  have himage : day.files .image drawnAndNotedDisk = [drawing] :=
    files_of_single stands ⟨by decide, by decide⟩ (by decide) (by decide) rfl (by decide)
  have hlisted : drawing ∈ day.files .image unreadableView.disk :=
    himage ▸ List.mem_singleton_self _
  have hdone (kind : HourlyKind) : (refreshKind unreadableView kind day).result = some () :=
    result_refreshKind_of_reads fun _ => by cases kind <;> rfl
  have free : ∀ kind, (day.gate kind).period = 0 := fun kind => by cases kind <;> rfl
  obtain ⟨hmask, -, hcount, hlive, -, hstores⟩ :=
    hour_views_agree unreadableView day free "/api/2022-11-01"
  obtain ⟨-, -, -, -, hstatic, -⟩ := hour_views_agree unreadableView day free "../d"
  have hdrawn : day.drawnHours unreadableView.disk = {3} := by
    rw [← hmask]
    change {hour | (day.imageMask drawnAndNotedDisk).has hour = true} = {3}
    rw [imageMask, himage]
    ext hour
    revert hour
    decide
  have hmisread : 3 ∈ day.misreadHours unreadableView := by
    obtain ⟨isFirst, hpath⟩ := mem_hourlyFiles_iff.mp hlisted
    refine ⟨drawing.name, isFirst, ?_, rfl⟩
    have isOpen : (day.gate .image).isOpen unreadableView.now = true := rfl
    have hreads : (refreshImages unreadableView day).reads = _ := reads_refreshKind_of_open isOpen
    rw [hreads, ← hpath]
    exact (mem_paths_due_iff hlisted).mpr
      ((isDue_image_iff hlisted).mpr (.inl (Slots.at?_empty _)))
  rw [hdrawn] at hcount hlive hstatic hstores
  refine ⟨?_, hlive "/api", hstatic (hdone .event) "..", ?_⟩
  · rw [← Set.ncard_singleton (3 : Hour), ← hcount]
    rfl
  · rw [← Set.sdiff_eq_empty.mpr (Set.singleton_subset_iff.mpr hmisread)]
    exact hstores (hdone .image)

end Day

end DrawingDiary
