import DrawingDiary.Proofs.Day.Due
import DrawingDiary.Proofs.Day.Gates
import DrawingDiary.Proofs.Day.StripFile
import DrawingDiary.Proofs.Diary.History
import DrawingDiary.Proofs.Disk.NewFiles

/-!
# Diaries whose reads are never aborted

Where no read is aborted, whoever goes through the gate of the drawings gets to the end of the
refresh. So a day of which this is known (`Undisturbed`) has either never been looked at, or it
remembers the encoded strip as its thumbnail (`Undisturbed.encode_eq`), also while its gate is
closed. When such a day is asked to write the file of its strip into a directory where the name is
free, it writes its thumbnail (`createThumbnailFile_of_free`). All days of a diary that was led to
by such looks are of this kind (`ReachedBy.undisturbed`).
-/

namespace DrawingDiary

open Naming (HourlyKind hourlyName? thumbnailFile)
open Disk (Stands Speakable)

section Dates

variable {kind kind' : HourlyKind} {name name' date date' : String} {hour hour' : Hour}

theorem exists_text_of_hourlyName? (named : hourlyName? kind name = some ⟨date, hour⟩) (p : Path) :
    ∃ front token, (p.join name).text.toList = front ++ date.toList ++ '-' :: token ∧
      '-' ∉ token ∧ date.toList.length = 10 := by
  obtain ⟨head, token, htext, -, hdate, htoken⟩ := Naming.hourlyName?_eq_some_iff_parts.mp named
  obtain ⟨front, hfront⟩ := Path.suffix_text_join p name
  refine ⟨front ++ head, token ++ kind.ending, ?_, ?_, hdate.length⟩
  · rw [← hfront, htext]
    simp
  · have hnodash := htoken.dash_notMem
    rw [String.toList_ofList] at hnodash
    rw [List.mem_append, not_or]
    exact ⟨hnodash, by cases kind <;> decide⟩

theorem date_eq_of_join_eq {p q : Path} (named : hourlyName? kind name = some ⟨date, hour⟩)
    (named' : hourlyName? kind' name' = some ⟨date', hour'⟩) (same : p.join name = q.join name') :
    date = date' := by
  obtain ⟨front, token, htext, hdash, hlength⟩ := exists_text_of_hourlyName? named p
  obtain ⟨front', token', htext', hdash', hlength'⟩ := exists_text_of_hourlyName? named' q
  rw [same, htext'] at htext
  have hcut := Text.splitLast?_eq_some_iff.mpr ⟨htext, hdash⟩
  rw [Text.splitLast?_eq_some_iff.mpr ⟨rfl, hdash'⟩] at hcut
  have hbefore : front' ++ date'.toList = front ++ date.toList :=
    congrArg Prod.fst (Option.some.inj hcut)
  exact String.toList_injective (List.append_inj' hbefore (hlength'.trans hlength.symm)).2.symm

/-- The path is that of an hourly file of the day. -/
def Day.HasPath (day : Day) (path : Path) : Prop :=
  ∃ kind name hour, hourlyName? kind name = some ⟨day.date, hour⟩ ∧ path = day.directory.join name

theorem Day.HasPath.date_eq {day other : Day} {path : Path} (h : day.HasPath path)
    (h' : other.HasPath path) : day.date = other.date := by
  obtain ⟨kind, name, hour, named, rfl⟩ := h
  obtain ⟨kind', name', hour', named', same⟩ := h'
  exact date_eq_of_join_eq named named' same

end Dates

/-- No read of a drawing or a note is aborted. -/
def View.NeverAborts (view : View) : Prop := ∀ kind path, view.abortsAt kind path = false

theorem View.neverAborts_files (now : Instant) (disk : Disk) :
    NeverAborts ⟨⟨Reader.files, now⟩, disk⟩ := by
  intro kind path
  cases kind with
  | image =>
      simp only [abortsAt, Reader.files]
      split
      · rfl
      · split <;> rfl
  | event =>
      simp only [abortsAt, Reader.files]
      split <;> rfl

namespace Day

variable {settings : DaySettings} {view : View} {day : Day} {past : ImagePast} {kind : HourlyKind}

/-- The refreshes of the drawings that went through the gate were completed, as far as there were
any. -/
def LookedThrough (day : Day) (past : ImagePast) : Prop :=
  past.completed = true ∨ day.images.gate.lastOpened = none

theorem LookedThrough.refreshKind (looked : LookedThrough day past) (never : view.NeverAborts)
    (kind : HourlyKind) :
    LookedThrough (refreshKind view kind day).state (past.afterKind view day kind) := by
  cases kind with
  | event =>
      obtain ⟨notes, heq⟩ := exists_notes_refreshEvents view day
      change LookedThrough (refreshEvents view day).state past
      rw [heq]
      exact looked
  | image =>
      have hresult : (Day.refreshKind view .image day).result = some () :=
        result_refreshKind_of_reads (never .image)
      change LookedThrough (refreshImages view day).state _
      rcases refreshImages_cases view day with
        ⟨-, hstay, heq⟩ | ⟨-, haborted, -⟩ | ⟨hdone, -, -⟩
      · rw [heq, ImagePast.afterKind, hstay]
        exact looked
      · cases haborted.symm.trans hresult
      · rw [ImagePast.afterKind, hdone]
        exact .inl rfl

/-- A day that calls lead to without an aborted read. -/
def Undisturbed (settings : DaySettings) (day : Day) : Prop :=
  ∃ past, Reached day.date day.directory settings day past ∧ LookedThrough day past

theorem undisturbed_new (date : String) (directory : Path) (settings : DaySettings) :
    Undisturbed settings (new date directory settings) :=
  ⟨{}, .new, .inr rfl⟩

theorem Undisturbed.after (undisturbed : Undisturbed settings day) (never : view.NeverAborts)
    (call : Call) : Undisturbed settings (call.after view day) := by
  obtain ⟨past, reached, looked⟩ := undisturbed
  have reached' := reached.call view call
  rw [← reached'.named.date_eq, ← reached'.named.directory_eq] at reached'
  refine ⟨_, reached', ?_⟩
  rw [Call.after_eq]
  exact holds_refreshKinds view (fun kind _ _ looked => looked.refreshKind never kind) _ past looked

theorem Undisturbed.refreshKind (undisturbed : Undisturbed settings day)
    (never : view.NeverAborts) (kind : HourlyKind) :
    Undisturbed settings (refreshKind view kind day).state := by
  cases kind with
  | image => exact undisturbed.after never .refreshImages
  | event => exact undisturbed.after never .refreshEvents

/-- A day that has been looked at remembers the encoded strip. -/
theorem Undisturbed.encode_eq (undisturbed : Undisturbed settings day)
    (sides : AllowedSides settings.tileWidth settings.tileHeight)
    (opened : day.images.gate.lastOpened ≠ none) :
    day.images.strip.encode = some day.images.thumbnail := by
  obtain ⟨past, reached, looked⟩ := undisturbed
  exact (reached.imagesAgree sides).encoded (looked.resolve_right opened)

section RefreshForStrip

theorem refreshForStrip_eq (never : view.NeverAborts) (day : Day) :
    refreshForStrip view day =
      let noted := refreshKind view .event day
      let shown := refreshKind view .image noted.state
      ⟨shown.state, noted.reads ++ shown.reads, some ()⟩ := by
  change (refreshKind view .event >>= fun _ => refreshKind view .image) day = _
  rw [Run.bind_apply, result_refreshKind_of_reads (never .event)]
  simp only [result_refreshKind_of_reads (never .image)]

theorem hasPath_of_mem_reads {path : Path} (h : path ∈ (refreshKind view kind day).reads) :
    day.HasPath path := by
  have hdue : path ∈ day.readsBehind view kind := by
    rcases refreshKind_cases view day kind with ⟨-, heq⟩ | ⟨-, heq | heq⟩ <;> rw [heq] at h
    · cases h
    · exact h
    · exact h
  rw [readsBehind_eq] at hdue
  obtain ⟨file, hfile, rfl⟩ := List.mem_map.mp hdue
  obtain ⟨first, hpath, -⟩ := mem_due_iff.mp hfile
  exact ⟨kind, file.name, file.hour, first.named, hpath⟩

theorem hasPath_of_mem_reads_refreshForStrip (never : view.NeverAborts) {path : Path}
    (h : path ∈ (refreshForStrip view day).reads) : day.HasPath path := by
  rw [refreshForStrip_eq never] at h
  rcases List.mem_append.mp h with hnote | hdrawing
  · exact hasPath_of_mem_reads hnote
  · have named : day.Named day.date day.directory day.settings := ⟨rfl, rfl, rfl⟩
    have named' := named.refreshKind view .event
    have hday := hasPath_of_mem_reads hdrawing
    rwa [HasPath, named'.date_eq, named'.directory_eq] at hday

theorem lastOpened_refreshImages (view : View) (day : Day) :
    (refreshImages view day).state.images.gate.lastOpened ≠ none := by
  change ((refreshKind view .image day).state.gate .image).lastOpened ≠ none
  cases hopen : (day.gate .image).isOpen view.now with
  | true =>
      rw [gate_refreshKind_of_open hopen, Cooldown.stamp]
      exact Option.some_ne_none _
  | false =>
      rw [refreshKind_of_closed hopen]
      intro hnone
      rw [Cooldown.isOpen, hnone] at hopen
      cases hopen

theorem lastOpened_refreshForStrip (never : view.NeverAborts) (day : Day) :
    (refreshForStrip view day).state.images.gate.lastOpened ≠ none := by
  rw [refreshForStrip_eq never]
  exact lastOpened_refreshImages view _

end RefreshForStrip

/-- Where the name is free, a day writes the strip that it shows then, and this is what its
thumbnail encodes. -/
theorem createThumbnailFile_of_free {setting : Setting} {disk : Disk} {place : Location}
    {children : List (String × Tree)} (undisturbed : Undisturbed settings day)
    (sides : AllowedSides settings.tileWidth settings.tileHeight)
    (never : View.NeverAborts ⟨setting, disk⟩) (stands : Stands disk day.directory place children)
    (speakable : Speakable day.thumbnailPath) (free : Tree.lookup thumbnailFile children = none) :
    ∃ after reads, createThumbnailFile setting (disk, day) =
        ⟨(disk.putFile (place ++ [thumbnailFile]) after.images.thumbnail, after), reads,
          some true⟩ ∧
      after.Named day.date day.directory day.settings ∧
      after.images.strip.encode = some after.images.thumbnail ∧
      ∀ path ∈ reads, day.HasPath path := by
  let view : View := ⟨setting, disk⟩
  have hfile : disk.isFile day.thumbnailPath = false :=
    stands.isFile_join_of_free Naming.plainName_thumbnailFile speakable free (by decide)
  have hafter : (refreshForStrip view day).state = Call.createThumbnailFile.after view day := by
    change _ = (createThumbnailFile setting (disk, day)).state.2
    rw [createThumbnailFile_eq, hfile, if_neg Bool.false_ne_true, refreshForStrip_eq never]
  have hencode : (refreshForStrip view day).state.images.strip.encode =
      some (refreshForStrip view day).state.images.thumbnail := by
    have undisturbed' := undisturbed.after never .createThumbnailFile
    rw [← hafter] at undisturbed'
    exact undisturbed'.encode_eq sides (lastOpened_refreshForStrip never day)
  have hresult : (refreshForStrip view day).result = some () := by rw [refreshForStrip_eq never]
  have hsaved (content : ByteArray) : disk.writeFile day.thumbnailPath content =
      .ok (disk.putFile (place ++ [thumbnailFile]) content) :=
    stands.writeFile_join_of_free Naming.plainName_thumbnailFile speakable free (by decide) content
  have same : (refreshForStrip view day).state.Named day.date day.directory day.settings := by
    have named : day.Named day.date day.directory day.settings := ⟨rfl, rfl, rfl⟩
    rw [hafter]
    exact named.after view _
  refine ⟨(refreshForStrip view day).state, (refreshForStrip view day).reads, ?_, same, hencode,
    fun path hpath => hasPath_of_mem_reads_refreshForStrip never hpath⟩
  rw [createThumbnailFile_eq, hfile, if_neg Bool.false_ne_true]
  simp only [view, hresult]
  rw [thumbnailPath_refreshForStrip, saveStrip, hencode, Option.getD_some, hsaved]
  rfl

end Day

namespace Diary

variable {roots : List Path} {settings : DaySettings} {cooldown : Nat} {history : List View}
  {diary : Diary}

theorem undisturbed_refresh (wellFormed : diary.WellFormed)
    (undisturbed : ∀ entry ∈ diary.days, Day.Undisturbed diary.settings (diary.shelf.day entry.2))
    (view : View) : ∀ entry ∈ (diary.refresh view).days,
      Day.Undisturbed diary.settings ((diary.refresh view).shelf.day entry.2) := by
  rintro ⟨date, id⟩ hmem
  by_cases isOpen : diary.gate.isOpen view.now = true
  · obtain ⟨root, -, -, -, ⟨hlookup, -, hkept⟩ | ⟨-, -, hnew⟩⟩ :=
      (wellFormed.reflects_refresh isOpen).day date id hmem
    · obtain ⟨before, after, hdays, -⟩ := List.lookup_eq_some_iff.mp hlookup
      rw [hkept]
      exact undisturbed (date, id) (by rw [hdays]; simp)
    · rw [hnew]
      exact Day.undisturbed_new date _ _
  · rw [refresh_eq, if_neg isOpen] at hmem ⊢
    exact undisturbed (date, id) hmem

/-- Looks without an aborted read lead to undisturbed days. -/
theorem ReachedBy.undisturbed (reached : ReachedBy roots settings cooldown history diary)
    (never : ∀ view ∈ history, view.NeverAborts) :
    ∀ entry ∈ diary.days, Day.Undisturbed settings (diary.shelf.day entry.2) := by
  induction reached with
  | new => exact nofun
  | refresh view reached ih =>
      obtain ⟨rfl, rfl⟩ := reached.reached.roots_eq
      exact undisturbed_refresh reached.reached.wellFormed
        (ih fun view hview => never view (List.mem_cons_of_mem _ hview)) view
  | callDay view id call _ ih =>
      intro entry hmem
      have hday := ih (fun view hview => never view (List.mem_cons_of_mem _ hview)) entry hmem
      rw [Shelf.day_replace]
      split
      next hsame =>
        rw [hsame.1]
        exact hday.after (never view List.mem_cons_self) call
      · exact hday

end Diary

end DrawingDiary
