import DrawingDiary.Proofs.Day.Origin
import DrawingDiary.Proofs.Disk.Added
import DrawingDiary.Proofs.Naming.HourlyName

/-!
# Which files count in a day directory

The listing of a day directory has one file for each hour that there is a file for, the one with
the least name in the order of bytes, and is sorted by name. A list with distinct hours that is
sorted by name is determined by its members, and so the listing is determined by what is an hourly
file of the date: the order of the names does not count, and neither does what `PassedOver`
describes (`hourlyFiles_eq_of_changesPassedOver`).
-/

namespace DrawingDiary

open Naming (HourlyKind)
open Text (bytes)

variable {kind : HourlyKind} {date : String} {directory : Path} {disk before after : Disk}
  {hour : Hour} {name : String} {file : HourlyFile} {files files' : List HourlyFile}

section Sorted

theorem sublist_firstPerHour (seen : List Hour) (files : List HourlyFile) :
    (firstPerHour seen files).Sublist files := by
  induction files generalizing seen with
  | nil => exact List.Sublist.slnil
  | cons first rest ih =>
      rw [firstPerHour]
      split
      · exact (ih seen).cons _
      · exact (ih _).cons_cons _

theorem find?_hour_eq_some_iff (distinct : files.Pairwise fun a b => a.hour ≠ b.hour) :
    files.find? (fun other => other.hour = file.hour) = some file ↔ file ∈ files := by
  refine ⟨List.mem_of_find?_eq_some, fun hmem => ?_⟩
  have hsome : (files.find? fun other => other.hour = file.hour).isSome = true :=
    List.find?_isSome.mpr ⟨file, hmem, decide_eq_true rfl⟩
  obtain ⟨found, hfound⟩ := Option.isSome_iff_exists.mp hsome
  have hhour : found.hour = file.hour := by simpa using List.find?_some hfound
  have hmaps : (files.map (·.hour)).Nodup := List.pairwise_map.mpr distinct
  rw [hfound, List.inj_on_of_nodup_map hmaps (List.mem_of_find?_eq_some hfound) hmem hhour]

theorem eq_of_mem_iff_of_sorted (sorted : files.Pairwise fun a b => a.name < b.name)
    (sorted' : files'.Pairwise fun a b => a.name < b.name)
    (same : ∀ file, file ∈ files ↔ file ∈ files') : files = files' := by
  have hne : ∀ {a b : HourlyFile}, a.name < b.name → a ≠ b := by
    rintro a _ hlt rfl
    exact lt_irrefl _ hlt
  exact List.Perm.eq_of_pairwise (fun a b _ _ hlt hgt => absurd hgt (lt_asymm hlt)) sorted sorted'
    ((List.perm_ext_iff_of_nodup (sorted.imp hne) (sorted'.imp hne)).mpr same)

end Sorted

section Listing

theorem mem_hourlyFiles_iff : file ∈ hourlyFiles kind date directory disk ↔
    IsFirstFile kind date directory disk file.hour file.name ∧
      file.path = directory.join file.name := by
  rw [← find?_hour_eq_some_iff (pairwise_hour_hourlyFiles kind date directory disk),
    find?_hourlyFiles_eq_some_iff]
  obtain ⟨hour, name, path⟩ := file
  simp

theorem exists_mem_hourlyFiles_iff :
    (∃ file ∈ hourlyFiles kind date directory disk, file.hour = hour) ↔
      ∃ name, IsHourlyFile kind date directory disk hour name := by
  have hnone : (hourlyFiles kind date directory disk).find? (fun file => file.hour = hour) = none ↔
      ∀ name, ¬ IsHourlyFile kind date directory disk hour name := find?_hourlyFiles_eq_none_iff
  rw [List.find?_eq_none] at hnone
  simpa using not_congr hnone

theorem pairwise_name_hourlyFiles (kind : HourlyKind) (date : String) (directory : Path)
    (disk : Disk) :
    (hourlyFiles kind date directory disk).Pairwise fun a b => a.name < b.name := by
  have hsorted : (hourlyFiles kind date directory disk).Pairwise fun a b => a.name ≤ b.name := by
    unfold hourlyFiles
    split
    next names _ =>
      exact (pairwise_namedFiles kind date directory disk names).sublist (sublist_firstPerHour _ _)
    · exact List.Pairwise.nil
  have hboth := hsorted.and (pairwise_hour_hourlyFiles kind date directory disk)
  refine hboth.imp_of_mem fun ha hb ⟨hle, hhour⟩ => lt_of_le_of_ne hle fun hname => hhour ?_
  have hnamed := (mem_hourlyFiles_iff.mp ha).1.named
  rw [hname, (mem_hourlyFiles_iff.mp hb).1.named] at hnamed
  exact (congrArg Naming.HourlyName.hour (Option.some.inj hnamed)).symm

theorem hourlyFiles_eq_of_isHourlyFile_iff
    (same : ∀ hour name, IsHourlyFile kind date directory after hour name ↔
      IsHourlyFile kind date directory before hour name) :
    hourlyFiles kind date directory after = hourlyFiles kind date directory before := by
  refine eq_of_mem_iff_of_sorted (pairwise_name_hourlyFiles ..) (pairwise_name_hourlyFiles ..)
    fun file => ?_
  rw [mem_hourlyFiles_iff, mem_hourlyFiles_iff]
  refine and_congr_left fun _ => ⟨fun first => ?_, fun first => ?_⟩
  · exact ⟨(same _ _).mp first.toIsHourlyFile, fun other h => first.least _ ((same _ _).mpr h)⟩
  · exact ⟨(same _ _).mpr first.toIsHourlyFile, fun other h => first.least _ ((same _ _).mp h)⟩

theorem ofName?_name_of_mem {isFile : Path → Bool} {names : List String}
    (h : file ∈ (names.filterMap (HourlyFile.ofName? kind date directory)).filter
      fun file => isFile file.path) :
    HourlyFile.ofName? kind date directory file.name = some file := by
  obtain ⟨name, -, hname⟩ := List.mem_filterMap.mp (List.mem_of_mem_filter h)
  have hsame : file.name = name := congrArg HourlyFile.name (ofName?_eq_some_iff.mp hname).2
  rw [hsame]
  exact hname

theorem hourlyFilesAmong_eq_of_perm {isFile : Path → Bool} {names names' : List String}
    (perm : names.Perm names') :
    hourlyFilesAmong kind date directory isFile names =
      hourlyFilesAmong kind date directory isFile names' := by
  have hfiles := (perm.filterMap (HourlyFile.ofName? kind date directory)).filter
    fun file => isFile file.path
  have hsorts := (List.mergeSort_perm _ fun a b => a.name ≤ b.name).trans
    (hfiles.trans (List.mergeSort_perm _ fun a b => a.name ≤ b.name).symm)
  refine congrArg (firstPerHour []) (List.Perm.eq_of_pairwise (fun a b ha hb hle hge => ?_)
    (pairwise_name_mergeSort _) (pairwise_name_mergeSort _) hsorts)
  have hreadA := ofName?_name_of_mem ((List.mergeSort_perm _ _).mem_iff.mp ha)
  have hreadB := ofName?_name_of_mem ((List.mergeSort_perm _ _).mem_iff.mp hb)
  rw [le_antisymm hle hge, hreadB] at hreadA
  exact (Option.some.inj hreadA).symm

end Listing

section Changes

open Disk (Stands)
open DrawingDiary.Path (PlainName)

/-- What a listing passes over when it stands under a name. -/
inductive PassedOver (kind : HourlyKind) (date name : String) : Option Tree → Prop where
  | thumbnail {child : Option Tree} : name = Naming.thumbnailFile → PassedOver kind date name child
  | otherDate {child : Option Tree} {parsed : Naming.HourlyName} :
      Naming.hourlyName? kind name = some parsed → parsed.date ≠ date →
      PassedOver kind date name child
  | outsideGrammar {child : Option Tree} :
      Naming.hourlyName? kind name = none → PassedOver kind date name child
  | directory {children : List (String × Tree)} :
      PassedOver kind date name (some (.directory children))
  | absent : PassedOver kind date name none

variable {place place' : Location} {children children' : List (String × Tree)}

theorem thumbnailFile_outsideGrammar (kind : HourlyKind) :
    Naming.hourlyName? kind Naming.thumbnailFile = none := by
  cases kind <;> rfl

theorem isHourlyFile_iff (stands : Stands disk directory place children) :
    IsHourlyFile kind date directory disk hour name ↔
      (∃ child, Tree.lookup name children = some child) ∧
        Naming.hourlyName? kind name = some ⟨date, hour⟩ ∧
        disk.isFile (directory.join name) = true := by
  constructor
  · rintro ⟨⟨names, hlist, hname⟩, hnamed, hfile⟩
    rw [stands.list_eq] at hlist
    cases hlist
    exact ⟨Tree.exists_lookup_iff.mpr hname, hnamed, hfile⟩
  · rintro ⟨hchild, hnamed, hfile⟩
    exact ⟨⟨_, stands.list_eq, Tree.exists_lookup_iff.mp hchild⟩, hnamed, hfile⟩

theorem PassedOver.not_isHourlyFile (stands : Stands disk directory place children)
    (plain : ∀ name ∈ children.map (·.1), PlainName name)
    (passed : PassedOver kind date name (Tree.lookup name children)) :
    ¬ IsHourlyFile kind date directory disk hour name := by
  intro h
  obtain ⟨⟨child, hchild⟩, hnamed, hfile⟩ := (isHourlyFile_iff stands).mp h
  generalize hlookup : Tree.lookup name children = found at passed
  cases passed with
  | thumbnail hname =>
      rw [hname, thumbnailFile_outsideGrammar] at hnamed
      cases hnamed
  | otherDate hparsed hdate =>
      rw [hparsed] at hnamed
      exact hdate (congrArg Naming.HourlyName.date (Option.some.inj hnamed))
  | outsideGrammar hnone =>
      rw [hnone] at hnamed
      cases hnamed
  | absent =>
      rw [hlookup] at hchild
      cases hchild
  | directory =>
      have hplain := plain name (Tree.exists_lookup_iff.mp ⟨child, hchild⟩)
      obtain ⟨-, -, content, modified, hother⟩ := (stands.isFile_join_iff hplain (by
        rw [hlookup]
        exact fun _ => nofun)).mp hfile
      rw [hlookup] at hother
      cases hother

/-- A day directory before and after a change to nothing but what a listing passes over. A link
with an hourly name of the date still leads to a file if it did, and to none if it did not. -/
structure ChangesPassedOver (kind : HourlyKind) (date : String) (directory : Path)
    (before after : Disk) (children children' : List (String × Tree)) : Prop where
  child : ∀ name, Tree.lookup name children' = Tree.lookup name children ∨
    PassedOver kind date name (Tree.lookup name children) ∧
      PassedOver kind date name (Tree.lookup name children')
  link : ∀ name target hour, Tree.lookup name children = some (.link target) →
    Naming.hourlyName? kind name = some ⟨date, hour⟩ →
      after.isFile (directory.join name) = before.isFile (directory.join name)

theorem ChangesPassedOver.isHourlyFile_iff
    (changes : ChangesPassedOver kind date directory before after children children')
    (stands : Stands before directory place children)
    (stands' : Stands after directory place' children')
    (plain : ∀ name ∈ children.map (·.1), PlainName name)
    (plain' : ∀ name ∈ children'.map (·.1), PlainName name) :
    IsHourlyFile kind date directory after hour name ↔
      IsHourlyFile kind date directory before hour name := by
  rcases changes.child name with hsame | ⟨passed, passed'⟩
  · rw [DrawingDiary.isHourlyFile_iff stands', DrawingDiary.isHourlyFile_iff stands, hsame]
    refine and_congr_right fun ⟨child, hchild⟩ => and_congr_right fun hnamed => ?_
    have hplain := plain name (Tree.exists_lookup_iff.mp ⟨child, hchild⟩)
    by_cases hlink : ∃ target, Tree.lookup name children = some (.link target)
    · obtain ⟨target, htarget⟩ := hlink
      rw [changes.link name target hour htarget hnamed]
    · have nolink := not_exists.mp hlink
      rw [stands'.isFile_join_iff hplain (hsame ▸ nolink), stands.isFile_join_iff hplain nolink,
        hsame]
  · exact iff_of_false (passed'.not_isHourlyFile stands' plain')
      (passed.not_isHourlyFile stands plain)

/-- What a listing passes over can be added, changed and removed without a change of the
listing. -/
theorem hourlyFiles_eq_of_changesPassedOver
    (changes : ChangesPassedOver kind date directory before after children children')
    (stands : Stands before directory place children)
    (stands' : Stands after directory place' children')
    (plain : ∀ name ∈ children.map (·.1), PlainName name)
    (plain' : ∀ name ∈ children'.map (·.1), PlainName name) :
    hourlyFiles kind date directory after = hourlyFiles kind date directory before :=
  hourlyFiles_eq_of_isHourlyFile_iff fun _ _ =>
    changes.isHourlyFile_iff stands stands' plain plain'

end Changes

section Main

open Disk (Stands)
open DrawingDiary.Path (PlainName)

/-- One file counts for each hour of a day directory: the listing has distinct hours and is sorted
by name, it has for each hour the file with the least name that there is for it, in the order of
bytes, and nothing where there is none. The order in which the names are found does not count, and
neither does anything that a listing passes over. -/
theorem hourlyFiles_first_of_each_hour (kind : HourlyKind) (date : String) (directory : Path)
    (disk : Disk) :
    ((hourlyFiles kind date directory disk).Pairwise fun a b => a.hour ≠ b.hour) ∧
      ((hourlyFiles kind date directory disk).Pairwise fun a b =>
        bytes a.name.toList < bytes b.name.toList) ∧
      (∀ file, file ∈ hourlyFiles kind date directory disk ↔
        IsHourlyFile kind date directory disk file.hour file.name ∧
          (∀ other, IsHourlyFile kind date directory disk file.hour other →
            bytes file.name.toList ≤ bytes other.toList) ∧
          file.path = directory.join file.name) ∧
      (∀ hour, (∃ file ∈ hourlyFiles kind date directory disk, file.hour = hour) ↔
        ∃ name, IsHourlyFile kind date directory disk hour name) ∧
      (∀ names names', disk.list directory = .ok names → names.Perm names' →
        hourlyFilesAmong kind date directory disk.isFile names' =
          hourlyFiles kind date directory disk) ∧
      ∀ after place place' children children',
        Stands disk directory place children → Stands after directory place' children' →
        (∀ name ∈ children.map (·.1), PlainName name) →
        (∀ name ∈ children'.map (·.1), PlainName name) →
        ChangesPassedOver kind date directory disk after children children' →
        hourlyFiles kind date directory after = hourlyFiles kind date directory disk := by
  refine ⟨pairwise_hour_hourlyFiles .., ?_, ?_, fun _ => exists_mem_hourlyFiles_iff, ?_, ?_⟩
  · refine (pairwise_name_hourlyFiles kind date directory disk).imp fun hlt => ?_
    exact Text.bytes_lt_bytes_iff.mpr hlt
  · intro file
    rw [mem_hourlyFiles_iff]
    simp only [Text.bytes_le_bytes_iff]
    constructor
    · rintro ⟨first, hpath⟩
      exact ⟨first.toIsHourlyFile, first.least, hpath⟩
    · rintro ⟨hhourly, hleast, hpath⟩
      exact ⟨⟨hhourly, hleast⟩, hpath⟩
  · intro names names' hlist perm
    rw [hourlyFiles, hlist]
    exact (hourlyFilesAmong_eq_of_perm perm).symm
  · intro after place place' children children' stands stands' plain plain' changes
    exact hourlyFiles_eq_of_changesPassedOver changes stands stands' plain plain'

def twoSpellings : List (String × Tree) :=
  [("b-2022-11-01-5.png", .file ByteArray.empty ⟨0, 0⟩),
    ("a-2022-11-01-05.png", .file ByteArray.empty ⟨0, 0⟩)]

/-- The drawing with the lesser name counts, however the names are listed, and still does when the
strip is gone and a directory is there. -/
theorem hourlyFiles_first_of_each_hour_twoSpellings :
    let strip : Tree := .file ByteArray.empty ⟨0, 0⟩
    let children := twoSpellings ++ [(Naming.thumbnailFile, strip)]
    let children' := ("sketches", .directory []) :: twoSpellings
    let before : Disk := { root := .directory [("d", .directory children)] }
    let after : Disk := { root := .directory [("d", .directory children')] }
    (∃ file ∈ hourlyFiles .image "2022-11-01" ⟨"/d"⟩ before,
      file.hour = 5 ∧ file.name = "a-2022-11-01-05.png") ∧
      hourlyFilesAmong .image "2022-11-01" ⟨"/d"⟩ before.isFile
        ["a-2022-11-01-05.png", "thumbnail.png", "b-2022-11-01-5.png"] =
          hourlyFiles .image "2022-11-01" ⟨"/d"⟩ before ∧
      hourlyFiles .image "2022-11-01" ⟨"/d"⟩ after =
        hourlyFiles .image "2022-11-01" ⟨"/d"⟩ before := by
  intro strip children children' before after
  have stands : Stands before ⟨"/d"⟩ ["d"] children := ⟨by cbv, rfl⟩
  have stands' : Stands after ⟨"/d"⟩ ["d"] children' := ⟨by cbv, rfl⟩
  have hlist : before.list ⟨"/d"⟩ =
      .ok ["b-2022-11-01-5.png", "a-2022-11-01-05.png", "thumbnail.png"] := stands.list_eq
  have plain : PlainName "a-2022-11-01-05.png" := ⟨by decide, by decide⟩
  have plain' : PlainName "b-2022-11-01-5.png" := ⟨by decide, by decide⟩
  obtain ⟨-, -, hmem, -, hperm, hchange⟩ :=
    hourlyFiles_first_of_each_hour .image "2022-11-01" ⟨"/d"⟩ before
  refine ⟨⟨⟨5, "a-2022-11-01-05.png", (Path.mk "/d").join "a-2022-11-01-05.png"⟩,
    (hmem _).mpr ⟨⟨⟨_, hlist, by decide⟩, by decide, ?_⟩, ?_, rfl⟩, rfl, rfl⟩,
    hperm _ _ hlist (by decide), hchange after _ _ _ _ stands stands' ?_ ?_ ⟨fun name => ?_, ?_⟩⟩
  · exact stands.isFile_child plain (stands.speakable.join plain (by decide) (by decide))
      (by decide) rfl
  · rintro other ⟨⟨names, hnames, hname⟩, hnamed, -⟩
    rw [Text.bytes_le_bytes_iff]
    rw [hlist] at hnames
    cases hnames
    simp only [List.mem_cons, List.not_mem_nil, or_false] at hname
    rcases hname with rfl | rfl | rfl <;> decide
  · exact List.forall_mem_cons.mpr ⟨plain', List.forall_mem_cons.mpr ⟨plain,
      List.forall_mem_singleton.mpr ⟨by decide, by decide⟩⟩⟩
  · exact List.forall_mem_cons.mpr ⟨⟨by decide, by decide⟩, List.forall_mem_cons.mpr ⟨plain',
      List.forall_mem_singleton.mpr plain⟩⟩
  · by_cases hstrip : name = Naming.thumbnailFile
    · exact .inr ⟨.thumbnail hstrip, .thumbnail hstrip⟩
    by_cases hnew : name = "sketches"
    · have hnone : Naming.hourlyName? .image name = none := by
        rw [hnew]
        rfl
      exact .inr ⟨.outsideGrammar hnone, .outsideGrammar hnone⟩
    have hbefore : Tree.lookup name children = Tree.lookup name twoSpellings := by
      rw [Tree.lookup_append, Tree.lookup, if_neg (Ne.symm hstrip), Tree.lookup, Option.or_none]
    have hafter : Tree.lookup name children' = Tree.lookup name twoSpellings :=
      if_neg (Ne.symm hnew)
    exact .inl (hafter.trans hbefore.symm)
  · intro name target hour hlink
    have hfiles : ∀ child ∈ children, child.2 = strip := by
      simp [children, twoSpellings, strip]
    exact absurd (hfiles _ (Tree.mem_of_lookup hlink)) (by simp [strip])

end Main

section Linked

open Disk (Leads Stands)

/-- A day directory whose only drawing is a link to the strip beside it. -/
def linkedDrawingDisk : Disk where
  root := .directory [("d", .directory [("rabbit-2022-11-01-5.png", .link ⟨"thumbnail.png"⟩),
    ("thumbnail.png", .file ByteArray.empty ⟨0, 0⟩)])]

theorem resolve_linkedDrawing {children : List (String × Tree)} {spot : Disk.Spot}
    (root : disk.root = .directory [("d", .directory children)])
    (link : Tree.lookup "rabbit-2022-11-01-5.png" children = some (.link ⟨"thumbnail.png"⟩))
    (leads : Leads disk.root true 39 ["d"] [.into "thumbnail.png"] spot) :
    disk.resolve true ⟨"/d/rabbit-2022-11-01-5.png"⟩ = .ok spot := by
  have hsteps : (Path.mk "/d/rabbit-2022-11-01-5.png").trimmed.steps =
      [.here, .into "d", .into "rabbit-2022-11-01-5.png"] := by cbv
  have htarget : (Path.mk "thumbnail.png").steps = [.into "thumbnail.png"] := by cbv
  have hroot : Disk.IsDirectoryAt disk.root [] [("d", .directory children)] := by rw [root]; rfl
  have hday : Disk.IsDirectoryAt disk.root ["d"] children := by rw [root]; rfl
  rw [Disk.resolve_of_not_endsWithSlash (by decide)]
  refine Disk.walkAlong_eq_ok_iff.mpr ⟨⟨by cbv, by cbv, by decide⟩, ?_⟩
  have hsome : (Path.mk "thumbnail.png").text.isEmpty = false := by decide
  rw [hsteps]
  refine .here hroot (.through hroot (by decide) rfl rfl
    (.follow hday (by decide) link rfl (fun _ => rfl) hsome ?_))
  rw [htarget]
  exact leads

/-- What a link with an hourly name leads to does count: the drawing goes with the strip. -/
theorem hourlyFiles_linkedDrawing :
    ∃ after, linkedDrawingDisk.removeFile ⟨"/d/thumbnail.png"⟩ = .ok after ∧
      hourlyFiles .image "2022-11-01" ⟨"/d"⟩ linkedDrawingDisk =
        [⟨5, "rabbit-2022-11-01-5.png", ⟨"/d/rabbit-2022-11-01-5.png"⟩⟩] ∧
      hourlyFiles .image "2022-11-01" ⟨"/d"⟩ after = [] := by
  let drawing : Path := ⟨"/d/rabbit-2022-11-01-5.png"⟩
  let after := linkedDrawingDisk.setAt ["d", "thumbnail.png"] none
  have hshort : "thumbnail.png".utf8ByteSize ≤ Disk.nameLimit := by decide
  have hremove : linkedDrawingDisk.removeFile ⟨"/d/thumbnail.png"⟩ = .ok after := by
    have hsteps : (Path.mk "/d/thumbnail.png").trimmed.steps =
        [.here, .into "d", .into "thumbnail.png"] := by cbv
    have hresolve : linkedDrawingDisk.resolve false ⟨"/d/thumbnail.png"⟩ =
        .ok (.found ["d", "thumbnail.png"]) := by
      rw [Disk.resolve_of_not_endsWithSlash (by decide)]
      refine Disk.walkAlong_eq_ok_iff.mpr ⟨⟨by cbv, by cbv, by decide⟩, ?_⟩
      rw [hsteps]
      exact .here rfl (.through rfl (by decide) rfl rfl (.through rfl hshort rfl rfl .stop))
    rw [Disk.removeFile, hresolve]
    rfl
  have hsees : linkedDrawingDisk.isFile drawing = true := by
    have hresolve : linkedDrawingDisk.resolve true drawing = .ok (.found ["d", "thumbnail.png"]) :=
      resolve_linkedDrawing rfl rfl (.through rfl hshort rfl rfl .stop)
    exact Disk.isFile_iff.mpr ⟨_, _, _, hresolve, rfl⟩
  have hmisses : after.isFile drawing = false := by
    have hresolve : after.resolve true drawing = .ok (.vacant ["d"] "thumbnail.png") :=
      resolve_linkedDrawing rfl rfl (.free rfl hshort rfl)
    rw [Bool.eq_false_iff]
    intro h
    obtain ⟨place, content, modified, hfound, -⟩ := Disk.isFile_iff.mp h
    rw [hresolve] at hfound
    cases hfound
  have stands : Stands linkedDrawingDisk ⟨"/d"⟩ ["d"] _ := ⟨by cbv, rfl⟩
  have stands' : Stands after ⟨"/d"⟩ ["d"] _ := ⟨by cbv, rfl⟩
  have hnames : ["rabbit-2022-11-01-5.png", "thumbnail.png"].filterMap
      (HourlyFile.ofName? .image "2022-11-01" ⟨"/d"⟩) =
        [⟨5, "rabbit-2022-11-01-5.png", drawing⟩] := by decide
  have hnames' : ["rabbit-2022-11-01-5.png"].filterMap
      (HourlyFile.ofName? .image "2022-11-01" ⟨"/d"⟩) =
        [⟨5, "rabbit-2022-11-01-5.png", drawing⟩] := by decide
  have hbefore : hourlyFilesAmong .image "2022-11-01" ⟨"/d"⟩ linkedDrawingDisk.isFile
      ["rabbit-2022-11-01-5.png", "thumbnail.png"] =
        [⟨5, "rabbit-2022-11-01-5.png", drawing⟩] := by
    simp [hourlyFilesAmong, hnames, hsees, firstPerHour]
  have hafter : hourlyFilesAmong .image "2022-11-01" ⟨"/d"⟩ after.isFile
      ["rabbit-2022-11-01-5.png"] = [] := by
    simp [hourlyFilesAmong, hnames', hmisses, firstPerHour]
  refine ⟨after, hremove, ?_, ?_⟩
  · rw [hourlyFiles, stands.list_eq]
    exact hbefore
  · rw [hourlyFiles, stands'.list_eq]
    exact hafter

end Linked

end DrawingDiary
