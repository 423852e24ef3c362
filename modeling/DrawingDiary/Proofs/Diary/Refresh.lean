import DrawingDiary.Proofs.Day.Reached
import DrawingDiary.Proofs.Diary.Claims
import DrawingDiary.Proofs.Disk.Standing
import Mathlib

/-!
# What a refresh of a diary leaves

A refresh takes one claim after the other: a day whose directory is still the claimed one
stays under its number, and for any other claim a new day is put on the shelf, under a
number that no day had before (`mem_settleClaims`). Days that stand on the shelf already
are never touched (`extends_settleClaims`). A diary that calls lead to is `WellFormed`,
so a number that it remembers stands for a day of the right date; with this,
`Reached.refresh_reflects_roots` says which days a diary has after a refresh.
-/

namespace DrawingDiary

theorem Path.same_self (p : Path) : p.same p = true := by
  simp [Path.same]

namespace Shelf

/-- Every day of the earlier shelf stands on the later one, as it was. -/
structure Extends (before after : Shelf) : Prop where
  size_le : before.size ≤ after.size
  day_eq : ∀ id, id < before.size → after.day id = before.day id

variable {before between after : Shelf}

@[refl] theorem Extends.refl (shelf : Shelf) : Extends shelf shelf :=
  ⟨Nat.le_refl _, fun _ _ => rfl⟩

theorem Extends.trans (first : Extends before between) (second : Extends between after) :
    Extends before after where
  size_le := Nat.le_trans first.size_le second.size_le
  day_eq id hid :=
    (second.day_eq id (Nat.lt_of_lt_of_le hid first.size_le)).trans (first.day_eq id hid)

theorem extends_push (shelf : Shelf) (day : Day) : Extends shelf (shelf.push day) where
  size_le := by simp
  day_eq id hid := by
    simp [Shelf.day, Array.getD, hid, Nat.lt_succ_of_lt hid, Array.getElem_push_lt hid]

theorem day_push_size (shelf : Shelf) (day : Day) :
    Shelf.day (shelf.push day) shelf.size = day := by
  simp [Shelf.day, Array.getD]

theorem day_replace (shelf : Shelf) (id other : DayId) (day : Day) :
    (shelf.replace id day).day other =
      if id = other ∧ id < shelf.size then day else shelf.day other := by
  simp only [Shelf.day, Shelf.replace, Array.getD_eq_getD_getElem?,
    Array.getElem?_setIfInBounds]
  by_cases heq : id = other
  · subst heq
    by_cases hlt : id < shelf.size <;> simp [hlt]
  · simp [heq]

end Shelf

namespace Diary

theorem kept?_eq_some_iff {diary : Diary} {date : String} {path : Path} {id : DayId} :
    diary.kept? (date, path) = some id ↔ diary.days.lookup date = some id ∧
      (diary.shelf.day id).directory.same path = true := by
  unfold kept?
  cases diary.days.lookup date with
  | none => simp
  | some old =>
      by_cases hsame : (diary.shelf.day old).directory.same path = true
      · simp only [hsame, if_true, Option.some.injEq]
        constructor
        · rintro rfl
          exact ⟨rfl, hsame⟩
        · exact fun h => h.1
      · simp only [hsame, Bool.false_eq_true, if_false, Option.some.injEq]
        constructor
        · intro h
          cases h
        · intro h
          rcases h with ⟨rfl, h⟩
          exact absurd h hsame

section SettleClaims

variable {diary : Diary} {shelf : Shelf} {claim : String × Path} {rest : List (String × Path)}

theorem settleClaims_cons_kept {id : DayId} (h : diary.kept? claim = some id) :
    settleClaims diary shelf (claim :: rest) =
      ((settleClaims diary shelf rest).1, (claim.1, id) :: (settleClaims diary shelf rest).2) := by
  simp only [settleClaims, h]

theorem settleClaims_cons_new (h : diary.kept? claim = none) :
    settleClaims diary shelf (claim :: rest) =
      let made := shelf.push (Day.new claim.1 claim.2 diary.settings)
      ((settleClaims diary made rest).1,
        (claim.1, shelf.size) :: (settleClaims diary made rest).2) := by
  simp only [settleClaims, h]

theorem keys_settleClaims (diary : Diary) (shelf : Shelf) (claims : List (String × Path)) :
    (settleClaims diary shelf claims).2.map (·.1) = claims.map (·.1) := by
  induction claims generalizing shelf with
  | nil => rfl
  | cons claim rest ih =>
      cases hkept : diary.kept? claim with
      | none => simp only [settleClaims_cons_new hkept, List.map_cons, ih]
      | some id => simp only [settleClaims_cons_kept hkept, List.map_cons, ih]

theorem extends_settleClaims (diary : Diary) (shelf : Shelf) (claims : List (String × Path)) :
    shelf.Extends (settleClaims diary shelf claims).1 := by
  induction claims generalizing shelf with
  | nil => exact .refl shelf
  | cons claim rest ih =>
      cases hkept : diary.kept? claim with
      | none =>
          rw [settleClaims_cons_new hkept]
          exact (Shelf.extends_push shelf _).trans (ih _)
      | some id =>
          rw [settleClaims_cons_kept hkept]
          exact ih shelf

/-- A settled day is the kept one of its claim, or a new one under a new number. -/
theorem mem_settleClaims {claims : List (String × Path)} {date : String} {id : DayId}
    (h : (date, id) ∈ (settleClaims diary shelf claims).2) :
    ∃ path, (date, path) ∈ claims ∧
      (diary.kept? (date, path) = some id ∨
        diary.kept? (date, path) = none ∧ shelf.size ≤ id ∧
          id < (settleClaims diary shelf claims).1.size ∧
          (settleClaims diary shelf claims).1.day id = Day.new date path diary.settings) := by
  induction claims generalizing shelf with
  | nil => cases h
  | cons claim rest ih =>
      obtain ⟨claimed, path⟩ := claim
      cases hkept : diary.kept? (claimed, path) with
      | some kept =>
          rw [settleClaims_cons_kept hkept] at h ⊢
          rcases List.mem_cons.mp h with hfirst | hrest
          · cases hfirst
            exact ⟨path, List.mem_cons_self, .inl hkept⟩
          · obtain ⟨path, hpath, hday⟩ := ih hrest
            exact ⟨path, List.mem_cons_of_mem _ hpath, hday⟩
      | none =>
          rw [settleClaims_cons_new hkept] at h ⊢
          have hpush := Shelf.extends_push shelf (Day.new claimed path diary.settings)
          have hlater := extends_settleClaims diary
            (shelf.push (Day.new claimed path diary.settings)) rest
          rcases List.mem_cons.mp h with hfirst | hrest
          · cases hfirst
            have hlt : shelf.size < (shelf.push (Day.new claimed path diary.settings)).size := by
              simp
            refine ⟨path, List.mem_cons_self, .inr ⟨hkept, Nat.le_refl _,
              Nat.lt_of_lt_of_le hlt hlater.size_le, ?_⟩⟩
            rw [hlater.day_eq _ hlt, Shelf.day_push_size]
          · obtain ⟨path, hpath, hday⟩ := ih hrest
            refine ⟨path, List.mem_cons_of_mem _ hpath, ?_⟩
            rcases hday with hday | ⟨hnone, hge, hlt, hnew⟩
            · exact .inl hday
            · exact .inr ⟨hnone, Nat.le_trans hpush.size_le hge, hlt, hnew⟩

end SettleClaims

/-- The remembered days stand on the shelf under one date each. -/
structure WellFormed (diary : Diary) : Prop where
  nodup : (diary.days.map (·.1)).Nodup
  stands : ∀ {date : String} {id : DayId}, (date, id) ∈ diary.days →
    id < diary.shelf.size ∧ (diary.shelf.day id).date = date

section Refresh

variable {diary : Diary} {view : View}

theorem days_refresh (isOpen : diary.gate.isOpen view.now = true) :
    (diary.refresh view).days =
      (settleClaims diary diary.shelf (claimsOn view.disk diary.roots)).2 := by
  rw [refresh_eq, if_pos isOpen]
  rfl

theorem shelf_refresh (isOpen : diary.gate.isOpen view.now = true) :
    (diary.refresh view).shelf =
      (settleClaims diary diary.shelf (claimsOn view.disk diary.roots)).1 := by
  rw [refresh_eq, if_pos isOpen]
  rfl

/-- No refresh touches a day that was made before. -/
theorem extends_refresh (view : View) (diary : Diary) :
    diary.shelf.Extends (diary.refresh view).shelf := by
  by_cases isOpen : diary.gate.isOpen view.now = true
  · rw [shelf_refresh isOpen]
    exact extends_settleClaims _ _ _
  · rw [refresh_eq, if_neg isOpen]

theorem mem_of_kept? {date : String} {path : Path} {id : DayId}
    (h : diary.kept? (date, path) = some id) : (date, id) ∈ diary.days := by
  obtain ⟨before, after, hdays, -⟩ := List.lookup_eq_some_iff.mp (kept?_eq_some_iff.mp h).1
  rw [hdays]
  simp

theorem WellFormed.refresh (wellFormed : diary.WellFormed) (view : View) :
    (diary.refresh view).WellFormed := by
  by_cases isOpen : diary.gate.isOpen view.now = true
  · refine ⟨?_, ?_⟩
    · rw [days_refresh isOpen, keys_settleClaims]
      exact nodup_claimsOn _ _
    · intro date id hmem
      rw [days_refresh isOpen] at hmem
      have hextends := extends_refresh view diary
      obtain ⟨path, -, hkept | ⟨-, -, hlt, hnew⟩⟩ := mem_settleClaims hmem
      · obtain ⟨hlt, hdate⟩ := wellFormed.stands (mem_of_kept? hkept)
        refine ⟨Nat.lt_of_lt_of_le hlt hextends.size_le, ?_⟩
        rw [hextends.day_eq id hlt, hdate]
      · rw [← shelf_refresh isOpen] at hlt hnew
        refine ⟨hlt, ?_⟩
        rw [hnew]
        rfl
  · rw [refresh_eq, if_neg isOpen]
    exact wellFormed

/-- A call of one of the days changes what this day remembers, and no date. -/
theorem WellFormed.callDay (wellFormed : diary.WellFormed) (view : View) (id : DayId)
    (call : Day.Call) :
    WellFormed { diary with
      shelf := diary.shelf.replace id (call.after view (diary.shelf.day id)) } where
  nodup := wellFormed.nodup
  stands := by
    intro date other hmem
    obtain ⟨hlt, hdate⟩ := wellFormed.stands hmem
    refine ⟨by simpa [Shelf.replace] using hlt, ?_⟩
    simp only [Shelf.day_replace]
    split
    next hsame =>
      obtain ⟨rfl, -⟩ := hsame
      have named : (diary.shelf.day id).Named date (diary.shelf.day id).directory
          (diary.shelf.day id).settings := ⟨hdate, rfl, rfl⟩
      exact (named.after view call).date_eq
    · exact hdate

end Refresh

/-- The diaries that refreshes and calls of their days lead to from a new one; the disk, the
reader and the moment may be different each time. -/
inductive Reached (roots : List Path) (settings : DaySettings) (cooldown : Nat) :
    Diary → Prop where
  | new : Reached roots settings cooldown (Diary.new roots settings cooldown)
  | refresh {diary : Diary} (view : View) :
      Reached roots settings cooldown diary →
      Reached roots settings cooldown (diary.refresh view)
  | callDay {diary : Diary} (view : View) (id : DayId) (call : Day.Call) :
      Reached roots settings cooldown diary →
      Reached roots settings cooldown { diary with
        shelf := diary.shelf.replace id (call.after view (diary.shelf.day id)) }

section Reached

variable {roots : List Path} {settings : DaySettings} {cooldown : Nat} {diary : Diary}

theorem Reached.wellFormed (reached : Reached roots settings cooldown diary) :
    diary.WellFormed := by
  induction reached with
  | new => exact ⟨List.nodup_nil, fun h => by cases h⟩
  | refresh view _ ih => exact ih.refresh view
  | callDay view id call _ ih => exact ih.callDay view id call

theorem Reached.roots_eq (reached : Reached roots settings cooldown diary) :
    diary.roots = roots ∧ diary.settings = settings := by
  induction reached with
  | new => exact ⟨rfl, rfl⟩
  | refresh view _ ih =>
      rw [refresh_eq]
      split <;> exact ih
  | callDay view id call _ ih => exact ih

end Reached

/-- What becomes of a diary when it is brought in line with a disk. A day that had the
claimed directory before is the same day with all that it remembers; any other stands
under a new number and remembers nothing. -/
structure Reflects (roots : List Path) (settings : DaySettings) (disk : Disk)
    (before after : Diary) : Prop where
  nodup : (after.days.map (·.1)).Nodup
  dates : ∀ date, date ∈ after.days.map (·.1) ↔ Naming.IsWrittenDate date ∧
    ∃ root ∈ roots, (∃ names, disk.list root = .ok names ∧ date ∈ names) ∧
      disk.isDirectory (root.join date) = true
  day : ∀ date id, (date, id) ∈ after.days →
    ∃ root, roots.find? (holdsDayOn disk date) = some root ∧
      (after.shelf.day id).date = date ∧
      (after.shelf.day id).directory.same (root.join date) = true ∧
      (before.days.lookup date = some id ∧ id < before.shelf.size ∧
          after.shelf.day id = before.shelf.day id ∨
        (∀ old, before.days.lookup date = some old →
            (before.shelf.day old).directory.same (root.join date) = false) ∧
          before.shelf.size ≤ id ∧
          after.shelf.day id = Day.new date (root.join date) settings)
  shelf : before.shelf.Extends after.shelf

section Reflects

variable {diary : Diary} {view : View}

theorem directory_same_of_kept?_eq_none {date : String} {path : Path} {old : DayId}
    (h : diary.kept? (date, path) = none) (hold : diary.days.lookup date = some old) :
    (diary.shelf.day old).directory.same path = false := by
  refine Bool.eq_false_iff.mpr fun hsame => ?_
  rw [kept?_eq_some_iff.mpr ⟨hold, hsame⟩] at h
  cases h

theorem mem_dates_refresh_iff (isOpen : diary.gate.isOpen view.now = true) {date : String} :
    date ∈ (diary.refresh view).days.map (·.1) ↔ Naming.IsWrittenDate date ∧
      ∃ root ∈ diary.roots, (∃ names, view.disk.list root = .ok names ∧ date ∈ names) ∧
        view.disk.isDirectory (root.join date) = true := by
  rw [days_refresh isOpen, keys_settleClaims, mem_keys_claimsOn_iff]
  simp only [holdsDayOn_iff]
  constructor
  · intro h
    rcases h with ⟨root, hroot, hdate, hday⟩
    exact ⟨hdate, root, hroot, hday⟩
  · intro h
    rcases h with ⟨hdate, root, hroot, hday⟩
    exact ⟨root, hroot, hdate, hday⟩

theorem WellFormed.reflects_refresh (wellFormed : diary.WellFormed)
    (isOpen : diary.gate.isOpen view.now = true) :
    Reflects diary.roots diary.settings view.disk diary (diary.refresh view) where
  nodup := (wellFormed.refresh view).nodup
  dates _ := mem_dates_refresh_iff isOpen
  shelf := extends_refresh view diary
  day := by
    intro date id hmem
    have hextends := extends_refresh view diary
    have hdate := ((wellFormed.refresh view).stands hmem).2
    rw [days_refresh isOpen] at hmem
    obtain ⟨path, hclaim, hday⟩ := mem_settleClaims hmem
    obtain ⟨root, hroot, rfl⟩ := mem_claimsOn_iff.mp hclaim
    refine ⟨root, hroot, hdate, ?_⟩
    rcases hday with hkept | ⟨hnone, hge, -, hnew⟩
    · obtain ⟨hlookup, hsame⟩ := kept?_eq_some_iff.mp hkept
      have hlt := (wellFormed.stands (mem_of_kept? hkept)).1
      have hstays := hextends.day_eq id hlt
      refine ⟨?_, .inl ⟨hlookup, hlt, hstays⟩⟩
      rw [hstays]
      exact hsame
    · rw [← shelf_refresh isOpen] at hnew
      refine ⟨?_, .inr ⟨fun _ => directory_same_of_kept?_eq_none hnone, hge, hnew⟩⟩
      rw [hnew]
      exact Path.same_self _

/-- The claims are all that a refresh takes from the disk. -/
theorem refresh_congr {other : Disk}
    (h : claimsOn other diary.roots = claimsOn view.disk diary.roots) :
    diary.refresh { view with disk := other } = diary.refresh view := by
  simp only [refresh_eq, h]

end Reflects

/-- A refresh behind an open gate brings every diary that calls lead to in line with its
roots, and the order in which a root is listed does not count. -/
theorem Reached.refresh_reflects_roots {roots : List Path} {settings : DaySettings}
    {cooldown : Nat} {diary : Diary} (reached : Reached roots settings cooldown diary)
    {view : View} (isOpen : diary.gate.isOpen view.now = true) :
    Reflects roots settings view.disk diary (diary.refresh view) ∧
      ∀ other : Disk, (∀ root ∈ roots, ListsSame view.disk other root) →
        diary.refresh { view with disk := other } = diary.refresh view := by
  obtain ⟨rfl, rfl⟩ := reached.roots_eq
  refine ⟨reached.wellFormed.reflects_refresh isOpen, ?_⟩
  intro other same
  apply refresh_congr
  exact claimsOn_congr fun date root hroot => (same root hroot).holdsDayOn_eq date

section Album

open Naming (thumbnailFile)
open Disk (Stands)

def blankFile : Tree := .file ByteArray.empty ⟨0, 0⟩

def albumDisk (first second : List (String × Tree)) : Disk where
  root := .directory [("a", .directory first), ("b", .directory second)]

def albumRoots : List Path := [⟨"/a"⟩, ⟨"/b"⟩]

def novemberFiles : List (String × Tree) :=
  [("rabbit-2022-11-01-5.png", blankFile),
    ("event-2022-11-01-5.txt", .file "carrots".toUTF8 ⟨0, 0⟩), (thumbnailFile, blankFile)]

def decemberFiles : List (String × Tree) :=
  [("rabbit-2022-12-24-7.png", blankFile), (thumbnailFile, blankFile)]

def christmasFiles : List (String × Tree) :=
  [("rabbit-2022-12-25-0.png", blankFile), ("rabbit-2022-12-25-23.png", blankFile)]

def albumFirst : List (String × Tree) :=
  [("2022-12-24", .directory decemberFiles), ("2022-11-01", .directory novemberFiles)]

/-- A day without a strip, and a directory of another name. -/
def albumSecond : List (String × Tree) :=
  [("old", .directory []), ("2022-12-25", .directory christmasFiles)]

def earlierAlbum : Disk :=
  albumDisk [("2022-11-01", .directory [])]
    [("2022-12-24", .directory []), ("2022-10-31", .directory [])]

def albumView : View where
  reader := Reader.files
  now := 60000000000
  disk := albumDisk albumFirst albumSecond

/-- A diary that was opened a minute before. -/
def earlierDiary : Diary :=
  (Diary.new albumRoots {} 60).refresh ⟨⟨Reader.files, 0⟩, earlierAlbum⟩

variable {first second children : List (String × Tree)} {name : String}

theorem stands_first : Stands (albumDisk first second) ⟨"/a"⟩ ["a"] first := ⟨by cbv, by cbv⟩

theorem stands_second : Stands (albumDisk first second) ⟨"/b"⟩ ["b"] second := ⟨by cbv, by cbv⟩

def albumNames : List String := ["2022-10-31", "2022-11-01", "2022-12-24", "2022-12-25", "old"]

/-- A directory in one of the two. -/
theorem stands_album {disk : Disk} {root : Path} {place : Location}
    (stands : Stands disk root place first) (hroot : root ∈ albumRoots) (hname : name ∈ albumNames)
    (h : Tree.lookup name first = some (.directory children)) :
    Stands disk (root.join name) (place ++ [name]) children := by
  have fine : ∀ name ∈ albumNames, '/' ∉ name.toList ∧
      Path.Step.ofPiece name.toList = .into name ∧ '\x00' ∉ name.toList ∧
        name.utf8ByteSize ≤ Disk.nameLimit ∧ name.utf8ByteSize ≤ 10 := by decide
  have short : ∀ root ∈ albumRoots, root.text.utf8ByteSize = 2 := by decide
  have limit : 20 < Disk.pathLimit := by decide
  obtain ⟨hslash, hstep, hzero, hsize, hten⟩ := fine name hname
  have htwo := short root hroot
  have speakable := stands.speakable.join ⟨hslash, hstep⟩ hzero (by omega)
  exact stands.child ⟨hslash, hstep⟩ speakable hsize h

theorem isDirectory_album {disk : Disk} {root : Path} {place : Location}
    (stands : Stands disk root place first) (hroot : root ∈ albumRoots) (hname : name ∈ albumNames)
    (h : Tree.lookup name first = some (.directory children)) :
    disk.isDirectory (root.join name) = true :=
  (stands_album stands hroot hname h).isDirectory

theorem claimsOn_earlierAlbum : claimsOn earlierAlbum albumRoots =
    [("2022-10-31", ⟨"/b/2022-10-31"⟩), ("2022-11-01", ⟨"/a/2022-11-01"⟩),
      ("2022-12-24", ⟨"/b/2022-12-24"⟩)] := by
  have stands : Stands earlierAlbum ⟨"/a"⟩ ["a"] _ := stands_first
  have stands' : Stands earlierAlbum ⟨"/b"⟩ ["b"] _ := stands_second
  have hnovember := isDirectory_album stands (by decide) (by decide : "2022-11-01" ∈ _) rfl
  have hdecember := isDirectory_album stands' (by decide) (by decide : "2022-12-24" ∈ _) rfl
  have hoctober := isDirectory_album stands' (by decide) (by decide : "2022-10-31" ∈ _) rfl
  have hdays : Naming.isDayName "2022-11-01" ∧ Naming.isDayName "2022-12-24" ∧
      Naming.isDayName "2022-10-31" := by decide
  have hjoin : Path.join ⟨"/a"⟩ "2022-11-01" = ⟨"/a/2022-11-01"⟩ ∧
      Path.join ⟨"/b"⟩ "2022-12-24" = ⟨"/b/2022-12-24"⟩ ∧
      Path.join ⟨"/b"⟩ "2022-10-31" = ⟨"/b/2022-10-31"⟩ := by decide
  rw [hjoin.1] at hnovember
  rw [hjoin.2.1] at hdecember
  rw [hjoin.2.2] at hoctober
  simp [claimsOn, claims, claimsOfRoot, albumRoots, stands.list_eq, stands'.list_eq,
    Except.toOption, hdays, hjoin, hnovember, hdecember, hoctober, List.mergeSort,
    List.MergeSort.Internal.splitInTwo]

theorem join_albumDays : Path.join ⟨"/a"⟩ "2022-11-01" = ⟨"/a/2022-11-01"⟩ ∧
    Path.join ⟨"/a"⟩ "2022-12-24" = ⟨"/a/2022-12-24"⟩ ∧
    Path.join ⟨"/b"⟩ "2022-12-25" = ⟨"/b/2022-12-25"⟩ := by
  decide

/-- The days of the album are there. -/
theorem stands_albumDays :
    Stands albumView.disk ⟨"/a/2022-11-01"⟩ ["a", "2022-11-01"] novemberFiles ∧
      Stands albumView.disk ⟨"/a/2022-12-24"⟩ ["a", "2022-12-24"] decemberFiles ∧
      Stands albumView.disk ⟨"/b/2022-12-25"⟩ ["b", "2022-12-25"] christmasFiles := by
  rw [← join_albumDays.1, ← join_albumDays.2.1, ← join_albumDays.2.2]
  have stands : Stands albumView.disk ⟨"/a"⟩ ["a"] albumFirst := stands_first
  have stands' : Stands albumView.disk ⟨"/b"⟩ ["b"] albumSecond := stands_second
  exact ⟨stands_album stands (by decide) (by decide) rfl,
    stands_album stands (by decide) (by decide) rfl,
    stands_album stands' (by decide) (by decide) rfl⟩

theorem claimsOn_album : claimsOn albumView.disk albumRoots =
    [("2022-11-01", ⟨"/a/2022-11-01"⟩), ("2022-12-24", ⟨"/a/2022-12-24"⟩),
      ("2022-12-25", ⟨"/b/2022-12-25"⟩)] := by
  have hlist : albumView.disk.list ⟨"/a"⟩ = .ok ["2022-12-24", "2022-11-01"] :=
    stands_first.list_eq
  have hlist' : albumView.disk.list ⟨"/b"⟩ = .ok ["old", "2022-12-25"] := stands_second.list_eq
  obtain ⟨hnovember, hdecember, hchristmas⟩ := stands_albumDays
  have hdays : Naming.isDayName "2022-11-01" ∧ Naming.isDayName "2022-12-24" ∧
      Naming.isDayName "2022-12-25" ∧ Naming.isDayName "old" = false := by decide
  simp [claimsOn, claims, claimsOfRoot, albumRoots, hlist, hlist', Except.toOption, hdays,
    join_albumDays, hnovember.isDirectory, hdecember.isDirectory, hchristmas.isDirectory,
    List.mergeSort, List.MergeSort.Internal.splitInTwo]

theorem earlierDiary_eq :
    earlierDiary.days = [("2022-10-31", 0), ("2022-11-01", 1), ("2022-12-24", 2)] ∧
      earlierDiary.shelf = #[Day.new "2022-10-31" ⟨"/b/2022-10-31"⟩ {},
        Day.new "2022-11-01" ⟨"/a/2022-11-01"⟩ {}, Day.new "2022-12-24" ⟨"/b/2022-12-24"⟩ {}] := by
  rw [earlierDiary, days_refresh rfl, shelf_refresh rfl]
  change (settleClaims _ _ (claimsOn earlierAlbum albumRoots)).2 = _ ∧
    (settleClaims _ _ (claimsOn earlierAlbum albumRoots)).1 = _
  rw [claimsOn_earlierAlbum]
  exact ⟨rfl, rfl⟩

theorem isOpen_earlierDiary : earlierDiary.gate.isOpen albumView.now = true := by
  have hgate : earlierDiary.gate = ⟨60, some 0⟩ := rfl
  rw [hgate]
  decide

/-- One day is kept, one has moved to another directory, one is new and one is gone. -/
theorem refresh_earlierDiary :
    (earlierDiary.refresh albumView).days =
        [("2022-11-01", 1), ("2022-12-24", 3), ("2022-12-25", 4)] ∧
      (earlierDiary.refresh albumView).shelf = earlierDiary.shelf ++
        #[Day.new "2022-12-24" ⟨"/a/2022-12-24"⟩ {},
          Day.new "2022-12-25" ⟨"/b/2022-12-25"⟩ {}] := by
  obtain ⟨hdays, hshelf⟩ := earlierDiary_eq
  rw [days_refresh isOpen_earlierDiary, shelf_refresh isOpen_earlierDiary]
  change (settleClaims _ _ (claimsOn albumView.disk albumRoots)).2 = _ ∧
    (settleClaims _ _ (claimsOn albumView.disk albumRoots)).1 = _
  rw [claimsOn_album]
  have hkept : earlierDiary.kept? ("2022-11-01", ⟨"/a/2022-11-01"⟩) = some 1 := by
    refine kept?_eq_some_iff.mpr ⟨by rw [hdays]; decide, ?_⟩
    rw [hshelf]
    exact Path.same_self _
  have hmoved : earlierDiary.kept? ("2022-12-24", ⟨"/a/2022-12-24"⟩) = none := by
    have hlookup : earlierDiary.days.lookup "2022-12-24" = some 2 := by rw [hdays]; decide
    have happart : (earlierDiary.shelf.day 2).directory.same ⟨"/a/2022-12-24"⟩ = false := by
      rw [hshelf]
      change Path.same ⟨"/b/2022-12-24"⟩ ⟨"/a/2022-12-24"⟩ = false
      decide
    simp only [kept?, hlookup, happart]
    rfl
  have hnew : earlierDiary.kept? ("2022-12-25", ⟨"/b/2022-12-25"⟩) = none := by
    have hlookup : earlierDiary.days.lookup "2022-12-25" = none := by rw [hdays]; decide
    simp only [kept?, hlookup]
  simp only [settleClaims, hkept, hmoved, hnew, hshelf]
  exact ⟨rfl, rfl⟩

theorem day_refresh_earlierDiary :
    (earlierDiary.refresh albumView).shelf.day 1 = Day.new "2022-11-01" ⟨"/a/2022-11-01"⟩ {} ∧
      (earlierDiary.refresh albumView).shelf.day 3 = Day.new "2022-12-24" ⟨"/a/2022-12-24"⟩ {} ∧
      (earlierDiary.refresh albumView).shelf.day 4 =
        Day.new "2022-12-25" ⟨"/b/2022-12-25"⟩ {} := by
  rw [refresh_earlierDiary.2, earlierDiary_eq.2]
  exact ⟨rfl, rfl, rfl⟩

theorem listsSame_of_perm {disk other : Disk} {root : Path} {place : Location}
    (stands : Stands disk root place first) (stands' : Stands other root place second)
    (perm : first.Perm second) (directories : ∀ name ∈ first.map (·.1),
      disk.isDirectory (root.join name) = true ∧ other.isDirectory (root.join name) = true) :
    ListsSame disk other root where
  names := by
    rw [stands.list_eq, stands'.list_eq]
    exact .some (perm.map _)
  directories listed hlisted name hname := by
    obtain rfl := Except.ok.inj (stands.list_eq.symm.trans hlisted)
    obtain ⟨hdirectory, hother⟩ := directories name hname
    rw [hdirectory, hother]

/-- The album with its directories listed in another order. -/
def albumReversed : Disk := albumDisk albumFirst.reverse albumSecond.reverse

theorem listsSame_album {root : Path} (h : root ∈ albumRoots) :
    ListsSame albumView.disk albumReversed root := by
  simp only [albumRoots, List.mem_cons, List.not_mem_nil, or_false] at h
  rcases h with rfl | rfl
  · refine listsSame_of_perm stands_first stands_first (List.reverse_perm _).symm fun name h => ?_
    simp only [albumFirst, List.map_cons, List.map_nil, List.mem_cons, List.not_mem_nil,
      or_false] at h
    rcases h with rfl | rfl <;>
      exact ⟨isDirectory_album stands_first (by decide) (by decide) rfl,
        isDirectory_album stands_first (by decide) (by decide) rfl⟩
  · refine listsSame_of_perm stands_second stands_second (List.reverse_perm _).symm fun name h => ?_
    simp only [albumSecond, List.map_cons, List.map_nil, List.mem_cons, List.not_mem_nil,
      or_false] at h
    rcases h with rfl | rfl <;>
      exact ⟨isDirectory_album stands_second (by decide) (by decide) rfl,
        isDirectory_album stands_second (by decide) (by decide) rfl⟩

theorem reached_earlierDiary : Reached albumRoots {} 60 earlierDiary := .refresh _ .new

theorem Reached.refresh_reflects_roots_album :
    let refreshed := earlierDiary.refresh albumView
    Reflects albumRoots {} albumView.disk earlierDiary refreshed ∧
      earlierDiary.refresh { albumView with disk := albumReversed } = refreshed ∧
      earlierDiary.days = [("2022-10-31", 0), ("2022-11-01", 1), ("2022-12-24", 2)] ∧
      refreshed.days = [("2022-11-01", 1), ("2022-12-24", 3), ("2022-12-25", 4)] ∧
      refreshed.shelf.day 1 = earlierDiary.shelf.day 1 := by
  intro refreshed
  obtain ⟨reflects, sameInAnyOrder⟩ :=
    Reached.refresh_reflects_roots reached_earlierDiary isOpen_earlierDiary
  refine ⟨reflects, sameInAnyOrder _ fun _ => listsSame_album, earlierDiary_eq.1,
    refresh_earlierDiary.1, reflects.shelf.day_eq 1 ?_⟩
  rw [earlierDiary_eq.2]
  decide

end Album

end Diary

end DrawingDiary
