import DrawingDiary.Proofs.Disk.Hosts
import DrawingDiary.Proofs.Site.Contents

/-!
# Filling a target, however that ends

Once its target was made, all that making a site writes goes to the path of the target joined
with a name, and so to the directory that this path leads to (`Disk.Hosts`). Nothing is written
behind a name that is taken, so what is beside the directory is never touched, also not what a
link in it leads to. Every step keeps this, whether it answers or fails (`Filling`); only while
an old page is being replaced, the path is not known to lead to the directory (`Cleared`).
-/

namespace DrawingDiary.Site

open Disk (AddsOn Grown Hosts Stands)
open Naming (IsWrittenMonth)
open DrawingDiary.Path (PlainName)

namespace Attempt

variable {α β : Type} {inv : Disk → Prop}

/-- However the attempt ends, it keeps a property of the disk. -/
def Keeps (inv : Disk → Prop) (attempt : Attempt α) : Prop :=
  ∀ s, inv s.1 → inv (attempt s).state.1

theorem Keeps.bind {first : Attempt α} {next : α → Attempt β} (hfirst : first.Keeps inv)
    (hnext : ∀ a, (next a).Keeps inv) : (first >>= next).Keeps inv := by
  intro s hs
  rw [state_bind]
  split
  · exact hnext _ _ (hfirst s hs)
  · exact hfirst s hs

theorem keeps_pure (a : α) : Keeps inv (pure a : Attempt α) := fun _ h => h

theorem keeps_onShelf (setting : Setting) (run : View → Run Shelf α) :
    Keeps inv (onShelf setting run) := fun _ h => h

theorem Keeps.gets {attempt : Attempt α} (h : attempt.Keeps inv) {stop : Disk × Diary → Prop}
    (hstop : ∀ s, inv s.1 → stop s) :
    Gets stop (fun s => inv s.1) attempt fun _ s => inv s.1 := by
  intro s hs
  have hafter := h s hs
  split
  · exact hafter
  · exact hstop _ hafter

end Attempt

variable {made before after disk : Disk} {source target : Path} {place changed : Location}
  {name : String} {stop : Disk × Diary → Prop}

/-- What is not in the directory is as it was, and nothing new is there. -/
abbrev KeepsOutside (place : Location) (made disk : Disk) : Prop :=
  AddsOn (fun other => ¬ place <+: other) (fun _ _ => False) made disk

theorem keepsOutside_of_change (h : place <+: changed) {new : Option Tree}
    (workingDirectory : after.workingDirectory = before.workingDirectory)
    (root : after.root = before.root.setAt changed new) : KeepsOutside place before after where
  workingDirectory_eq := workingDirectory
  stands hother hat := by
    rw [Disk.at?, root]
    exact (Disk.keptOn_setAt before changed new).stands (fun hbelow => hother (h.trans hbelow)) hat
  stood hother hat := by
    rw [Disk.at?, root] at hat
    exact .inl ((Disk.keptOn_of_setAt before changed new).stands
      (fun hbelow => hother (h.trans hbelow)) hat)

/-- The target is the directory it was when it was made, and only there anything has changed. -/
structure Filling (made : Disk) (target : Path) (place : Location) (disk : Disk) : Prop where
  hosts : Hosts disk target place
  keeps : KeepsOutside place made disk

theorem filling_of_hosts (hosts : Hosts made target place) : Filling made target place made :=
  ⟨hosts, .refl made⟩

theorem Filling.of_change (filling : Filling made target place disk) (h : place <+: changed)
    {new : Option Tree} (grown : Grown disk after)
    (root : after.root = disk.root.setAt changed new) : Filling made target place after where
  hosts := filling.hosts.of_grown grown
  keeps := filling.keeps.trans (keepsOutside_of_change h grown.workingDirectory_eq root)

theorem Filling.makeLink (filling : Filling made target place disk) (plain : PlainName name)
    {path : Path} (h : disk.makeLink (target.join name) path = .ok after) :
    Filling made target place after := by
  have grown := Disk.grown_of_makeLink h
  obtain ⟨place', hosts, -, rfl⟩ := Disk.exists_hosts_of_makeLink plain h
  obtain rfl := hosts.unique filling.hosts
  exact filling.of_change (List.prefix_append place' [name]) grown rfl

theorem Filling.linkAssets {names : List String} (plain : ∀ name ∈ names, PlainName name)
    (filling : Filling made target place disk) :
    Filling made target place (linkAssets source target names disk).1 := by
  induction names generalizing disk with
  | nil => exact filling
  | cons name rest ih =>
      obtain ⟨hname, hrest⟩ := List.forall_mem_cons.mp plain
      unfold Site.linkAssets
      split
      next linked hlink => exact ih hrest (filling.makeLink hname hlink)
      · exact filling

theorem gets_linkTemplate (hosts : Hosts made target place)
    (plain : ∀ names, made.list source = .ok names → ∀ name ∈ names, PlainName name)
    (hstop : ∀ s, KeepsOutside place made s.1 → stop s) :
    Attempt.Gets stop (fun s => s.1 = made) (linkTemplate source target)
      fun _ s => Filling made target place s.1 := by
  have hstate : Attempt.Gets stop (fun s => s.1 = made) (ExceptT.lift Run.state)
      fun seen s => seen.1 = made ∧ s.1 = made := fun s h => ⟨h, h⟩
  refine Attempt.Gets.bind hstate ?_
  rintro ⟨disk, diary⟩
  simp only
  split
  · rintro s ⟨-, hs⟩
    exact hstop s (hs ▸ .refl s.1)
  next names hlist =>
    refine Attempt.Gets.bind (Attempt.gets_onDiskWith (fun s => Filling made target place s.1) ?_)
      fun _ => Attempt.gets_pure fun _ h => h
    rintro s ⟨rfl, hs⟩
    have filling : Filling disk target place
        (linkAssets source target (assetNames names) s.1).1 := by
      rw [hs]
      refine (filling_of_hosts hosts).linkAssets fun name hname => ?_
      exact plain names hlist name (List.mem_mergeSort.mp (List.mem_of_mem_filter hname))
    exact ⟨hstop _ filling.keeps, fun _ => filling⟩

theorem Filling.writeMonthPage (written : IsWrittenMonth name)
    (filling : Filling made target place disk) (lines : List String) :
    Filling made target place (writeMonthPage (target.join name) lines disk).1 := by
  unfold Site.writeMonthPage
  split
  · exact filling
  next month hmonth =>
    have grown := Disk.grown_of_makeDirectory hmonth
    obtain ⟨place', hosts, -, hput, stands⟩ :=
      Disk.exists_hosts_of_makeDirectory written.plainName hmonth
    obtain rfl := hosts.unique filling.hosts
    have fillingMonth : Filling made target place' month :=
      filling.of_change (List.prefix_append place' [name]) grown (congrArg Disk.root hput)
    split
    · exact fillingMonth
    next page hpage =>
      have grownPage := Disk.grown_of_writeNewFile hpage
      obtain ⟨-, rfl⟩ := stands.eq_of_writeNewFile plainName_indexFile hpage
      refine fillingMonth.of_change ?_ grownPage rfl
      rw [List.append_assoc]
      exact List.prefix_append place' _

theorem keeps_monthPages {setting : Setting} {template : List String} {months : List Month}
    {names : List String} (written : ∀ name ∈ names, IsWrittenMonth name) :
    (monthPages setting target template months names).Keeps (Filling made target place) := by
  induction names with
  | nil => exact Attempt.keeps_pure []
  | cons month rest ih =>
      obtain ⟨hmonth, hrest⟩ := List.forall_mem_cons.mp written
      have hpage : (monthPage setting target template months month).Keeps
          (Filling made target place) :=
        (Attempt.keeps_onShelf setting _).bind fun lines _ filling =>
          filling.writeMonthPage hmonth lines
      exact hpage.bind fun _ => (ih hrest).bind fun _ => Attempt.keeps_pure _

/-- An old page was removed, and there is no other directory that the target could be. -/
structure Cleared (made : Disk) (target : Path) (place : Location) (disk : Disk) : Prop where
  unique : ∀ other, Hosts disk target other → other = place
  keeps : KeepsOutside place made disk

theorem Filling.removeOldPage (filling : Filling made target place disk)
    (h : (if disk.pathExists (target.join indexFile) then disk.removeFile (target.join indexFile)
      else .ok disk) = .ok after) : Cleared made target place after := by
  split at h
  · obtain ⟨place', hosts, rfl⟩ := Disk.exists_hosts_of_removeFile plainName_indexFile h
    obtain rfl := hosts.unique filling.hosts
    have shrunk := Disk.grown_of_removed disk (place' ++ [indexFile])
    exact ⟨fun other hother => (hother.of_grown shrunk).unique hosts,
      filling.keeps.trans (keepsOutside_of_change (List.prefix_append _ _) rfl rfl)⟩
  · cases h
    exact ⟨fun other hother => hother.unique filling.hosts, filling.keeps⟩

theorem Cleared.writeNewFile (cleared : Cleared made target place disk) {content : ByteArray}
    (h : disk.writeNewFile (target.join indexFile) content = .ok after) :
    Filling made target place after := by
  have grown := Disk.grown_of_writeNewFile h
  obtain ⟨place', hosts, -, rfl⟩ := Disk.exists_hosts_of_writeNewFile plainName_indexFile h
  obtain rfl := cleared.unique place' hosts
  exact ⟨hosts.of_grown grown,
    cleared.keeps.trans (keepsOutside_of_change (List.prefix_append _ _) rfl rfl)⟩

theorem gets_rootPage_of_filling {setting : Setting} {template : List String}
    {months : List Month} (hstop : ∀ s, KeepsOutside place made s.1 → stop s) :
    Attempt.Gets stop (fun s => Filling made target place s.1)
      (rootPage setting target template months) fun _ s => Filling made target place s.1 := by
  have hold : Attempt.Gets stop (fun s => Filling made target place s.1)
      (Attempt.onDisk (.oldPageNotRemoved (target.join indexFile)) fun disk =>
        if disk.pathExists (target.join indexFile) then disk.removeFile (target.join indexFile)
        else .ok disk) fun _ s => Cleared made target place s.1 :=
    Attempt.gets_onDisk fun s filling =>
      ⟨hstop s filling.keeps, fun _ hstep => filling.removeOldPage hstep⟩
  refine Attempt.Gets.bind hold fun _ => ?_
  refine Attempt.Gets.bind ((Attempt.keeps_onShelf setting _).gets fun s cleared =>
    hstop s cleared.keeps) fun lines => ?_
  exact Attempt.gets_onDisk fun s cleared =>
    ⟨hstop s cleared.keeps, fun _ hwritten => cleared.writeNewFile hwritten⟩

theorem gets_linkDiary {diaryDirectory : Path}
    (hstop : ∀ s, KeepsOutside place made s.1 → stop s) :
    Attempt.Gets stop (fun s => Filling made target place s.1)
      (Attempt.onDisk .disk fun disk =>
        disk.makeLink (target.join PageTarget.drawingsDirectory) diaryDirectory)
      fun _ s => Filling made target place s.1 :=
  Attempt.gets_onDisk fun s filling =>
    ⟨hstop s filling.keeps, fun _ hlink => filling.makeLink plainName_drawingsDirectory hlink⟩

/-- The steps of making a site once its target was made. -/
def fillTarget (setting : Setting) (layout : SiteLayout) (diary : Diary) (days created : Nat) :
    Attempt Summary := do
  let assets ← linkTemplate layout.templateDirectory layout.targetDirectory
  let (disk, _) ← ExceptT.lift Run.state
  let template ← match loadTemplate disk (layout.templateDirectory.join indexFile) with
    | .ok lines => pure lines
    | .error e => throw (.disk e)
  let names := diary.months.map (·.name)
  let failed ← monthPages setting layout.targetDirectory template diary.months names
  rootPage setting layout.targetDirectory template diary.months
  Attempt.onDisk .disk fun disk =>
    disk.makeLink (layout.targetDirectory.join PageTarget.drawingsDirectory) layout.diaryDirectory
  return ⟨days, created, diary.size, assets, names, failed⟩

theorem generate_eq_fillTarget (setting : Setting) (layout : SiteLayout) :
    generate setting layout = (do
      let (days, created) ← ExceptT.lift (Diary.materializeThumbnails setting)
      let (_, diary) ← ExceptT.lift Run.state
      deleteTarget layout.targetDirectory
      createTarget layout.targetDirectory
      fillTarget setting layout diary days created) := rfl

/-- Filling a target changes nothing outside of the directory that it is. -/
theorem gets_fillTarget (setting : Setting) {layout : SiteLayout}
    (hosts : Hosts made layout.targetDirectory place)
    (plain : ∀ names, made.list layout.templateDirectory = .ok names →
      ∀ name ∈ names, PlainName name) {diary : Diary}
    (written : ∀ name ∈ diary.months.map (·.name), IsWrittenMonth name) (days created : Nat)
    (hstop : ∀ s, KeepsOutside place made s.1 → stop s) :
    Attempt.Gets stop (fun s => s.1 = made) (fillTarget setting layout diary days created)
      fun _ => stop := by
  have hfilling : ∀ s : Disk × Diary, Filling made layout.targetDirectory place s.1 → stop s :=
    fun s filling => hstop s filling.keeps
  have hstate : Attempt.Keeps (Filling made layout.targetDirectory place)
      (ExceptT.lift Run.state) := fun _ h => h
  refine Attempt.Gets.bind (gets_linkTemplate hosts plain hstop) fun assets => ?_
  refine Attempt.Gets.bind (hstate.gets hfilling) ?_
  rintro ⟨disk, _⟩
  simp only
  split
  · refine Attempt.Gets.bind ((Attempt.keeps_pure _).gets hfilling) fun template => ?_
    refine Attempt.Gets.bind ((keeps_monthPages written).gets hfilling) fun failed => ?_
    refine Attempt.Gets.bind (gets_rootPage_of_filling hstop) fun _ => ?_
    refine Attempt.Gets.bind (gets_linkDiary hstop) fun _ => ?_
    exact Attempt.gets_pure hfilling
  · exact hfilling

end DrawingDiary.Site
