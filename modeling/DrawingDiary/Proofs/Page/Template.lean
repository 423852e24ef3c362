import DrawingDiary.Page.Template
import DrawingDiary.Proofs.Disk.Standing
import Mathlib

/-!
# Which file a template is read from

A template remembers where its file was found. When it is read, the file there is taken as long
as there is one, and else the first one in the order of the directories; this is
`Reached.readLines_answers`, for whatever was done with the template and the disk before. There
is one condition: where the remembered path leads to something other than a file, or where
something other than a directory stands in its way, the directories are not searched again and
the read fails (`Blocked`). A read has four courses, one for each of the lemmas on `readLines`
below.
-/

namespace DrawingDiary

section Load

variable {disk : Disk} {path : Path}

theorem exists_readBytes_of_isFile (h : disk.isFile path = true) :
    ∃ content, disk.readBytes path = .ok content := by
  obtain ⟨place, content, modified, hresolve, hat⟩ := Disk.isFile_iff.mp h
  exact ⟨content, Disk.readBytes_eq_ok_iff.mpr ⟨place, modified, hresolve, hat⟩⟩

theorem loadTemplate_of_isFile (h : disk.isFile path = true)
    (valid : ∀ content, disk.readBytes path = .ok content → content.IsValidUTF8) :
    ∃ text, disk.readText path = .ok text ∧
      loadTemplate disk path = .ok (Text.splitLines text) := by
  obtain ⟨content, hcontent⟩ := exists_readBytes_of_isFile h
  have htext : disk.readText path = .ok ⟨content, valid content hcontent⟩ := by
    have hdecoded : String.fromUTF8? content = some ⟨content, valid content hcontent⟩ :=
      dif_pos (valid content hcontent)
    rw [Disk.readText, hcontent]
    simp only [bind, Except.bind, hdecoded]
    rfl
  exact ⟨_, htext, by rw [loadTemplate, htext]; rfl⟩

theorem loadTemplate_ne_notFound_of_isFile (h : disk.isFile path = true) :
    loadTemplate disk path ≠ .error .notFound := by
  obtain ⟨content, hcontent⟩ := exists_readBytes_of_isFile h
  rw [loadTemplate, Disk.readText, hcontent]
  simp only [bind, Except.bind]
  cases String.fromUTF8? content <;>
    simp [Except.map, pure, Except.pure, throw, throwThe, MonadExceptOf.throw]

/-- What is no file cannot be loaded, and it counts as missing when nothing stands there. -/
theorem loadTemplate_of_not_isFile (h : disk.isFile path = false) :
    ∃ e, loadTemplate disk path = .error e ∧
      (e = .notFound ↔ disk.stat path = .error .notFound) := by
  cases hstat : disk.stat path with
  | error e =>
      refine ⟨e, ?_, by simp⟩
      rw [loadTemplate, Disk.readText, Disk.readBytes, hstat]
      rfl
  | ok tree =>
      refine ⟨.isADirectory, ?_, by simp⟩
      rw [loadTemplate, Disk.readText, Disk.readBytes, hstat]
      cases tree with
      | file content modified => simp [Disk.isFile, hstat] at h
      | directory children => rfl
      | link target => rfl

end Load

namespace FileTemplate

/-- The paths that the file may be at, in the order in which they are searched. -/
def candidates (directories : List Path) (fileName : String) : List Path :=
  directories.map (·.join fileName)

/-- The templates that lookups and reads lead to from a new one; the disk may be another one at
each of them. -/
inductive Reached (directories : List Path) (fileName : String) : FileTemplate → Prop where
  | new : Reached directories fileName { directories := directories, fileName := fileName }
  | locate {template : FileTemplate} (disk : Disk) :
    Reached directories fileName template → Reached directories fileName (template.locate disk).2
  | readLines {template : FileTemplate} (disk : Disk) :
    Reached directories fileName template →
      Reached directories fileName (template.readLines disk).2

/-- The remembered path leads to something that is no file, or cannot lead to anything. -/
def Blocked (template : FileTemplate) (disk : Disk) : Prop :=
  ∃ path, template.found = some path ∧ disk.isFile path = false ∧
    disk.stat path ≠ .error .notFound

/-- The file to be read is the remembered one as long as it is there, and else the first one
that there is. -/
def Current (template : FileTemplate) (disk : Disk) (path : Path) : Prop :=
  template.found = some path ∧ disk.isFile path = true ∨
    (∀ old, template.found = some old → disk.isFile old = false) ∧
      template.search disk = some path

/-- A search of the directories, and a read of what it finds. -/
def searchAndRead (disk : Disk) (template : FileTemplate) :
    Except DiskError (Option (List String)) × FileTemplate :=
  match template.search disk with
  | none => (.ok none, { template with found := none })
  | some path => ((loadTemplate disk path).map some, { template with found := some path })

section ReadLines

variable {template : FileTemplate} {disk : Disk} {path : Path}

theorem isFile_of_search (h : template.search disk = some path) : disk.isFile path = true :=
  List.find?_some h

/-- What is loaded from where something is found is the answer, unless it is missing. -/
theorem readLines_of_locate {located : FileTemplate}
    (hlocate : template.locate disk = (some path, located))
    (hload : loadTemplate disk path ≠ .error .notFound) :
    template.readLines disk = ((loadTemplate disk path).map some, located) := by
  rw [readLines, hlocate]
  simp only
  split
  next lines hlines => rw [hlines]; rfl
  next hmissing => exact absurd hmissing hload
  next e _ he => rw [he]; rfl

theorem readLines_of_not_found (h : template.found = none) :
    template.readLines disk = template.searchAndRead disk := by
  have hlocate : template.locate disk =
      (template.search disk, { template with found := template.search disk }) := by
    rw [locate, h]
  rw [searchAndRead]
  cases hsearch : template.search disk with
  | none =>
      rw [hsearch] at hlocate
      rw [readLines, hlocate]
  | some path =>
      rw [hsearch] at hlocate
      exact readLines_of_locate hlocate
        (loadTemplate_ne_notFound_of_isFile (isFile_of_search hsearch))

theorem readLines_of_isFile (h : template.found = some path) (hfile : disk.isFile path = true) :
    template.readLines disk = ((loadTemplate disk path).map some, template) := by
  have hlocate : template.locate disk = (some path, template) := by rw [locate, h]
  exact readLines_of_locate hlocate (loadTemplate_ne_notFound_of_isFile hfile)

theorem readLines_of_missing (h : template.found = some path)
    (hmissing : disk.stat path = .error .notFound) :
    template.readLines disk = template.searchAndRead disk := by
  have hfile : disk.isFile path = false := by rw [Disk.isFile, hmissing]
  obtain ⟨e, hload, he⟩ := loadTemplate_of_not_isFile hfile
  rw [he.mpr hmissing] at hload
  have hlocate : template.locate disk = (some path, template) := by rw [locate, h]
  have hagain : FileTemplate.locate disk { template with found := none } =
      (template.search disk, { template with found := template.search disk }) := rfl
  rw [readLines, hlocate]
  simp only [hload, hagain, searchAndRead]
  cases template.search disk <;> rfl

theorem readLines_of_blocked (h : template.Blocked disk) :
    ∃ e, template.readLines disk = (.error e, template) := by
  obtain ⟨path, hfound, hfile, hstat⟩ := h
  obtain ⟨e, hload, he⟩ := loadTemplate_of_not_isFile hfile
  have hlocate : template.locate disk = (some path, template) := by rw [locate, hfound]
  refine ⟨e, ?_⟩
  rw [readLines_of_locate hlocate (by rw [hload]; simpa using fun h => hstat (he.mp h)), hload]
  rfl

theorem searchAndRead_of_isFile
    (some_file : ∃ path ∈ candidates template.directories template.fileName,
      disk.isFile path = true)
    (valid : ∀ path ∈ candidates template.directories template.fileName, ∀ content,
      disk.readBytes path = .ok content → content.IsValidUTF8) :
    ∃ path text, template.search disk = some path ∧ disk.readText path = .ok text ∧
      template.searchAndRead disk =
        (.ok (some (Text.splitLines text)), { template with found := some path }) := by
  obtain ⟨path, hsearch⟩ := Option.isSome_iff_exists.mp (List.find?_isSome.mpr some_file)
  obtain ⟨text, htext, hload⟩ := loadTemplate_of_isFile (List.find?_some hsearch)
    (valid path (List.mem_of_find?_eq_some hsearch))
  refine ⟨path, text, hsearch, htext, ?_⟩
  change template.search disk = some path at hsearch
  rw [searchAndRead, hsearch]
  simp only [hload]
  rfl

theorem searchAndRead_of_not_isFile
    (no_file : ∀ path ∈ candidates template.directories template.fileName,
      disk.isFile path = false) :
    template.searchAndRead disk = (.ok none, { template with found := none }) := by
  have hsearch : template.search disk = none := by
    rw [search, List.find?_eq_none]
    exact fun path hpath => by rw [no_file path hpath]; exact Bool.false_ne_true
  rw [searchAndRead, hsearch]

theorem readLines_of_not_blocked (h : ¬ template.Blocked disk) :
    (∃ path, template.found = some path ∧ disk.isFile path = true ∧
        template.readLines disk = ((loadTemplate disk path).map some, template)) ∨
      (∀ old, template.found = some old → disk.isFile old = false) ∧
        template.readLines disk = template.searchAndRead disk := by
  cases hfound : template.found with
  | none => exact .inr ⟨fun _ h => (nomatch h), readLines_of_not_found hfound⟩
  | some path =>
      cases hfile : disk.isFile path with
      | true => exact .inl ⟨path, rfl, hfile, readLines_of_isFile hfound hfile⟩
      | false =>
          have hmissing : disk.stat path = .error .notFound :=
            Classical.byContradiction fun hstat => h ⟨path, hfound, hfile, hstat⟩
          refine .inr ⟨fun old hold => ?_, readLines_of_missing hfound hmissing⟩
          cases hold
          exact hfile

end ReadLines

/-- The template keeps its directories and its file name, and remembers one of their paths. -/
structure FoundAmong (directories : List Path) (fileName : String) (template : FileTemplate) :
    Prop where
  directories_eq : template.directories = directories
  fileName_eq : template.fileName = fileName
  mem_candidates : ∀ path, template.found = some path → path ∈ candidates directories fileName

section Reached

variable {directories : List Path} {fileName : String} {template : FileTemplate}

theorem FoundAmong.forget (among : FoundAmong directories fileName template) :
    FoundAmong directories fileName { template with found := none } :=
  ⟨among.directories_eq, among.fileName_eq, fun _ h => nomatch h⟩

theorem FoundAmong.locate (among : FoundAmong directories fileName template) (disk : Disk) :
    FoundAmong directories fileName (template.locate disk).2 := by
  obtain ⟨rfl, rfl, hfound⟩ := among
  rw [FileTemplate.locate]
  split
  · exact ⟨rfl, rfl, hfound⟩
  · exact ⟨rfl, rfl, fun path hpath => List.mem_of_find?_eq_some hpath⟩

theorem FoundAmong.readLines (among : FoundAmong directories fileName template) (disk : Disk) :
    FoundAmong directories fileName (template.readLines disk).2 := by
  have located := among.locate disk
  rw [FileTemplate.readLines]
  rcases hlocate : template.locate disk with ⟨_ | path, first⟩
  · rwa [hlocate] at located
  · rw [hlocate] at located
    have again := located.forget.locate disk
    simp only
    split
    · exact located
    · split <;> simp_all
    · exact located

theorem Reached.foundAmong (reached : Reached directories fileName template) :
    FoundAmong directories fileName template := by
  induction reached with
  | new => exact ⟨rfl, rfl, fun _ h => nomatch h⟩
  | locate disk _ ih => exact ih.locate disk
  | readLines disk _ ih => exact ih.readLines disk

/-- A template that is not blocked is read from the current file, which it then remembers, when
there is a file under its name in one of the directories and all such files are text; and where
there is none the answer is that there is none. A template that is blocked cannot be read, and
stays as it is. -/
theorem Reached.readLines_answers (reached : Reached directories fileName template)
    (disk : Disk) :
    (¬ template.Blocked disk →
      ((∃ path ∈ candidates directories fileName, disk.isFile path = true) →
        (∀ path ∈ candidates directories fileName, ∀ content,
          disk.readBytes path = .ok content → content.IsValidUTF8) →
        ∃ path text, template.Current disk path ∧ disk.readText path = .ok text ∧
          template.readLines disk =
            (.ok (some (Text.splitLines text)), { template with found := some path })) ∧
      ((∀ path ∈ candidates directories fileName, disk.isFile path = false) →
        template.readLines disk = (.ok none, { template with found := none }))) ∧
    (template.Blocked disk → ∃ e, template.readLines disk = (.error e, template)) := by
  obtain ⟨rfl, rfl, among⟩ := reached.foundAmong
  refine ⟨fun free => ⟨fun some_file valid => ?_, fun no_file => ?_⟩, readLines_of_blocked⟩
  · rcases readLines_of_not_blocked free with ⟨path, hfound, hfile, hread⟩ | ⟨gone, hread⟩
    · obtain ⟨text, htext, hload⟩ := loadTemplate_of_isFile hfile (valid path (among path hfound))
      refine ⟨path, text, .inl ⟨hfound, hfile⟩, htext, ?_⟩
      rw [hread, hload, ← hfound]
      rfl
    · obtain ⟨path, text, hsearch, htext, heq⟩ := searchAndRead_of_isFile some_file valid
      exact ⟨path, text, .inr ⟨gone, hsearch⟩, htext, hread.trans heq⟩
  · rcases readLines_of_not_blocked free with ⟨path, hfound, hfile, -⟩ | ⟨-, hread⟩
    · rw [no_file path (among path hfound)] at hfile
      cases hfile
    · exact hread.trans (searchAndRead_of_not_isFile no_file)

/-- A disk with two template directories, of which the first one may be without its file. -/
def twoTemplatesDisk (first : List (String × Tree)) (second : ByteArray) : Disk where
  root := .directory [("a", .directory first),
    ("b", .directory [("index.html", .file second ⟨0, 0⟩)])]

theorem stands_firstTemplate (first : List (String × Tree)) (second : ByteArray) :
    Disk.Stands (twoTemplatesDisk first second) ⟨"/a"⟩ ["a"] first := ⟨by cbv, by cbv⟩

theorem stands_secondTemplate (first : List (String × Tree)) (second : ByteArray) :
    Disk.Stands (twoTemplatesDisk first second) ⟨"/b"⟩ ["b"]
      [("index.html", .file second ⟨0, 0⟩)] := ⟨by cbv, by cbv⟩

theorem Reached.readLines_answers_twoTemplates :
    let template : FileTemplate := { directories := [⟨"/a"⟩, ⟨"/b"⟩], fileName := "index.html" }
    let before := twoTemplatesDisk [("index.html", .file "first".toUTF8 ⟨0, 0⟩)] "second".toUTF8
    let after := twoTemplatesDisk [] "second".toUTF8
    let located := (template.locate before).2
    located.found = some ((Path.mk "/a").join "index.html") ∧
      Reached [⟨"/a"⟩, ⟨"/b"⟩] "index.html" located ∧ ¬ located.Blocked after ∧
      ∃ path text, located.Current after path ∧ after.readText path = .ok text ∧
        (located.readLines after).1 = .ok (some (Text.splitLines text)) := by
  intro template before after located
  have plain : DrawingDiary.Path.PlainName "index.html" := ⟨by decide, by decide⟩
  have standsBefore : Disk.Stands before ⟨"/a"⟩ ["a"] _ := stands_firstTemplate _ _
  have standsFirst : Disk.Stands after ⟨"/a"⟩ ["a"] _ := stands_firstTemplate _ _
  have standsSecond : Disk.Stands after ⟨"/b"⟩ ["b"] _ := stands_secondTemplate _ _
  have speakFirst : Disk.Speakable ((Path.mk "/a").join "index.html") :=
    standsFirst.speakable.join plain (by decide) (by decide)
  have speakSecond : Disk.Speakable ((Path.mk "/b").join "index.html") :=
    standsSecond.speakable.join plain (by decide) (by decide)
  have hfound : located.found = some ((Path.mk "/a").join "index.html") :=
    List.find?_cons_of_pos (standsBefore.isFile_child plain speakFirst (by decide) rfl)
  have hgone : after.stat ((Path.mk "/a").join "index.html") = .error .notFound :=
    standsFirst.stat_join_of_free plain speakFirst rfl (by decide)
  have hsecond : after.isFile ((Path.mk "/b").join "index.html") = true :=
    standsSecond.isFile_child plain speakSecond (by decide) rfl
  have hbytes : after.readBytes ((Path.mk "/b").join "index.html") = .ok "second".toUTF8 :=
    standsSecond.readBytes_child plain speakSecond (by decide) rfl
  have reached : Reached [⟨"/a"⟩, ⟨"/b"⟩] "index.html" located := .locate before .new
  have free : ¬ located.Blocked after := by
    rintro ⟨path, hpath, -, hstat⟩
    rw [hfound] at hpath
    cases hpath
    exact hstat hgone
  have valid : ∀ path ∈ candidates [⟨"/a"⟩, ⟨"/b"⟩] "index.html", ∀ content,
      after.readBytes path = .ok content → content.IsValidUTF8 := by
    intro path hpath content hcontent
    rcases List.mem_cons.mp hpath with rfl | hrest
    · rw [Disk.readBytes, hgone] at hcontent
      cases hcontent
    · rw [List.mem_singleton.mp hrest, hbytes] at hcontent
      cases hcontent
      exact String.isValidUTF8 _
  obtain ⟨path, text, current, htext, hread⟩ := ((reached.readLines_answers after).1 free).1
    ⟨_, List.mem_cons_of_mem _ (List.mem_singleton_self _), hsecond⟩ valid
  exact ⟨hfound, reached, free, path, text, current, htext, by rw [hread]⟩

end Reached

end FileTemplate

end DrawingDiary
