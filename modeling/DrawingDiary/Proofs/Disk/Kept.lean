import DrawingDiary.Disk.Changing

/-!
# What a change of the disk leaves alone

`KeptOn kept before after` says that everything that stood at a place of `before` stands
there in `after` as well, as far as the places are among the `kept` ones: files and links
as they were, directories with other things in them, perhaps. `Grown` keeps every place.
The relation is a preorder, so what each of many changes leaves alone, all of them do.

A change at one place shows above this place as the change by the rest of the way
(`get?_setAt_append`) and beside it not at all (`get?_setAt_of_beside`). The main lemmas
follow from these two: `keptOn_setAt` and `keptOn_of_setAt` for what is not at or below the
place, and `grown_setAt` for something put at a free place.
-/

namespace DrawingDiary

namespace Tree

/-- What can be seen of a tree from its place: a file or a link as it is, of a directory
that it is one. -/
def face : Tree → Tree
  | .directory _ => .directory []
  | t => t

theorem exists_directory_of_face {t : Tree} (h : t.face = .directory []) :
    ∃ children, t = .directory children := by
  cases t with
  | file content modified => cases h
  | link target => cases h
  | directory children => exact ⟨children, rfl⟩

theorem eq_file_of_face {t : Tree} {content : ByteArray} {modified : Timestamp}
    (h : t.face = .file content modified) : t = .file content modified := by
  cases t with
  | file => exact h
  | link target => cases h
  | directory children => cases h

@[simp] theorem get?_nil (t : Tree) : t.get? [] = some t := by
  cases t <;> rfl

@[simp] theorem get?_cons_directory (name : String) (rest : Location)
    (children : List (String × Tree)) :
    (Tree.directory children).get? (name :: rest) = (lookup name children).bind (get? rest) :=
  rfl

theorem get?_append (first rest : Location) (t : Tree) :
    t.get? (first ++ rest) = (t.get? first).bind (get? rest) := by
  induction first generalizing t with
  | nil => rw [get?_nil]; rfl
  | cons name first ih =>
      cases t with
      | file content modified => rfl
      | link target => rfl
      | directory children =>
          rw [List.cons_append, get?_cons_directory, get?_cons_directory]
          cases lookup name children with
          | none => rfl
          | some child => exact ih child

theorem get?_snoc {root : Tree} {place : Location} {children : List (String × Tree)}
    (h : root.get? place = some (.directory children)) (name : String) :
    root.get? (place ++ [name]) = lookup name children := by
  rw [get?_append, h, Option.bind_some, get?_cons_directory]
  cases lookup name children with
  | none => rfl
  | some child => exact get?_nil child

theorem get?_eq_none_of_prefix {root : Tree} {place below : Location}
    (hbelow : place <+: below) (h : root.get? place = none) : root.get? below = none := by
  obtain ⟨rest, rfl⟩ := hbelow
  rw [get?_append, h]
  rfl

theorem setAt_cons_cons (name next : String) (rest : Location) (new : Option Tree)
    (children : List (String × Tree)) :
    setAt (name :: next :: rest) new (.directory children) =
      match lookup name children with
      | some child =>
        .directory (assign name (some (setAt (next :: rest) new child)) children)
      | none => .directory children := rfl

/-- A change shows nowhere but above, at and below its place. -/
theorem get?_setAt_of_beside (root : Tree) {place other : Location} (new : Option Tree)
    (notBelow : ¬ place <+: other) (notAbove : ¬ other <+: place) :
    (root.setAt place new).get? other = root.get? other := by
  induction place generalizing root other with
  | nil => exact absurd List.nil_prefix notBelow
  | cons name rest ih =>
      cases root with
      | file content modified => cases rest <;> rfl
      | link target => cases rest <;> rfl
      | directory children =>
          cases other with
          | nil => exact absurd List.nil_prefix notAbove
          | cons first below =>
              cases rest with
              | nil =>
                  have hne : first ≠ name := fun e => notBelow (by simp [e])
                  rw [setAt, get?_cons_directory, get?_cons_directory, lookup_assign,
                    if_neg hne]
              | cons next rest =>
                  rw [setAt_cons_cons]
                  cases hchild : lookup name children with
                  | none => rfl
                  | some child =>
                      simp only [get?_cons_directory, lookup_assign]
                      by_cases heq : first = name
                      · subst heq
                        rw [if_pos rfl, hchild, Option.bind_some, Option.bind_some]
                        apply ih child
                        · exact fun h => notBelow (List.cons_prefix_cons.mpr ⟨rfl, h⟩)
                        · exact fun h => notAbove (List.cons_prefix_cons.mpr ⟨rfl, h⟩)
                      · rw [if_neg heq]

/-- At a place above it, a change shows as the change by the rest of the way. -/
theorem get?_setAt_append (root : Tree) (place : Location) {below : Location}
    (hbelow : below ≠ []) (new : Option Tree) :
    (root.setAt (place ++ below) new).get? place = (root.get? place).map (setAt below new) := by
  induction place generalizing root with
  | nil => simp
  | cons name rest ih =>
      have hsome : rest ++ below ≠ [] := fun e => hbelow (List.append_eq_nil_iff.mp e).2
      obtain ⟨next, more, hmore⟩ := List.exists_cons_of_ne_nil hsome
      rw [hmore] at ih
      rw [List.cons_append, hmore]
      cases root with
      | file content modified => rfl
      | link target => rfl
      | directory children =>
          rw [setAt_cons_cons]
          cases hchild : lookup name children with
          | none => simp [hchild]
          | some child => simp [lookup_assign, hchild, ih]

theorem face_setAt {place : Location} (h : place ≠ []) (new : Option Tree) (t : Tree) :
    (t.setAt place new).face = t.face := by
  obtain ⟨name, rest, rfl⟩ := List.exists_cons_of_ne_nil h
  cases t with
  | file content modified => cases rest <;> rfl
  | link target => cases rest <;> rfl
  | directory children =>
      cases rest with
      | nil => rfl
      | cons next rest =>
          rw [setAt_cons_cons]
          cases lookup name children <;> rfl

theorem face_get?_setAt (root : Tree) {place other : Location} (new : Option Tree)
    (outside : ¬ place <+: other) :
    ((root.setAt place new).get? other).map face = (root.get? other).map face := by
  by_cases above : other <+: place
  · obtain ⟨below, rfl⟩ := above
    have hbelow : below ≠ [] := by
      rintro rfl
      exact outside (by simp)
    rw [get?_setAt_append root other hbelow, Option.map_map]
    congr 1
    exact funext (face_setAt hbelow new)
  · rw [get?_setAt_of_beside root new outside above]

theorem get?_setAt_snoc {root : Tree} {place : Location} {children : List (String × Tree)}
    (h : root.get? place = some (.directory children)) (name : String) (new : Tree) :
    (root.setAt (place ++ [name]) (some new)).get? (place ++ [name]) = some new := by
  have hparent : (root.setAt (place ++ [name]) (some new)).get? place =
      some (.directory (assign name (some new) children)) := by
    rw [get?_setAt_append root place (List.cons_ne_nil _ _), h]
    rfl
  rw [get?_snoc hparent, lookup_assign, if_pos rfl]

theorem get?_setAt_self {root : Tree} {place : Location} {old : Tree}
    (h : root.get? place = some old) (new : Tree) :
    (root.setAt place (some new)).get? place = some new := by
  rcases List.eq_nil_or_concat place with rfl | ⟨parent, name, rfl⟩
  · cases root <;> exact get?_nil new
  · rw [List.concat_eq_append] at h ⊢
    rw [get?_append] at h
    obtain ⟨above, habove, hname⟩ := Option.bind_eq_some_iff.mp h
    cases above with
    | file content modified => cases hname
    | link target => cases hname
    | directory children => exact get?_setAt_snoc habove name new

theorem get?_setAt_none (root : Tree) {place : Location} (h : place ≠ []) :
    (root.setAt place none).get? place = none := by
  obtain ⟨parent, name, rfl⟩ := (List.eq_nil_or_concat place).resolve_left h
  rw [List.concat_eq_append, get?_append, get?_setAt_append root parent (List.cons_ne_nil _ _)]
  cases root.get? parent with
  | none => rfl
  | some above =>
      cases above with
      | file content modified => rfl
      | link target => rfl
      | directory children => simp [setAt, lookup_assign]

end Tree

namespace Disk

/-- What stood at the kept places still does. -/
structure KeptOn (kept : Location → Prop) (before after : Disk) : Prop where
  workingDirectory_eq : after.workingDirectory = before.workingDirectory
  stands : ∀ {place : Location} {t : Tree}, kept place → before.at? place = some t →
    ∃ t', after.at? place = some t' ∧ t'.face = t.face

abbrev Grown : Disk → Disk → Prop := KeptOn fun _ => True

variable {kept : Location → Prop} {before between after : Disk}

@[refl] theorem KeptOn.refl (disk : Disk) : KeptOn kept disk disk where
  workingDirectory_eq := rfl
  stands _ h := ⟨_, h, rfl⟩

theorem KeptOn.trans (first : KeptOn kept before between) (second : KeptOn kept between after) :
    KeptOn kept before after where
  workingDirectory_eq := second.workingDirectory_eq.trans first.workingDirectory_eq
  stands hkept h := by
    obtain ⟨t', h', hfirst⟩ := first.stands hkept h
    obtain ⟨t'', h'', hsecond⟩ := second.stands hkept h'
    exact ⟨t'', h'', hsecond.trans hfirst⟩

theorem KeptOn.mono {fewer : Location → Prop} (h : KeptOn kept before after)
    (sub : ∀ place, fewer place → kept place) : KeptOn fewer before after where
  workingDirectory_eq := h.workingDirectory_eq
  stands hfewer := h.stands (sub _ hfewer)

theorem Grown.keptOn (h : Grown before after) : KeptOn kept before after :=
  h.mono fun _ _ => trivial

theorem KeptOn.file (h : KeptOn kept before after) {place : Location} (hkept : kept place)
    {content : ByteArray} {modified : Timestamp}
    (hat : before.at? place = some (.file content modified)) :
    after.at? place = some (.file content modified) := by
  obtain ⟨t', hat', hface⟩ := h.stands hkept hat
  rw [hat', Tree.eq_file_of_face hface]

/-- A change at one place leaves alone what is not at or below it. -/
theorem keptOn_setAt (disk : Disk) (place : Location) (new : Option Tree) :
    KeptOn (fun other => ¬ place <+: other) disk (disk.setAt place new) where
  workingDirectory_eq := rfl
  stands := by
    intro other t outside hat
    have hface := Tree.face_get?_setAt disk.root new outside
    rw [at?] at hat
    rw [hat] at hface
    exact Option.map_eq_some_iff.mp hface

/-- What is not at or below the place of a change stood there before. -/
theorem keptOn_of_setAt (disk : Disk) (place : Location) (new : Option Tree) :
    KeptOn (fun other => ¬ place <+: other) (disk.setAt place new) disk where
  workingDirectory_eq := rfl
  stands := by
    intro other t outside hat
    have hface := Tree.face_get?_setAt disk.root new outside
    rw [at?, setAt] at hat
    rw [hat] at hface
    exact Option.map_eq_some_iff.mp hface.symm

/-- To put something at a free place only adds to the disk. -/
theorem grown_setAt {disk : Disk} {place : Location} (free : disk.at? place = none)
    (new : Option Tree) : Grown disk (disk.setAt place new) where
  workingDirectory_eq := rfl
  stands := by
    intro other t _ hat
    apply (keptOn_setAt disk place new).stands _ hat
    intro hbelow
    rw [at?, Tree.get?_eq_none_of_prefix hbelow free] at hat
    cases hat

theorem grown_putFile {disk : Disk} {place : Location} (free : disk.at? place = none)
    (content : ByteArray) : Grown disk (disk.putFile place content) :=
  ⟨rfl, (grown_setAt free _).stands⟩

theorem grown_of_emptied {disk : Disk} {place : Location} {children : List (String × Tree)}
    (hdirectory : disk.at? place = some (.directory children)) :
    Grown (disk.setAt place (some (.directory []))) disk where
  workingDirectory_eq := rfl
  stands := by
    intro other t _ hat
    by_cases hbelow : place <+: other
    · obtain ⟨rest, rfl⟩ := hbelow
      rw [at?, Disk.setAt, Tree.get?_append, Tree.get?_setAt_self hdirectory] at hat
      cases rest with
      | nil =>
          cases hat
          rw [List.append_nil]
          exact ⟨_, hdirectory, rfl⟩
      | cons name rest => cases hat
    · exact (keptOn_of_setAt disk place _).stands hbelow hat

end Disk

end DrawingDiary
