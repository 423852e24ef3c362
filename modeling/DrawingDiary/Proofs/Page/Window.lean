import DrawingDiary.Page.Window

/-!
# The window divides the months

Whatever is requested, the months are the newer ones, then the month shown if there is one,
then the older ones, with nothing left out and no index outside the list
(`MonthWindow.resolve_shape`). Where the months are strictly newest first, these are exactly
the months after, of and before the name that is asked for (`MonthWindow.splitsAt_resolve`);
without a request it is the name of the newest month (`MonthWindow.resolve_none`).
-/

namespace DrawingDiary

section LastIndex

variable {α : Type} {p : α → Bool} {xs ys : List α} {i : Nat}

theorem lastIndex?_lt (h : lastIndex? p xs = some i) : i < xs.length := by
  induction xs generalizing i with
  | nil => cases h
  | cons x rest ih =>
      rw [lastIndex?] at h
      cases hrest : lastIndex? p rest with
      | some j =>
          rw [hrest] at h
          cases h
          exact Nat.succ_lt_succ (ih hrest)
      | none =>
          rw [hrest] at h
          by_cases hx : p x
          · simp only [hx, if_true, Option.some.injEq] at h
            exact h ▸ Nat.zero_lt_succ _
          · simp [hx] at h

theorem lastIndex?_eq_none (h : ∀ x ∈ xs, p x = false) : lastIndex? p xs = none := by
  induction xs with
  | nil => rfl
  | cons x rest ih =>
      obtain ⟨hx, hrest⟩ := List.forall_mem_cons.mp h
      rw [lastIndex?, ih hrest]
      simp [hx]

/-- Where a property holds of the members of one list and of none behind it, its last index is
the last one of that list. -/
theorem succ_lastIndex?_append (hxs : ∀ x ∈ xs, p x = true) (hys : ∀ y ∈ ys, p y = false) :
    ((lastIndex? p (xs ++ ys)).map (· + 1)).getD 0 = xs.length := by
  induction xs with
  | nil =>
      rw [List.nil_append, lastIndex?_eq_none hys]
      rfl
  | cons x rest ih =>
      obtain ⟨hx, hrest⟩ := List.forall_mem_cons.mp hxs
      have hlength := ih hrest
      rw [List.cons_append, lastIndex?]
      cases hlast : lastIndex? p (rest ++ ys) with
      | some j =>
          rw [hlast] at hlength
          exact congrArg (· + 1) hlength
      | none =>
          rw [hlast] at hlength
          simp only [hx, if_true]
          exact congrArg (· + 1) hlength

end LastIndex

namespace MonthWindow

/-- How many months are newer than the one asked for. -/
def newerEnd (window : MonthWindow) : Nat := (window.newer.map (· + 1)).getD 0

variable {names : List String} {months : List Month}

/-- The month shown stands right behind the newer ones and the older ones right behind it. -/
theorem resolve_shape (names : List String) (requested : Option String) :
    let window := resolve names requested
    (window.current = some window.newerEnd ∧ window.older = window.newerEnd + 1 ∧
        window.newerEnd < names.length) ∨
      (window.current = none ∧ window.older = window.newerEnd ∧
        window.newerEnd ≤ names.length) := by
  cases requested with
  | none =>
      cases names with
      | nil => exact .inr ⟨rfl, rfl, Nat.le_refl _⟩
      | cons first rest => exact .inl ⟨rfl, rfl, Nat.zero_lt_succ _⟩
  | some name =>
      cases hfind : names.findIdx? (· == name) with
      | some i =>
          have hlt : i < names.length := (List.findIdx?_eq_some_iff_getElem.mp hfind).1
          cases i with
          | zero =>
              have heq : resolve names (some name) = ⟨some 0, none, 1⟩ := by
                simp only [resolve, hfind]
              rw [heq]
              exact .inl ⟨rfl, rfl, hlt⟩
          | succ i =>
              have heq : resolve names (some name) = ⟨some (i + 1), some i, i + 2⟩ := by
                simp only [resolve, hfind]
              rw [heq]
              exact .inl ⟨rfl, rfl, hlt⟩
      | none =>
          cases hlast : lastIndex? (fun other => decide (name < other)) names with
          | some i =>
              have heq : resolve names (some name) = ⟨none, some i, i + 1⟩ := by
                simp only [resolve, hfind, hlast]
              rw [heq]
              exact .inr ⟨rfl, rfl, lastIndex?_lt hlast⟩
          | none =>
              have heq : resolve names (some name) = ⟨none, none, 0⟩ := by
                simp only [resolve, hfind, hlast]
              rw [heq]
              exact .inr ⟨rfl, rfl, Nat.zero_le _⟩

/-- Every index of a window is one of the list, and the older months begin in it or at its
end. -/
structure InRange (window : MonthWindow) (count : Nat) : Prop where
  current : ∀ i, window.current = some i → i < count
  newer : ∀ i, window.newer = some i → i < count
  older : window.older ≤ count

theorem inRange_resolve (names : List String) (requested : Option String) :
    (resolve names requested).InRange names.length := by
  have hnewer {i : Nat} (hi : (resolve names requested).newer = some i) :
      (resolve names requested).newerEnd = i + 1 := by
    rw [newerEnd, hi]
    rfl
  rcases resolve_shape names requested with ⟨hcurrent, holder, hlt⟩ | ⟨hcurrent, holder, hle⟩
  · refine ⟨fun i hi => ?_, fun i hi => ?_, ?_⟩
    · rw [hcurrent] at hi
      cases hi
      exact hlt
    · have hend := hnewer hi
      omega
    · omega
  · refine ⟨fun i hi => ?_, fun i hi => ?_, ?_⟩
    · rw [hcurrent] at hi
      cases hi
    · have hend := hnewer hi
      omega
    · omega

/-- The months shown with a window: those newer, the one of the window, those older. -/
theorem take_append_current_append_drop (months : List Month) (requested : Option String) :
    let window := resolve (months.map (·.name)) requested
    months.take window.newerEnd ++ ((window.current.bind (months[·]?)).toList ++
      months.drop window.older) = months := by
  intro window
  rcases resolve_shape (months.map (·.name)) requested with
    ⟨hcurrent, holder, hlt⟩ | ⟨hcurrent, holder, -⟩
  · rw [List.length_map] at hlt
    have hget : (window.current.bind (months[·]?)).toList = [months[window.newerEnd]] := by
      rw [hcurrent, Option.bind_some, List.getElem?_eq_getElem hlt]
      rfl
    rw [hget, holder, List.singleton_append, List.getElem_cons_drop hlt, List.take_append_drop]
  · rw [hcurrent, holder]
    exact List.take_append_drop _ _

/-- Without a request the newest month is shown, as if it was requested. -/
theorem resolve_none (names : List String) : resolve names none = resolve names names.head? := by
  cases names with
  | nil => rfl
  | cons first rest =>
      have hfind : (first :: rest).findIdx? (· == first) = some 0 := by
        simp [List.findIdx?_cons]
      simp only [List.head?_cons, resolve, hfind]
      rfl

/-- The window has the months after, of and before a name. -/
structure SplitsAt (window : MonthWindow) (months : List Month) (name : String) : Prop where
  newer : months.take window.newerEnd = months.filter (name < ·.name)
  current : (window.current.bind (months[·]?)).toList = months.filter (·.name = name)
  older : months.drop window.older = months.filter (·.name < name)

/-- Some months are after a name, at most one has it, and some are before it. -/
structure Parts (name : String) (newer : List Month) (shown : Option Month)
    (older : List Month) : Prop where
  newer : ∀ month ∈ newer, name < month.name
  shown : ∀ month ∈ shown, month.name = name
  older : ∀ month ∈ older, month.name < name

theorem exists_parts (descending : months.Pairwise fun a b => b.name < a.name) (name : String) :
    ∃ newer shown older, months = newer ++ (Option.toList shown ++ older) ∧
      Parts name newer shown older := by
  induction months with
  | nil => exact ⟨[], none, [], rfl, by simp, by simp, by simp⟩
  | cons month rest ih =>
      obtain ⟨hmonth, hrest⟩ := List.pairwise_cons.mp descending
      by_cases hafter : name < month.name
      · obtain ⟨newer, shown, older, heq, parts⟩ := ih hrest
        exact ⟨month :: newer, shown, older, congrArg (month :: ·) heq,
          List.forall_mem_cons.mpr ⟨hafter, parts.newer⟩, parts.shown, parts.older⟩
      · by_cases hsame : month.name = name
        · exact ⟨[], some month, rest, rfl, by simp, by simp [hsame],
            fun other hother => hsame ▸ hmonth other hother⟩
        · have hbefore : month.name < name :=
            Std.lt_of_le_of_ne (Std.not_lt.mp hafter) hsame
          exact ⟨[], none, month :: rest, rfl, by simp, by simp,
            List.forall_mem_cons.mpr ⟨hbefore, fun other hother =>
              String.lt_trans (hmonth other hother) hbefore⟩⟩

theorem findIdx?_eq_none_of_ne {name : String} (h : ∀ other ∈ names, other ≠ name) :
    names.findIdx? (· == name) = none :=
  List.findIdx?_eq_none_iff.mpr fun other hother => beq_eq_false_iff_ne.mpr (h other hother)

/-- The window of a list that begins with names after the requested one, then has this name
or not, and ends with names before it. -/
theorem resolve_append {name : String} (newer older : List String) (shown : Option String)
    (hnewer : ∀ other ∈ newer, name < other) (hshown : ∀ other ∈ shown, other = name)
    (holder : ∀ other ∈ older, other < name) :
    let window := resolve (newer ++ (shown.toList ++ older)) (some name)
    window.newerEnd = newer.length ∧ window.current = shown.map (fun _ => newer.length) ∧
      window.older = newer.length + shown.toList.length := by
  have hne_newer : ∀ other ∈ newer, other ≠ name := fun other hother heq =>
    String.lt_irrefl name (heq ▸ hnewer other hother)
  have hne_older : ∀ other ∈ older, other ≠ name := fun other hother heq =>
    String.lt_irrefl name (heq ▸ holder other hother)
  intro window
  cases shown with
  | some month =>
      obtain rfl : month = name := hshown month rfl
      have hfind : (newer ++ ((some month).toList ++ older)).findIdx? (· == month) =
          some newer.length := by
        simp [List.findIdx?_append, List.findIdx?_cons, findIdx?_eq_none_of_ne hne_newer]
      have hcurrent : window.current = some newer.length := by
        simp only [window, resolve, hfind]
      rcases resolve_shape (newer ++ ((some month).toList ++ older)) (some month) with
        ⟨hshape, hend, -⟩ | ⟨hshape, -⟩
      · have hlength : window.newerEnd = newer.length :=
          Option.some.inj (hshape.symm.trans hcurrent)
        exact ⟨hlength, hcurrent, hend.trans (congrArg (· + 1) hlength)⟩
      · exact absurd (hshape.symm.trans hcurrent) (by simp)
  | none =>
      have hfind : (newer ++ ((none : Option String).toList ++ older)).findIdx? (· == name) =
          none := by
        simp [List.findIdx?_append, findIdx?_eq_none_of_ne hne_newer,
          findIdx?_eq_none_of_ne hne_older]
      have hcurrent : window.current = none := by
        simp only [window, resolve, hfind]
      have hlength : window.newerEnd = newer.length := by
        simp only [window, newerEnd, resolve, hfind]
        exact succ_lastIndex?_append (fun other hother => decide_eq_true (hnewer other hother))
          fun other hother => decide_eq_false fun hlt =>
            String.lt_irrefl name (String.lt_trans hlt (holder other hother))
      rcases resolve_shape (newer ++ ((none : Option String).toList ++ older)) (some name) with
        ⟨hshape, -⟩ | ⟨-, hend, -⟩
      · exact absurd (hshape.symm.trans hcurrent) (by simp)
      · exact ⟨hlength, hcurrent, hend.trans hlength⟩

theorem filter_middle {α : Type} {p : α → Bool} (before middle after : List α)
    (hbefore : ∀ x ∈ before, p x = false) (hmiddle : ∀ x ∈ middle, p x = true)
    (hafter : ∀ x ∈ after, p x = false) : (before ++ (middle ++ after)).filter p = middle := by
  have hnil {xs : List α} (h : ∀ x ∈ xs, p x = false) : xs.filter p = [] :=
    List.filter_eq_nil_iff.mpr fun x hx => Bool.eq_false_iff.mp (h x hx)
  rw [List.filter_append, List.filter_append, hnil hbefore, List.filter_eq_self.mpr hmiddle,
    hnil hafter, List.nil_append, List.append_nil]

section Parts

variable {name : String} {newer older : List Month} {shown : Option Month}
  (parts : Parts name newer shown older)

include parts

theorem Parts.filter_newer :
    (newer ++ (shown.toList ++ older)).filter (name < ·.name) = newer := by
  apply filter_middle [] newer (shown.toList ++ older) (List.forall_mem_nil _)
  · exact fun month hmonth => decide_eq_true (parts.newer month hmonth)
  · intro month hmonth
    apply decide_eq_false
    rcases List.mem_append.mp hmonth with hshown | holder
    · rw [parts.shown month (Option.mem_toList.mp hshown)]
      exact String.lt_irrefl name
    · exact fun hlt => String.lt_irrefl name (String.lt_trans hlt (parts.older month holder))

theorem Parts.filter_shown :
    (newer ++ (shown.toList ++ older)).filter (·.name = name) = shown.toList := by
  apply filter_middle newer shown.toList older
  · exact fun month hmonth => decide_eq_false fun heq =>
      String.lt_irrefl name (heq ▸ parts.newer month hmonth)
  · exact fun month hmonth => decide_eq_true (parts.shown month (Option.mem_toList.mp hmonth))
  · exact fun month hmonth => decide_eq_false fun heq =>
      String.lt_irrefl name (heq ▸ parts.older month hmonth)

theorem Parts.filter_older :
    (newer ++ (shown.toList ++ older)).filter (·.name < name) = older := by
  have hassoc : newer ++ (shown.toList ++ older) = newer ++ shown.toList ++ (older ++ []) := by
    rw [List.append_nil, List.append_assoc]
  rw [hassoc]
  apply filter_middle (newer ++ shown.toList) older []
  · intro month hmonth
    apply decide_eq_false
    rcases List.mem_append.mp hmonth with hnewer | hshown
    · exact fun hlt => String.lt_irrefl name (String.lt_trans (parts.newer month hnewer) hlt)
    · rw [parts.shown month (Option.mem_toList.mp hshown)]
      exact String.lt_irrefl name
  · exact fun month hmonth => decide_eq_true (parts.older month hmonth)
  · exact List.forall_mem_nil _

end Parts

/-- In months that are strictly newest first, the window of a requested name has the months
after, of and before it. -/
theorem splitsAt_resolve (descending : months.Pairwise fun a b => b.name < a.name)
    (name : String) : (resolve (months.map (·.name)) (some name)).SplitsAt months name := by
  obtain ⟨newer, shown, older, rfl, parts⟩ := exists_parts descending name
  have hnames : (newer ++ (shown.toList ++ older)).map (·.name) =
      newer.map (·.name) ++ ((shown.map (·.name)).toList ++ older.map (·.name)) := by
    cases shown <;> simp
  obtain ⟨hend, hcurrent, hstart⟩ := resolve_append (newer.map (·.name)) (older.map (·.name))
    (shown.map (·.name)) (List.forall_mem_map.mpr parts.newer) (by simpa using parts.shown)
    (List.forall_mem_map.mpr parts.older)
  rw [← hnames, List.length_map] at hend hcurrent hstart
  have hlength : newer.length + (shown.map (·.name)).toList.length =
      (newer ++ shown.toList).length := by
    cases shown <;> simp
  constructor
  case newer => rw [parts.filter_newer, hend, List.take_left]
  case current =>
    rw [parts.filter_shown, hcurrent]
    cases shown <;> simp
  case older =>
    rw [parts.filter_older, hstart, hlength, ← List.append_assoc, List.drop_left]

end MonthWindow

end DrawingDiary
