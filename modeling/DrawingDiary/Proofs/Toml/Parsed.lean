import DrawingDiary.Proofs.Toml.InOrder
import DrawingDiary.Toml.Document

/-!
# Settings files are proper

The value of a settings file is `Proper` (`parse_proper`). `Yields` says of a scan that whatever
it reads has a property, and goes from the parts of a scan to the whole. So the drafts that are
read have proper values at their leaves, wherever headers and dotted keys put them, and when they
are finished their tables are put in order.
-/

namespace DrawingDiary.Toml

namespace Scan

/-! ### What a scan reads -/

variable {α β : Type} {scan other : Scan α} {p : α → Prop} {q : β → Prop}

def Yields (scan : Scan α) (p : α → Prop) : Prop :=
  ∀ s a rest, scan s = some (a, rest) → p a

theorem yields_true (scan : Scan α) : scan.Yields fun _ => True := fun _ _ _ _ => trivial

theorem yields_pure {a : α} (h : p a) : Yields (pure a) p := by
  intro s b rest hscan
  cases hscan
  exact h

theorem yields_failure : Yields failure p := by
  intro s a rest hscan
  cases hscan

theorem yields_lift {found : Option α} (h : ∀ a, found = some a → p a) :
    Yields (liftM found) p := by
  intro s a rest hscan
  obtain ⟨b, hfound, hscan⟩ := Option.bind_eq_some_iff.mp hscan
  cases hscan
  exact h a hfound

theorem Yields.mono {p' : α → Prop} (h : scan.Yields p) (hp : ∀ a, p a → p' a) : scan.Yields p' :=
  fun s a rest hscan => hp a (h s a rest hscan)

theorem Yields.bind {next : α → Scan β} (h : scan.Yields p)
    (hnext : ∀ a, p a → (next a).Yields q) : Yields (scan >>= next) q := by
  intro s b rest hscan
  obtain ⟨⟨a, rest'⟩, hfirst, hsecond⟩ := Option.bind_eq_some_iff.mp hscan
  exact hnext a (h s a rest' hfirst) rest' b rest hsecond

/-- What was read before may be anything. -/
theorem yields_bind (scan : Scan α) {next : α → Scan β} (hnext : ∀ a, (next a).Yields q) :
    Yields (scan >>= next) q :=
  (yields_true scan).bind fun a _ => hnext a

theorem Yields.map {f : α → β} (h : scan.Yields fun a => q (f a)) : Yields (f <$> scan) q := by
  intro s b rest hscan
  obtain ⟨⟨a, rest'⟩, hfirst, hsecond⟩ := Option.bind_eq_some_iff.mp hscan
  cases hsecond
  exact h s a rest hfirst

theorem Yields.orElse (h : scan.Yields p) (hother : other.Yields p) :
    Yields (scan <|> other) p := by
  intro s a rest hscan
  cases hfirst : scan s with
  | none =>
      refine hother s a rest ?_
      change (scan s <|> other s) = _ at hscan
      rwa [hfirst] at hscan
  | some result =>
      change (scan s <|> other s) = _ at hscan
      rw [hfirst] at hscan
      cases hscan
      exact h s a rest hfirst

theorem Yields.ite {c : Prop} [Decidable c] (h : scan.Yields p) (hother : other.Yields p) :
    Yields (if c then scan else other) p := by
  split
  · exact h
  · exact hother

theorem Yields.attempt? (h : scan.Yields p) : Yields (attempt? scan) fun found =>
    ∀ a, found = some a → p a := by
  intro s found rest hscan a hfound
  subst hfound
  unfold Scan.attempt? at hscan
  split at hscan
  next b rest' hread =>
    cases hscan
    exact h s a rest hread
  next => cases hscan

theorem Yields.elements (h : scan.Yields p) (n : Nat) :
    Yields (elements scan n) fun items => ∀ a ∈ items, p a := by
  induction n with
  | zero => exact yields_failure
  | succ n ih =>
      refine (yields_bind layout fun _ => h).attempt?.bind fun found hfound => ?_
      cases found with
      | none => exact yields_pure (List.forall_mem_nil _)
      | some a =>
          have ha := hfound a rfl
          refine yields_bind _ fun _ => yields_bind _ fun more => ?_
          cases more with
          | false => exact yields_pure (List.forall_mem_singleton.mpr ha)
          | true =>
              refine yields_bind _ fun _ => Yields.map ?_
              exact ih.mono fun items hitems => List.forall_mem_cons.mpr ⟨ha, hitems⟩

theorem Yields.separated (h : scan.Yields p) (n : Nat) :
    Yields (separated scan n) fun items => ∀ a ∈ items, p a := by
  induction n with
  | zero => exact yields_failure
  | succ n ih =>
      refine h.bind fun a ha => yields_bind _ fun more => ?_
      cases more with
      | false => exact yields_pure (List.forall_mem_singleton.mpr ha)
      | true =>
          refine yields_bind _ fun _ => Yields.map ?_
          exact ih.mono fun items hitems => List.forall_mem_cons.mpr ⟨ha, hitems⟩

/-! ### Plain values -/

theorem yields_word (n : Int) : Yields (word n) Value.Proper := by
  unfold word
  split
  next h =>
    obtain ⟨hlower, hupper⟩ := h
    exact yields_pure (.integer hlower hupper)
  next => exact yields_failure

theorem yields_number : Yields number Value.Proper := by
  have hbase (mark : Char) (base : Nat) : Yields (inBase mark base) Value.Proper :=
    yields_bind _ fun _ => yields_bind _ fun _ => yields_word _
  have hdecimal : Yields decimal Value.Proper := by
    refine yields_bind _ fun minus => yields_bind _ fun whole => yields_bind _ fun point =>
      Yields.ite (yields_bind _ fun _ => yields_bind _ fun places => ?_)
        (yields_bind _ fun places => ?_)
    all_goals
      refine yields_bind _ fun _ => yields_bind _ fun _ =>
        Yields.ite (yields_bind _ fun power => ?_) (yields_bind _ fun power => ?_)
    all_goals
      rcases places with _ | places <;> rcases power with _ | power
      · exact yields_word _
      all_goals exact (yields_pure (.float _)).ite (yields_failure.ite (yields_pure (.float _)))
  have hunbounded : Yields unbounded Value.Proper := by
    refine yields_bind _ fun minus => Yields.orElse ?_ ?_
    · exact yields_bind _ fun _ => yields_pure (.float _)
    · exact yields_bind _ fun _ => yields_pure (.float _)
  exact (hbase 'x' 16).orElse ((hbase 'o' 8).orElse ((hbase 'b' 2).orElse
    (hdecimal.orElse hunbounded)))

theorem yields_plainValue : Yields plainValue Value.Proper := by
  refine Yields.orElse (Yields.map fun _ _ _ _ => .string _) ?_
  refine Yields.orElse (Yields.map fun _ _ _ _ => .dateTime _) ?_
  refine yields_number.orElse (Yields.orElse ?_ ?_)
  · exact yields_bind _ fun _ => yields_pure (.boolean true)
  · exact yields_bind _ fun _ => yields_pure (.boolean false)

end Scan

inductive Draft.Proper : Draft → Prop where
  | plain {value : Value} : value.Proper → Proper (.plain value)
  | array {items : List Draft} : (∀ item ∈ items, Proper item) → Proper (.array items)
  | inline {entries : Draft.Entries} : (∀ entry ∈ entries, Proper entry.2) →
      Proper (.inline entries)
  | table (origin : Origin) {entries : Draft.Entries} : (∀ entry ∈ entries, Proper entry.2) →
      Proper (.table origin entries)
  | tables {elements : List Draft.Entries} :
      (∀ entries ∈ elements, ∀ entry ∈ entries, Proper entry.2) → Proper (.tables elements)

namespace Draft

/-! ### Drafts -/

/-- All values in the entries of a draft are proper. -/
def HasProper (entries : Entries) : Prop := ∀ entry ∈ entries, entry.2.Proper

theorem hasProper_nil : HasProper [] := List.forall_mem_nil _

theorem HasProper.assign {entries : Entries} (h : HasProper entries) (key : String)
    {draft : Draft} (proper : draft.Proper) : HasProper (Draft.assign key draft entries) := by
  induction entries with
  | nil => exact List.forall_mem_singleton.mpr proper
  | cons entry rest ih =>
      obtain ⟨hfirst, hrest⟩ := List.forall_mem_cons.mp h
      rw [Draft.assign]
      split
      · exact List.forall_mem_cons.mpr ⟨proper, hrest⟩
      · exact List.forall_mem_cons.mpr ⟨hfirst, ih hrest⟩

theorem HasProper.lookup {entries : Entries} (h : HasProper entries) {key : String}
    {draft : Draft} (hfound : entries.lookup key = some draft) : draft.Proper := by
  obtain ⟨before, after, rfl, -⟩ := List.lookup_eq_some_iff.mp hfound
  exact h (key, draft) (List.mem_append_right _ List.mem_cons_self)

/-- A change at the end of a path keeps the values proper if it does so where it is made. -/
theorem HasProper.within {origin : Origin} {change : Origin → Entries → Option Entries}
    (hchange : ∀ own entries changed, HasProper entries → change own entries = some changed →
      HasProper changed) {path : List String} {own : Origin} {entries changed : Entries}
    (h : HasProper entries) (hdone : within origin change path own entries = some changed) :
    HasProper changed := by
  induction path generalizing own entries changed with
  | nil => exact hchange own entries changed h hdone
  | cons key path ih =>
      rw [Draft.within] at hdone
      split at hdone
      next =>
        obtain ⟨made, hmade, hdone⟩ := Option.bind_eq_some_iff.mp hdone
        cases hdone
        exact h.assign key (.table origin (ih hasProper_nil hmade))
      next o inner hfound =>
        split at hdone
        next => cases hdone
        next =>
          obtain ⟨inner', hinner', hdone⟩ := Option.bind_eq_some_iff.mp hdone
          cases hdone
          cases h.lookup hfound with
          | table _ hinner => exact h.assign key (.table o (ih hinner hinner'))
      next elements hfound =>
        split at hdone
        next => cases hdone
        next last hlast =>
          obtain ⟨last', hlast', hdone⟩ := Option.bind_eq_some_iff.mp hdone
          cases hdone
          cases h.lookup hfound with
          | tables helements =>
              have hproper := ih (helements last (List.mem_of_getLast? hlast)) hlast'
              refine h.assign key (.tables fun element hmem => ?_)
              rcases List.mem_append.mp hmem with hmem | hmem
              · exact helements element ((List.dropLast_sublist _).subset hmem)
              · obtain rfl := List.mem_singleton.mp hmem
                exact hproper
      next => cases hdone

theorem HasProper.setValue {path : List String} {key : String} {value : Draft} {own : Origin}
    {entries changed : Entries} (proper : value.Proper) (h : HasProper entries)
    (hdone : setValue path key value own entries = some changed) : HasProper changed := by
  refine h.within (fun _ table changed htable hchange => ?_) hdone
  split at hchange
  · cases hchange
  · split at hchange
    · cases hchange
    · cases hchange
      exact htable.assign key proper

/-- The values of an inline table are given one after the other. -/
theorem HasProper.setValues {given : List ((List String × String) × Draft)}
    {entries changed : Entries} (proper : ∀ entry ∈ given, entry.2.Proper) (h : HasProper entries)
    (hdone : given.foldlM (fun table entry =>
      Draft.setValue entry.1.1 entry.1.2 entry.2 .stated table) entries = some changed) :
    HasProper changed := by
  induction given generalizing entries with
  | nil =>
      cases hdone
      exact h
  | cons entry rest ih =>
      obtain ⟨hfirst, hrest⟩ := List.forall_mem_cons.mp proper
      rw [List.foldlM_cons] at hdone
      obtain ⟨next, hnext, hdone⟩ := Option.bind_eq_some_iff.mp hdone
      exact ih hrest (h.setValue hfirst hnext) hdone

theorem HasProper.openTable {path : List String} {key : String} {entries changed : Entries}
    (h : HasProper entries) (hdone : openTable path key entries = some changed) :
    HasProper changed := by
  refine h.within (fun _ table changed htable hchange => ?_) hdone
  split at hchange
  next =>
    cases hchange
    exact htable.assign key (.table .stated hasProper_nil)
  next inner hfound =>
    cases hchange
    cases htable.lookup hfound with
    | table _ hinner =>
        refine List.forall_mem_append.mpr ⟨fun entry hmem => ?_, ?_⟩
        · exact htable entry (List.mem_of_mem_filter hmem)
        · exact List.forall_mem_singleton.mpr (.table .stated hinner)
  next => cases hchange

theorem HasProper.openElement {path : List String} {key : String} {entries changed : Entries}
    (h : HasProper entries) (hdone : openElement path key entries = some changed) :
    HasProper changed := by
  refine h.within (fun _ table changed htable hchange => ?_) hdone
  split at hchange
  next =>
    cases hchange
    exact htable.assign key (.tables (List.forall_mem_singleton.mpr hasProper_nil))
  next elements hfound =>
    cases hchange
    cases htable.lookup hfound with
    | tables helements =>
        refine htable.assign key (.tables (List.forall_mem_append.mpr ⟨helements, ?_⟩))
        exact List.forall_mem_singleton.mpr hasProper_nil
  next => cases hchange

theorem HasProper.setUnder {header path : List String} {key : String} {value : Draft}
    {entries changed : Entries} (proper : value.Proper) (h : HasProper entries)
    (hdone : setUnder header path key value entries = some changed) : HasProper changed :=
  h.within (fun _ _ _ htable hchange => htable.setValue proper hchange) hdone

/-! ### Finished drafts -/

theorem forall_of_mapM {α β : Type} {step : α → Option β} {p : β → Prop} {items : List α}
    {results : List β} (h : ∀ a ∈ items, ∀ b, step a = some b → p b)
    (hdone : items.mapM step = some results) : ∀ b ∈ results, p b := by
  induction items generalizing results with
  | nil =>
      cases hdone
      exact List.forall_mem_nil _
  | cons a rest ih =>
      obtain ⟨hfirst, hrest⟩ := List.forall_mem_cons.mp h
      rw [List.mapM_cons] at hdone
      obtain ⟨first, hstep, hdone⟩ := Option.bind_eq_some_iff.mp hdone
      obtain ⟨others, hothers, hdone⟩ := Option.bind_eq_some_iff.mp hdone
      cases hdone
      exact List.forall_mem_cons.mpr ⟨hfirst first hstep, ih hrest hothers⟩

theorem finishEach_eq (entries : Entries) :
    finishEach entries = entries.mapM fun entry => (entry.1, ·) <$> finish entry.2 := by
  induction entries with
  | nil => rfl
  | cons entry rest ih =>
      rw [finishEach, ih, List.mapM_cons]
      cases finish entry.2 <;> rfl

theorem finishAll_eq (items : List Draft) : finishAll items = items.mapM finish := by
  induction items with
  | nil => rfl
  | cons item rest ih => rw [finishAll, ih, List.mapM_cons]

theorem finishTables_eq (elements : List Entries) :
    finishTables elements = elements.mapM finishTable := by
  induction elements with
  | nil => rfl
  | cons entries rest ih => rw [finishTables, ih, List.mapM_cons]

/-- A finished table has its keys in order, and a moment is proper anyway. -/
theorem proper_of_finishTable {entries : Entries} {value : Value}
    (h : ∀ entry ∈ entries, ∀ value, finish entry.2 = some value → value.Proper)
    (hdone : finishTable entries = some value) : value.Proper := by
  cases entries with
  | nil =>
      cases hdone
      exact .table List.Pairwise.nil (List.forall_mem_nil _)
  | cons entry rest =>
      obtain ⟨key, draft⟩ := entry
      rw [finishTable] at hdone
      split at hdone
      next =>
        unfold moment? at hdone
        split at hdone
        next =>
          obtain ⟨moment, -, rfl⟩ := Option.map_eq_some_iff.mp hdone
          exact .dateTime moment
        next => cases hdone
      next =>
        obtain ⟨first, hfinish, hdone⟩ := Option.bind_eq_some_iff.mp hdone
        obtain ⟨others, hothers, hdone⟩ := Option.bind_eq_some_iff.mp hdone
        cases hdone
        obtain ⟨hfirst, hrest⟩ := List.forall_mem_cons.mp h
        have hproper : ∀ entry ∈ (key, first) :: others, entry.2.Proper := by
          rw [finishEach_eq] at hothers
          refine List.forall_mem_cons.mpr
            ⟨hfirst first hfinish, forall_of_mapM (fun entry hmem other hread => ?_) hothers⟩
          obtain ⟨value, hvalue, rfl⟩ := Option.map_eq_some_iff.mp hread
          exact hrest entry hmem value hvalue
        exact .table (Entries.inOrder_ofList _) fun entry hmem =>
          hproper entry (Entries.mem_of_mem_ofList hmem)

/-- A proper draft is finished as a proper value. -/
theorem Proper.finish {draft : Draft} (proper : draft.Proper) :
    ∀ value, draft.finish = some value → value.Proper := by
  induction proper with
  | plain proper =>
      intro value hdone
      cases hdone
      exact proper
  | array _ ih =>
      intro value hdone
      obtain ⟨values, hvalues, rfl⟩ := Option.map_eq_some_iff.mp hdone
      rw [finishAll_eq] at hvalues
      exact .array (forall_of_mapM ih hvalues)
  | inline _ ih => exact fun value hdone => proper_of_finishTable ih hdone
  | table _ _ ih => exact fun value hdone => proper_of_finishTable ih hdone
  | tables _ ih =>
      intro value hdone
      obtain ⟨values, hvalues, rfl⟩ := Option.map_eq_some_iff.mp hdone
      rw [finishTables_eq] at hvalues
      refine .array (forall_of_mapM (fun entries hmem value hdone => ?_) hvalues)
      exact proper_of_finishTable (ih entries hmem) hdone

end Draft

namespace Scan

/-! ### Documents -/

/-- However deep values are nested, proper drafts are read. -/
theorem yields_valueOfDepth (depth : Nat) : Yields (valueOfDepth depth) Draft.Proper := by
  have hplain : Yields (Draft.plain <$> plainValue) Draft.Proper :=
    Yields.map (yields_plainValue.mono fun _ proper => .plain proper)
  induction depth with
  | zero => exact hplain
  | succ depth ih =>
      refine yields_bind _ fun _ => Yields.ite (yields_bind _ fun _ => ?_)
        (yields_bind _ fun _ => Yields.ite (yields_bind _ fun _ => ?_) hplain)
      · refine yields_bind _ fun left => (ih.elements (left + 1)).bind fun items hitems => ?_
        exact yields_bind _ fun _ => yields_bind _ fun _ => yields_pure (.array hitems)
      · refine yields_bind _ fun _ => yields_bind _ fun _ => Yields.ite ?_ ?_
        · exact yields_bind _ fun _ => yields_pure (.inline Draft.hasProper_nil)
        · have hentry : Yields (inlineEntry (valueOfDepth depth)) fun entry => entry.2.Proper :=
            yields_bind _ fun _ => yields_bind _ fun _ => yields_bind _ fun _ =>
              ih.bind fun v proper => yields_bind _ fun _ => yields_pure proper
          refine yields_bind _ fun left => (hentry.separated (left + 1)).bind fun entries h => ?_
          refine yields_bind _ fun _ => ?_
          split
          next table htable => exact yields_pure (.inline (Draft.hasProper_nil.setValues h htable))
          next => exact yields_failure

theorem yields_line {progress : Progress} (h : Draft.HasProper progress.entries) :
    Yields (line progress) fun next => Draft.HasProper next.entries := by
  refine yields_bind _ fun _ => yields_bind _ fun _ => Yields.ite ?comment
    (yields_bind _ fun _ => Yields.ite ?element
      (yields_bind _ fun _ => Yields.ite ?header (yields_bind _ fun ended => ?_)))
  case comment => exact yields_bind _ fun _ => yields_bind _ fun _ => yields_pure h
  case element =>
    refine yields_bind _ fun _ => yields_bind _ fun key => yields_bind _ fun _ =>
      yields_bind _ fun _ => ?_
    exact (yields_lift fun entries hdone => h.openElement hdone).bind fun entries proper =>
      yields_pure proper
  case header =>
    refine yields_bind _ fun _ => yields_bind _ fun key => yields_bind _ fun _ =>
      yields_bind _ fun _ => ?_
    exact (yields_lift fun entries hdone => h.openTable hdone).bind fun entries proper =>
      yields_pure proper
  cases ended with
  | some _ => exact yields_pure h
  | none =>
      refine yields_bind _ fun left => Yields.ite (yields_pure h) ?_
      refine yields_bind _ fun key => yields_bind _ fun _ => yields_bind _ fun _ => ?_
      refine (yields_valueOfDepth _).bind fun value hvalue => yields_bind _ fun _ => ?_
      exact (yields_lift fun entries hdone => h.setUnder hvalue hdone).bind fun entries proper =>
        yields_pure proper

theorem yields_lines {progress : Progress} (h : Draft.HasProper progress.entries) (n : Nat) :
    Yields (lines n progress) fun last => Draft.HasProper last.entries := by
  induction n generalizing progress with
  | zero => exact yields_failure
  | succ n ih =>
      refine yields_bind _ fun left => Yields.ite (yields_pure h) ?_
      exact (yields_line h).bind fun next hnext => ih hnext

end Scan

/-- What a settings file stands for is proper. -/
theorem parse_proper {text : String} {value : Value} (h : parse text = some value) :
    value.Proper := by
  obtain ⟨⟨progress, rest⟩, hlines, hdone⟩ := Option.bind_eq_some_iff.mp h
  have hempty : Draft.HasProper (Progress.mk [] []).entries := Draft.hasProper_nil
  have hproper := Scan.yields_lines hempty _ _ _ _ hlines
  exact Draft.proper_of_finishTable (fun entry hmem => (hproper entry hmem).finish) hdone

end DrawingDiary.Toml
