import DrawingDiary.Text.Substitution
import Mathlib.Data.List.Infix
import Mathlib.Data.List.Pairwise

/-!
# Replacing in turn and replacing at once

Replacing one pattern after the other reads again what was written before, and so it may find
a pattern that was not in the text. It does not when neither the values nor the patterns can be
laid over a pattern (`Separate`): then replacing in turn is one pass over the text
(`replaceInTurn_eq_substitute`). Where the patterns cannot be laid over themselves either, the
pass finds all of them, each on its own (`Standalone.substitute_append`). Patterns that are
closed by a character of their own are such ones (`standalone_of_closedBy`).
-/

namespace DrawingDiary.Text

/-- No end of the first text begins the second one, or begins with it. -/
def Clears (a b : List Char) : Prop :=
  ∀ tail, tail <:+ a → tail ≠ [] → ¬ tail <+: b ∧ ¬ b <+: tail

/-- The texts have no character in common place, however they are laid over each other. -/
def Separate (a b : List Char) : Prop := Clears a b ∧ Clears b a

section Clears

variable {a b tail : List Char} {x y : Char}

instance : Std.Symm Separate := ⟨fun _ _ separate => ⟨separate.2, separate.1⟩⟩

theorem Clears.of_suffix (clears : Clears a b) (h : tail <:+ a) : Clears tail b :=
  fun shorter hshorter => clears shorter (hshorter.trans h)

theorem Clears.not_prefix_append (clears : Clears a b) (hne : a ≠ []) (s : List Char) :
    ¬ b <+: a ++ s := by
  obtain ⟨hbegins, hbegun⟩ := clears a (List.suffix_refl a) hne
  intro h
  rcases List.prefix_or_prefix_of_prefix h (List.prefix_append a s) with hb | ha
  · exact hbegun hb
  · exact hbegins ha

/-- A text whose last character is not in the other one clears it, if the other one has a
character that the text has not. -/
theorem clears_of_getLast? (hlast : a.getLast? = some x) (hx : x ∉ b) (hy : y ∈ b)
    (hya : y ∉ a) : Clears a b := by
  intro tail htail hne
  obtain ⟨front, rfl⟩ := htail
  rw [List.getLast?_append_of_ne_nil _ hne] at hlast
  constructor
  · intro hbegins
    exact hx (hbegins.subset (List.mem_of_getLast? hlast))
  · intro hbegun
    exact hya (List.mem_append_right front (hbegun.subset hy))

theorem separate_of_getLast? (hx : a.getLast? = some x) (hy : b.getLast? = some y) (hxb : x ∉ b)
    (hya : y ∉ a) : Separate a b :=
  ⟨clears_of_getLast? hx hxb (List.mem_of_getLast? hy) hya,
    clears_of_getLast? hy hya (List.mem_of_getLast? hx) hxb⟩

end Clears

section Pass

variable {table : List Rule} {rule : Rule} {a s : List Char} {c : Char}

theorem matchRule?_eq_none_iff :
    matchRule? table s = none ↔ ∀ rule ∈ table, ¬ rule.1 <+: s := by
  simp [matchRule?, List.find?_eq_none]

theorem substitute_cons_of_none (h : ∀ rule ∈ table, ¬ rule.1 <+: c :: s) :
    substitute table (c :: s) = c :: substitute table s :=
  substituteFrom_zero_of_none (matchRule?_eq_none_iff.mpr h)

theorem substitute_append_of_match (hne : rule.1 ≠ []) (h : matchRule? table (rule.1 ++ s) =
    some rule) : substitute table (rule.1 ++ s) = rule.2 ++ substitute table s := by
  obtain ⟨c, rest, hpattern⟩ := List.exists_cons_of_ne_nil hne
  rw [hpattern, List.cons_append] at h ⊢
  calc substitute table (c :: (rest ++ s))
      = rule.2 ++ substituteFrom table (rule.1.length - 1) (rest ++ s) :=
        substituteFrom_zero_of_some h
    _ = rule.2 ++ substitute table s := by
        rw [hpattern, List.length_cons, Nat.add_sub_cancel, substituteFrom_eq_drop, List.drop_left]

theorem substitute_append_of_clears (clears : ∀ rule ∈ table, Clears a rule.1) (s : List Char) :
    substitute table (a ++ s) = a ++ substitute table s := by
  induction a with
  | nil => rfl
  | cons c rest ih =>
      have hnone : ∀ rule ∈ table, ¬ rule.1 <+: c :: (rest ++ s) := fun rule hrule =>
        (clears rule hrule).not_prefix_append (List.cons_ne_nil c rest) s
      have hrest := ih fun rule hrule => (clears rule hrule).of_suffix (List.suffix_cons c rest)
      rw [List.cons_append, substitute_cons_of_none hnone, hrest, List.cons_append]

theorem matchRule?_eq_some (separate : table.Pairwise fun a b => Separate a.1 b.1)
    (nonempty : ∀ rule ∈ table, rule.1 ≠ []) (hrule : rule ∈ table) (s : List Char) :
    matchRule? table (rule.1 ++ s) = some rule := by
  induction table with
  | nil => cases hrule
  | cons first rest ih =>
      obtain ⟨hfirst, hrest⟩ := List.pairwise_cons.mp separate
      obtain ⟨-, hothers⟩ := List.forall_mem_cons.mp nonempty
      rcases List.mem_cons.mp hrule with rfl | hmem
      · simp [matchRule?]
      · have hnot : ¬ first.1 <+: rule.1 ++ s :=
          (hfirst rule hmem).2.not_prefix_append (hothers rule hmem) s
        rw [matchRule?, List.find?_cons_of_neg (by simpa using hnot)]
        exact ih hrest hothers hmem

theorem substitute_pattern_append (separate : table.Pairwise fun a b => Separate a.1 b.1)
    (nonempty : ∀ rule ∈ table, rule.1 ≠ []) (hrule : rule ∈ table) (s : List Char) :
    substitute table (rule.1 ++ s) = rule.2 ++ substitute table s :=
  substitute_append_of_match (nonempty rule hrule) (matchRule?_eq_some separate nonempty hrule s)

theorem substitute_eq_self (h : ∀ rule ∈ table, ¬ rule.1 <:+: s) : substitute table s = s := by
  induction s with
  | nil => rfl
  | cons c rest ih =>
      have hnone : ∀ rule ∈ table, ¬ rule.1 <+: c :: rest := fun rule hrule hbegins =>
        h rule hrule hbegins.isInfix
      have hrest := ih fun rule hrule hinside =>
        h rule hrule (hinside.trans (List.suffix_cons c rest).isInfix)
      rw [substitute_cons_of_none hnone, hrest]

end Pass

section Turns

variable {table : List Rule} {rule : Rule} {p value s pattern tail : List Char}

theorem replaceAll_append (rule : Rule) (hne : rule.1 ≠ []) (s : List Char) :
    replaceAll rule.1 rule.2 (rule.1 ++ s) = rule.2 ++ replaceAll rule.1 rule.2 s :=
  substitute_append_of_match hne (by simp [matchRule?])

/-- A pattern that begins what one replacement makes of a text begins this text, unless it can
be laid over the value. -/
theorem prefix_of_prefix_replaceAll (clears : Clears p value) (htail : tail <:+ p)
    (hpattern : pattern ≠ []) (h : tail <+: replaceAll pattern value s) : tail <+: s := by
  induction hs : s.length using Nat.strong_induction_on generalizing tail s with
  | _ n ih =>
  match tail, s with
  | [], s => exact List.nil_prefix
  | x :: rest, [] => exact h
  | x :: rest, c :: s =>
      by_cases hbegins : pattern <+: c :: s
      · obtain ⟨after, hafter⟩ := hbegins
        rw [← hafter, replaceAll_append (pattern, value) hpattern] at h
        have hclears := clears (x :: rest) htail (List.cons_ne_nil x rest)
        rcases List.prefix_or_prefix_of_prefix h (List.prefix_append value _) with hin | hover
        · exact absurd hin hclears.1
        · exact absurd hover hclears.2
      · have hcopied : replaceAll pattern value (c :: s) = c :: replaceAll pattern value s :=
          substitute_cons_of_none (by simpa using hbegins)
        rw [hcopied, List.cons_prefix_cons] at h
        rw [List.cons_prefix_cons]
        refine ⟨h.1, ih s.length ?_ ((List.suffix_cons x rest).trans htail) h.2 rfl⟩
        rw [← hs, List.length_cons]
        exact Nat.lt_succ_self _

theorem substitute_replaceAll (separate : (rule :: table).Pairwise fun a b => Separate a.1 b.1)
    (nonempty : ∀ other ∈ rule :: table, other.1 ≠ [])
    (inert : ∀ other ∈ table, Separate rule.2 other.1) (s : List Char) :
    substitute table (replaceAll rule.1 rule.2 s) = substitute (rule :: table) s := by
  obtain ⟨hfirst, hrest⟩ := List.pairwise_cons.mp separate
  obtain ⟨hne, hothers⟩ := List.forall_mem_cons.mp nonempty
  -- the induction is on the length, since a whole pattern is passed over at once
  induction hs : s.length using Nat.strong_induction_on generalizing s with
  | _ n ih =>
  have shorter {pattern after : List Char} (hpattern : pattern ≠ [])
      (hafter : pattern ++ after = s) :
      substitute table (replaceAll rule.1 rule.2 after) = substitute (rule :: table) after := by
    refine ih after.length ?_ after rfl
    have hpos := List.length_pos_iff.mpr hpattern
    rw [← hs, ← hafter, List.length_append]
    omega
  by_cases hbegins : ∃ other ∈ rule :: table, other.1 <+: s
  · obtain ⟨other, hmem, after, rfl⟩ := hbegins
    have hafter := shorter (nonempty other hmem) rfl
    rw [substitute_pattern_append separate nonempty hmem]
    rcases List.mem_cons.mp hmem with rfl | hother
    · rw [replaceAll_append other hne,
        substitute_append_of_clears fun later hlater => (inert later hlater).1, hafter]
    · have hkept : replaceAll rule.1 rule.2 (other.1 ++ after) =
          other.1 ++ replaceAll rule.1 rule.2 after := by
        refine substitute_append_of_clears (fun only honly => ?_) after
        rw [List.mem_singleton.mp honly]
        exact (hfirst other hother).2
      rw [hkept, substitute_pattern_append hrest hothers hother, hafter]
  · have hnone : ∀ other ∈ rule :: table, ¬ other.1 <+: s := fun other hmem hother =>
      hbegins ⟨other, hmem, hother⟩
    match s with
    | [] => rfl
    | c :: s =>
        have hcopied : replaceAll rule.1 rule.2 (c :: s) = c :: replaceAll rule.1 rule.2 s :=
          substitute_cons_of_none fun only honly =>
            List.mem_singleton.mp honly ▸ hnone rule List.mem_cons_self
        have hstill : ∀ other ∈ table, ¬ other.1 <+: c :: replaceAll rule.1 rule.2 s := by
          intro other hother hbegun
          rw [← hcopied] at hbegun
          exact hnone other (List.mem_cons_of_mem _ hother)
            (prefix_of_prefix_replaceAll (inert other hother).2 (List.suffix_refl _) hne hbegun)
        rw [hcopied, substitute_cons_of_none hstill, substitute_cons_of_none hnone,
          shorter (List.cons_ne_nil c []) rfl]

/-- To replace in turn is to replace at once, when no pattern can be laid over another one or
over a value that was written before its turn. -/
theorem replaceInTurn_eq_substitute (separate : table.Pairwise fun a b => Separate a.1 b.1)
    (nonempty : ∀ rule ∈ table, rule.1 ≠ [])
    (inert : table.Pairwise fun a b => Separate a.2 b.1) (s : List Char) :
    replaceInTurn table s = substitute table s := by
  induction table generalizing s with
  | nil => exact (substitute_eq_self (by simp)).symm
  | cons rule rest ih =>
      obtain ⟨hrule, hinert⟩ := List.pairwise_cons.mp inert
      have hturns : replaceInTurn (rule :: rest) s =
          replaceInTurn rest (replaceAll rule.1 rule.2 s) := rfl
      rw [hturns, ih (List.pairwise_cons.mp separate).2 (List.forall_mem_cons.mp nonempty).2 hinert,
        substitute_replaceAll separate nonempty hrule]

end Turns

/-- Patterns that cannot be laid over each other, nor over themselves. -/
structure Standalone (patterns : List (List Char)) : Prop where
  nonempty : ∀ p ∈ patterns, p ≠ []
  separate : patterns.Pairwise Separate
  unbordered : ∀ p ∈ patterns, ∀ tail, tail <:+ p → tail ≠ [] → tail <+: p → tail = p

section Closed

variable {ends a b tail : List Char}

def Lacks (chars s : List Char) : Prop := ∀ c ∈ s, c ∉ chars

-- It goes through the text; to go through all characters there are would decide it as well.
instance (chars s : List Char) : Decidable (Lacks chars s) :=
  List.decidableBAll (fun c => c ∉ chars) s

theorem Lacks.append {chars : List Char} (ha : Lacks chars a) (hb : Lacks chars b) :
    Lacks chars (a ++ b) := fun c hc => (List.mem_append.mp hc).elim (ha c) (hb c)

theorem Lacks.mono {chars fewer : List Char} (h : Lacks chars a) (subset : fewer ⊆ chars) :
    Lacks fewer a := fun c hc hmem => h c hc (subset hmem)

/-- A text that ends with one of some characters and has none of them before. -/
structure ClosedBy (ends p : List Char) : Prop where
  last : p.getLast?.any ends.contains = true
  before : Lacks ends p.dropLast

instance (ends p : List Char) : Decidable (ClosedBy ends p) :=
  decidable_of_iff (p.getLast?.any ends.contains = true ∧ Lacks ends p.dropLast)
    ⟨fun h => ⟨h.1, h.2⟩, fun h => ⟨h.1, h.2⟩⟩

theorem ClosedBy.exists_last (closed : ClosedBy ends a) : ∃ e, a.getLast? = some e ∧ e ∈ ends := by
  obtain ⟨e, he, hends⟩ := (Option.any_eq_true _ _).mp closed.last
  exact ⟨e, he, List.contains_iff_mem.mp hends⟩

theorem ClosedBy.ne_nil (closed : ClosedBy ends a) : a ≠ [] := by
  rintro rfl
  obtain ⟨e, he, -⟩ := closed.exists_last
  cases he

theorem ClosedBy.of_suffix (closed : ClosedBy ends a) (h : tail <:+ a) (hne : tail ≠ []) :
    ClosedBy ends tail := by
  obtain ⟨front, rfl⟩ := h
  obtain ⟨hlast, hfront⟩ := closed
  rw [List.getLast?_append_of_ne_nil _ hne] at hlast
  rw [List.dropLast_append_of_ne_nil hne] at hfront
  exact ⟨hlast, fun c hc => hfront c (List.mem_append_right front hc)⟩

theorem ClosedBy.eq_of_begins (ha : ClosedBy ends a) (hb : ClosedBy ends b) (h : a <+: b) :
    a = b := by
  obtain ⟨e, he, hends⟩ := ha.exists_last
  have hsplit := List.dropLast_append_getLast hb.ne_nil
  rw [← hsplit, List.prefix_concat_iff] at h
  rcases h with heq | hbefore
  · exact heq.trans hsplit
  · exact absurd hends (hb.before e (hbefore.subset (List.mem_of_getLast? he)))

theorem ClosedBy.separate (ha : ClosedBy ends a) (hb : ClosedBy ends b)
    (h : ¬ a <:+ b ∧ ¬ b <:+ a) : Separate a b := by
  have hclears {a b : List Char} (ha : ClosedBy ends a) (hb : ClosedBy ends b) (h : ¬ b <:+ a) :
      Clears a b := by
    intro tail htail hne
    have htail_closed := ha.of_suffix htail hne
    constructor
    · intro hbegins
      exact h (htail_closed.eq_of_begins hb hbegins ▸ htail)
    · intro hbegun
      exact h (hb.eq_of_begins htail_closed hbegun ▸ htail)
  exact ⟨hclears ha hb h.2, hclears hb ha h.1⟩

theorem standalone_of_closedBy {patterns : List (List Char)}
    (closed : ∀ p ∈ patterns, ClosedBy ends p)
    (apart : patterns.Pairwise fun a b => ¬ a <:+ b ∧ ¬ b <:+ a) : Standalone patterns where
  nonempty := fun p hp => (closed p hp).ne_nil
  separate := apart.imp_of_mem fun ha hb h => (closed _ ha).separate (closed _ hb) h
  unbordered := fun p hp _ htail hne hborder =>
    ((closed p hp).of_suffix htail hne).eq_of_begins (closed p hp) hborder

end Closed

namespace Standalone

variable {table : List Rule} (standalone : Standalone (table.map (·.1))) {rule other : Rule}
  {s : List Char}

include standalone

theorem rule_ne_nil : ∀ rule ∈ table, rule.1 ≠ [] := fun _ hrule =>
  standalone.nonempty _ (List.mem_map_of_mem hrule)

theorem pairwise : table.Pairwise fun a b => Separate a.1 b.1 :=
  List.pairwise_map.mp standalone.separate

theorem clears_of_ne (hrule : rule ∈ table) (hother : other ∈ table) (hne : other.1 ≠ rule.1) :
    Clears other.1 rule.1 :=
  (standalone.separate.forall (List.mem_map_of_mem hother) (List.mem_map_of_mem hrule) hne).1

theorem prefix_of_prefix_append (hrule : rule ∈ table) (hother : other ∈ table) {front : List Char}
    (hfront : front ≠ []) (h : other.1 <+: front ++ (rule.1 ++ s)) : other.1 <+: front := by
  rcases List.prefix_or_prefix_of_prefix h (List.prefix_append front _) with hin | ⟨tail, htail⟩
  · exact hin
  -- otherwise a part sticks out, and it lies over the pattern behind
  by_cases hempty : tail = []
  · rw [← htail, hempty, List.append_nil]
  exfalso
  rw [← htail, List.prefix_append_right_inj] at h
  have hsuffix : tail <:+ other.1 := ⟨front, htail⟩
  have hshorter : tail.length < other.1.length := by
    have hpos := List.length_pos_iff.mpr hfront
    rw [← htail, List.length_append]
    omega
  rcases List.prefix_or_prefix_of_prefix h (List.prefix_append rule.1 s) with hborder | hover
  · by_cases hsame : other.1 = rule.1
    · rw [← hsame] at hborder
      have hwhole := standalone.unbordered other.1 (List.mem_map_of_mem hother) tail hsuffix hempty
        hborder
      exact absurd (congrArg List.length hwhole) (Nat.ne_of_lt hshorter)
    · exact (standalone.clears_of_ne hrule hother hsame tail hsuffix hempty).1 hborder
  · by_cases hsame : other.1 = rule.1
    · rw [← hsame] at hover
      exact absurd hover.length_le (Nat.not_le.mpr hshorter)
    · exact (standalone.clears_of_ne hrule hother hsame tail hsuffix hempty).2 hover

/-- Each occurrence of a pattern is found, and what stands before and after it is treated as if
it stood alone. -/
theorem substitute_append (hrule : rule ∈ table) (before after : List Char) :
    substitute table (before ++ (rule.1 ++ after)) =
      substitute table before ++ (rule.2 ++ substitute table after) := by
  have hpattern := fun {other : Rule} (hother : other ∈ table) (s : List Char) =>
    substitute_pattern_append standalone.pairwise standalone.rule_ne_nil hother s
  induction hlength : before.length using Nat.strong_induction_on generalizing before with
  | _ n ih =>
  match before with
  | [] => exact hpattern hrule after
  | c :: rest =>
      by_cases hbegins : ∃ other ∈ table, other.1 <+: c :: rest ++ (rule.1 ++ after)
      · obtain ⟨other, hother, hbegun⟩ := hbegins
        obtain ⟨back, hback⟩ :=
          standalone.prefix_of_prefix_append hrule hother (List.cons_ne_nil c rest) hbegun
        have hpos := List.length_pos_iff.mpr (standalone.rule_ne_nil other hother)
        have hback_lt : back.length < n := by
          rw [← hlength, ← hback, List.length_append]
          omega
        rw [← hback, List.append_assoc, hpattern hother, ih back.length hback_lt back rfl,
          hpattern hother, List.append_assoc]
      · have hnone : ∀ other ∈ table, ¬ other.1 <+: c :: (rest ++ (rule.1 ++ after)) :=
          fun other hother hbegun => hbegins ⟨other, hother, hbegun⟩
        have hnone_rest : ∀ other ∈ table, ¬ other.1 <+: c :: rest := fun other hother hbegun =>
          hnone other hother (hbegun.trans (List.prefix_append (c :: rest) _))
        have hrest := ih rest.length (hlength ▸ Nat.lt_succ_self _) rest rfl
        rw [List.cons_append, substitute_cons_of_none hnone, hrest,
          substitute_cons_of_none hnone_rest, List.cons_append]

end Standalone

end DrawingDiary.Text
