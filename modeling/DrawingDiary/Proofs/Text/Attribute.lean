import DrawingDiary.Text.Attribute

/-!
# Escaped text has no markup

A pattern of one character is replaced character by character (`replaceAll_singleton`), so
escaping writes for each character its entity, whatever stands around it
(`toList_escapeAttribute`). The `markup` of a text are its quotes and angle brackets in order.
An entity has none, and so an escaped text has none (`markup_escapeAttribute`).
-/

namespace DrawingDiary.Text

/-- Where the pattern is a single character, each character is replaced by itself. -/
theorem replaceAll_singleton (c : Char) (value s : List Char) :
    replaceAll [c] value s = s.flatMap fun x => if x = c then value else [x] := by
  unfold replaceAll substitute
  induction s with
  | nil => rfl
  | cons x s ih =>
      by_cases hx : x = c
      · have hrule : matchRule? [([c], value)] (x :: s) = some ([c], value) := by
          simp [matchRule?, hx]
        rw [substituteFrom_zero_of_some hrule, List.flatMap_cons, if_pos hx]
        exact congrArg (value ++ ·) ih
      · have hnone : matchRule? [([c], value)] (x :: s) = none := by
          simp [matchRule?, Ne.symm hx]
        rw [substituteFrom_zero_of_none hnone, List.flatMap_cons, if_neg hx, ih]
        rfl

/-- How a character is written inside a quoted attribute. -/
def entity (c : Char) : List Char :=
  if c = '&' then "&amp;".toList
  else if c = '"' then "&quot;".toList
  else if c = '<' then "&lt;".toList
  else if c = '>' then "&gt;".toList
  else [c]

theorem replaceInTurn_singleton (c : Char) : replaceInTurn attributeEntities [c] = entity c := by
  simp only [replaceInTurn, attributeEntities, List.foldl_cons, List.foldl_nil,
    replaceAll_singleton, List.flatMap_singleton]
  unfold entity
  by_cases hand : c = '&'
  · subst hand
    decide
  · by_cases hquote : c = '"'
    · subst hquote
      decide
    · by_cases hless : c = '<'
      · subst hless
        decide
      · by_cases hgreater : c = '>'
        · subst hgreater
          decide
        · simp [hand, hquote, hless, hgreater]

theorem replaceInTurn_eq_flatMap (table : List Rule)
    (single : ∀ rule ∈ table, rule.1.length = 1) (s : List Char) :
    replaceInTurn table s = s.flatMap fun c => replaceInTurn table [c] := by
  induction table generalizing s with
  | nil => simp [replaceInTurn]
  | cons rule rest ih =>
      obtain ⟨hrule, hrest⟩ := List.forall_mem_cons.mp single
      obtain ⟨c, hc⟩ := List.length_eq_one_iff.mp hrule
      have hfirst (t : List Char) : replaceInTurn (rule :: rest) t =
          replaceInTurn rest (t.flatMap fun x => if x = c then rule.2 else [x]) := by
        rw [← replaceAll_singleton, ← hc]
        rfl
      simp only [hfirst]
      rw [ih hrest, List.flatMap_assoc]
      congr 1
      funext x
      rw [List.flatMap_singleton]
      exact (ih hrest _).symm

theorem toList_escapeAttribute (text : String) :
    (escapeAttribute text).toList = text.toList.flatMap entity := by
  rw [escapeAttribute, String.toList_ofList, replaceInTurn_eq_flatMap _ (by decide)]
  simp only [replaceInTurn_singleton]

/-- Whether a character ends an attribute or begins or ends a tag. -/
def isMarkup (c : Char) : Bool := c == '"' || c == '<' || c == '>'

/-- The quotes and angle brackets of a text, in order. -/
def markup (text : String) : List Char := text.toList.filter isMarkup

theorem markup_append (a b : String) : markup (a ++ b) = markup a ++ markup b := by
  rw [markup, String.toList_append, List.filter_append]
  rfl

theorem markup_join (pieces : List String) :
    markup (String.join pieces) = pieces.flatMap markup := by
  induction pieces with
  | nil => rfl
  | cons piece rest ih => rw [String.join_cons, markup_append, ih, List.flatMap_cons]

theorem markup_eq_nil_iff {text : String} :
    markup text = [] ↔ ∀ c ∈ text.toList, isMarkup c = false := by
  simp [markup, List.filter_eq_nil_iff]

theorem filter_isMarkup_entity (c : Char) : (entity c).filter isMarkup = [] := by
  unfold entity
  split
  · decide
  · split
    · decide
    · split
      · decide
      · split
        · decide
        next hquote hless hgreater => simp [isMarkup, hquote, hless, hgreater]

/-- An escaped text neither ends an attribute nor begins or ends a tag. -/
theorem markup_escapeAttribute (text : String) : markup (escapeAttribute text) = [] := by
  rw [markup, toList_escapeAttribute, List.filter_flatMap]
  simp [filter_isMarkup_entity]

end DrawingDiary.Text
