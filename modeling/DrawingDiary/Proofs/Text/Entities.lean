import DrawingDiary.Proofs.Text.Attribute
import DrawingDiary.Proofs.Text.Simultaneous

/-!
# Entities are read back

An escaped text is made of one piece for each character, an entity or the character itself
(`entity_cases`). The entities end with a semicolon that they have nowhere else, so none of them
can be laid over another one, and one pass from the left reads piece after piece
(`substitute_entity_append`). What looks like an entity in the text itself is no exception: its
ampersand was written as an entity before.
-/

namespace DrawingDiary.Text

/-- The entities with the characters they are read as. -/
abbrev entityTable : List Rule := attributeEntities.map fun rule => (rule.2, rule.1)

theorem standalone_entities : Standalone (entityTable.map (·.1)) := by
  have closed : ∀ p ∈ entityTable.map (·.1), ClosedBy [';'] p := by decide
  exact standalone_of_closedBy closed (by decide)

theorem exists_entity_tail {rule : Rule} (hrule : rule ∈ entityTable) :
    ∃ tail, rule.1 = '&' :: tail ∧ '&' ∉ tail := by
  have hall : ∀ rule ∈ entityTable, rule.1.head? = some '&' ∧ '&' ∉ rule.1.tail := by decide
  obtain ⟨hhead, htail⟩ := hall rule hrule
  obtain ⟨tail, htext⟩ := List.head?_eq_some_iff.mp hhead
  rw [htext] at htail
  exact ⟨tail, htext, htail⟩

/-- A character is written as the entity that is read as it, or as itself, unless it is an
ampersand. -/
theorem entity_cases (c : Char) :
    (entity c, [c]) ∈ entityTable ∨ c ≠ '&' ∧ entity c = [c] := by
  unfold entity
  split
  next hand =>
    subst hand
    exact .inl (by decide)
  next hand =>
    split
    next hquote =>
      subst hquote
      exact .inl (by decide)
    · split
      next hless =>
        subst hless
        exact .inl (by decide)
      · split
        next hgreater =>
          subst hgreater
          exact .inl (by decide)
        · exact .inr ⟨hand, rfl⟩

/-- A written character is read back, whatever follows. -/
theorem substitute_entity_append (c : Char) (s : List Char) :
    substitute entityTable (entity c ++ s) = c :: substitute entityTable s := by
  rcases entity_cases c with hrule | ⟨hand, hself⟩
  · exact substitute_pattern_append standalone_entities.pairwise standalone_entities.rule_ne_nil
      hrule s
  · have hnone : ∀ rule ∈ entityTable, ¬ rule.1 <+: c :: s := by
      intro rule hrule hbegins
      obtain ⟨tail, htext, -⟩ := exists_entity_tail hrule
      rw [htext, List.cons_prefix_cons] at hbegins
      exact hand hbegins.1.symm
    rw [hself]
    exact substitute_cons_of_none hnone

theorem substitute_flatMap_entity (s : List Char) :
    substitute entityTable (s.flatMap entity) = s := by
  induction s with
  | nil => rfl
  | cons c s ih => rw [List.flatMap_cons, substitute_entity_append, ih]

theorem decodeEntities_eq (text : String) : decodeEntities (escapeAttribute text) = text := by
  rw [decodeEntities, toList_escapeAttribute, substitute_flatMap_entity, String.ofList_toList]

theorem exists_piece_of_flatMap_eq {α β : Type} {piece : α → List β} {xs : List α} {b : β}
    {before after : List β} (h : xs.flatMap piece = before ++ b :: after) :
    ∃ x front back rest, piece x = front ++ b :: back ∧ after = back ++ rest := by
  induction xs generalizing before with
  | nil => simp at h
  | cons x xs ih =>
      rw [List.flatMap_cons, List.append_eq_append_iff] at h
      rcases h with ⟨between, -, hrest⟩ | ⟨between, hpiece, hrest⟩
      · exact ih hrest
      · cases between with
        | nil =>
            have hbehind : xs.flatMap piece = [] ++ b :: after := hrest.symm
            exact ih hbehind
        | cons first back =>
            obtain ⟨rfl, hafter⟩ := List.cons.inj hrest
            exact ⟨x, before, back, _, hpiece, hafter⟩

theorem exists_entity_of_ampersand {text : String} {before after : List Char}
    (h : (escapeAttribute text).toList = before ++ '&' :: after) :
    ∃ rule ∈ entityTable, rule.1 <+: '&' :: after := by
  rw [toList_escapeAttribute] at h
  obtain ⟨c, front, back, rest, hpiece, rfl⟩ := exists_piece_of_flatMap_eq h
  rcases entity_cases c with hrule | ⟨hand, hself⟩
  · obtain ⟨tail, htext, honly⟩ := exists_entity_tail hrule
    have hpiece' : front ++ '&' :: back = '&' :: tail := hpiece.symm.trans htext
    cases front with
    | nil =>
        obtain rfl : back = tail := (List.cons.inj hpiece').2
        refine ⟨_, hrule, ?_⟩
        rw [htext]
        exact ⟨rest, rfl⟩
    | cons first front =>
        obtain ⟨-, htail⟩ := List.cons.inj hpiece'
        exact absurd (htail ▸ List.mem_append_right front List.mem_cons_self) honly
  · rw [hself] at hpiece
    have hmem : '&' ∈ [c] := hpiece ▸ List.mem_append_right front List.mem_cons_self
    exact absurd (List.mem_singleton.mp hmem).symm hand

/-- Escaping a text for an attribute is safe and loses nothing: no character is left that ends an
attribute or a tag, every ampersand begins one of the four entities, and reading these back from
the left, each once, gives the text itself, so different texts are never written alike. -/
theorem escapeAttribute_lossless (text : String) :
    ('"' ∉ (escapeAttribute text).toList ∧ '<' ∉ (escapeAttribute text).toList ∧
        '>' ∉ (escapeAttribute text).toList) ∧
      (∀ before after, (escapeAttribute text).toList = before ++ '&' :: after →
        ∃ name ∈ ["&amp;", "&quot;", "&lt;", "&gt;"], name.toList <+: '&' :: after) ∧
      decodeEntities (escapeAttribute text) = text ∧ Function.Injective escapeAttribute := by
  have nomarkup := markup_eq_nil_iff.mp (markup_escapeAttribute text)
  refine ⟨⟨?_, ?_, ?_⟩, fun before after h => ?_, decodeEntities_eq text,
    Function.LeftInverse.injective decodeEntities_eq⟩
  · exact fun hmem => absurd (nomarkup _ hmem) (by decide)
  · exact fun hmem => absurd (nomarkup _ hmem) (by decide)
  · exact fun hmem => absurd (nomarkup _ hmem) (by decide)
  · have hnames : ∀ rule ∈ entityTable,
        ∃ name ∈ ["&amp;", "&quot;", "&lt;", "&gt;"], name.toList = rule.1 := by decide
    obtain ⟨rule, hrule, hbegins⟩ := exists_entity_of_ampersand h
    obtain ⟨name, hname, htext⟩ := hnames rule hrule
    exact ⟨name, hname, htext ▸ hbegins⟩

/-- A text that holds an entity already. -/
theorem escapeAttribute_lossless_entity :
    escapeAttribute "&lt;<" = "&amp;lt;&lt;" ∧
      (∃ name ∈ ["&amp;", "&quot;", "&lt;", "&gt;"], name.toList <+: "&lt;".toList) ∧
      decodeEntities "&amp;lt;&lt;" = "&lt;<" := by
  have hwritten : escapeAttribute "&lt;<" = "&amp;lt;&lt;" := by decide
  obtain ⟨-, entities, decoded, -⟩ := escapeAttribute_lossless "&lt;<"
  refine ⟨hwritten, entities "&amp;lt;".toList "lt;".toList ?_, ?_⟩
  · rw [hwritten]
    rfl
  · rw [← hwritten]
    exact decoded

end DrawingDiary.Text
