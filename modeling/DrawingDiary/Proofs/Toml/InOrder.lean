import DrawingDiary.Toml.Merge
import Mathlib.Algebra.Ring.Int.Defs
import Mathlib.Data.String.Basic

/-!
# Tables in the order of their keys

A settings file holds tables that list their keys in order, each once, and whole numbers of
sixty-four bits: its values are `Proper`. Inserting and merging keep the order. What comes of
laying one such table over another is read off by walking along both of them
(`laidOver_merge`): every entry is one that only the lower table has, or the next one of the
upper table, laid over what the lower table has for its key.
-/

namespace DrawingDiary.Toml

namespace Entries

/-- The keys stand in order, and none twice. -/
def InOrder (entries : Entries) : Prop := entries.Pairwise fun a b => a.1 < b.1

theorem mem_of_lookup {key : String} {value : Value} {entries : Entries}
    (h : entries.lookup key = some value) : (key, value) ∈ entries := by
  induction entries with
  | nil => cases h
  | cons entry rest ih =>
      obtain ⟨k, v⟩ := entry
      rw [lookup] at h
      split at h
      next hkey =>
        subst hkey
        obtain rfl := Option.some.inj h
        exact List.mem_cons_self
      next => exact List.mem_cons_of_mem _ (ih h)

theorem lookup_eq_none_iff {key : String} {entries : Entries} :
    entries.lookup key = none ↔ ∀ entry ∈ entries, entry.1 ≠ key := by
  induction entries with
  | nil => simp [lookup]
  | cons entry rest ih =>
      obtain ⟨k, v⟩ := entry
      by_cases h : k = key <;> simp [lookup, h, ih]

theorem lookup_cons_of_ne {k key : String} (v : Value) (entries : Entries) (h : k ≠ key) :
    Entries.lookup key ((k, v) :: entries) = entries.lookup key :=
  if_neg h

theorem ne_of_lookup {first key : String} {value : Value} {entries : Entries}
    (hnone : entries.lookup first = none) (h : entries.lookup key = some value) : first ≠ key := by
  rintro rfl
  rw [hnone] at h
  cases h

theorem InOrder.ne_of_mem {key : String} {value : Value} {rest : Entries}
    (h : InOrder ((key, value) :: rest)) : ∀ entry ∈ rest, entry.1 ≠ key :=
  fun _ hentry => (List.rel_of_pairwise_cons h hentry).ne'

theorem InOrder.lookup_tail {key : String} {value : Value} {rest : Entries}
    (h : InOrder ((key, value) :: rest)) : rest.lookup key = none :=
  lookup_eq_none_iff.mpr h.ne_of_mem

theorem InOrder.lookup_of_mem {entries : Entries} (h : entries.InOrder) {key : String}
    {value : Value} (hmem : (key, value) ∈ entries) : entries.lookup key = some value := by
  induction entries with
  | nil => cases hmem
  | cons entry rest ih =>
      obtain ⟨k, v⟩ := entry
      rcases List.mem_cons.mp hmem with heq | hrest
      · obtain ⟨rfl, rfl⟩ := Prod.mk.inj heq
        exact if_pos rfl
      · rw [lookup_cons_of_ne _ _ (h.ne_of_mem _ hrest).symm]
        exact ih h.tail hrest

theorem mem_insert {key : String} {value : Value} {entries : Entries}
    {entry : String × Value} (h : entry ∈ insert key value entries) :
    entry = (key, value) ∨ entry ∈ entries := by
  induction entries with
  | nil => simpa [insert] using h
  | cons first rest ih =>
      obtain ⟨k, v⟩ := first
      rw [insert] at h
      split at h
      · simpa using h
      · split at h
        · rcases List.mem_cons.mp h with rfl | hrest
          · exact .inl rfl
          · exact .inr (List.mem_cons_of_mem _ hrest)
        · rcases List.mem_cons.mp h with rfl | hrest
          · exact .inr List.mem_cons_self
          · exact (ih hrest).imp_right (List.mem_cons_of_mem _)

theorem InOrder.insert {entries : Entries} (h : entries.InOrder) (key : String)
    (value : Value) : InOrder (Entries.insert key value entries) := by
  induction entries with
  | nil => exact List.pairwise_singleton _ _
  | cons first rest ih =>
      obtain ⟨k, v⟩ := first
      obtain ⟨hfirst, hrest⟩ := List.pairwise_cons.mp h
      rw [Entries.insert]
      split
      next hbelow =>
        refine List.pairwise_cons.mpr ⟨fun entry hentry => ?_, h⟩
        rcases List.mem_cons.mp hentry with rfl | hentry
        · exact hbelow
        · exact hbelow.trans (hfirst entry hentry)
      next hnot =>
        split
        next hsame =>
          subst hsame
          exact List.pairwise_cons.mpr ⟨hfirst, hrest⟩
        next hne =>
          refine List.pairwise_cons.mpr ⟨fun entry hentry => ?_, ih hrest⟩
          rcases mem_insert hentry with rfl | hentry
          · exact lt_of_le_of_ne (not_lt.mp hnot) (Ne.symm hne)
          · exact hfirst entry hentry

theorem inOrder_ofList (entries : List (String × Value)) : InOrder (ofList entries) :=
  List.foldlRecOn (motive := InOrder) entries _ List.Pairwise.nil
    fun _ h entry _ => h.insert entry.1 entry.2

theorem mem_of_mem_ofList {entries : List (String × Value)} {entry : String × Value}
    (h : entry ∈ ofList entries) : entry ∈ entries := by
  suffices ∀ table : Entries, entry ∈ entries.foldl (fun table e => Entries.insert e.1 e.2 table)
      table → entry ∈ table ∨ entry ∈ entries from
    (this [] h).resolve_left List.not_mem_nil
  clear h
  induction entries with
  | nil => exact fun _ h => .inl h
  | cons first rest ih =>
      intro table h
      rcases ih _ h with h | h
      · rcases mem_insert h with rfl | h
        · exact .inr List.mem_cons_self
        · exact .inl h
      · exact .inr (List.mem_cons_of_mem _ h)

theorem InOrder.addMissing {entries : Entries} (h : entries.InOrder) (others : Entries) :
    (entries.addMissing others).InOrder := by
  refine List.foldlRecOn (motive := InOrder) others _ h fun table h entry _ => ?_
  split
  · exact h
  · exact h.insert _ _

theorem keys_mergeEach (overlay entries : Entries) :
    (Value.mergeEach overlay entries).map (·.1) = entries.map (·.1) := by
  induction entries with
  | nil => rfl
  | cons first rest ih => simp [Value.mergeEach, ih]

theorem InOrder.merge {base : Entries} (h : base.InOrder) (overlay : Entries) :
    (base.merge overlay).InOrder := by
  refine InOrder.addMissing ?_ overlay
  have hkeys := (List.pairwise_map (f := fun entry : String × Value => entry.1)
    (R := (· < ·))).mpr h
  rw [← keys_mergeEach overlay base] at hkeys
  exact List.pairwise_map.mp hkeys

/-- A value laid over what a table has for its key. -/
def overlaid (base : Entries) (key : String) (value : Value) : Value :=
  match base.lookup key with
  | some below => below.merge value
  | none => value

/-- Of two tables, the second is what comes of laying the first one over `base`, as far as
their entries are met in the same order. -/
inductive LaidOver (base : Entries) : Entries → Entries → Prop where
  | nil : LaidOver base [] []
  | kept {key : String} {value : Value} {overlay merged : Entries} :
      base.lookup key = some value → LaidOver base overlay merged →
      LaidOver base overlay ((key, value) :: merged)
  | laid {key : String} {value : Value} {overlay merged : Entries} :
      LaidOver base overlay merged →
      LaidOver base ((key, value) :: overlay) ((key, base.overlaid key value) :: merged)

/-- Tables in order are laid over each other as soon as their keys show it. -/
theorem laidOver_of_lookup {base overlay merged : Entries} (overlayInOrder : overlay.InOrder)
    (mergedInOrder : merged.InOrder)
    (hlaid : ∀ key value, overlay.lookup key = some value →
      merged.lookup key = some (base.overlaid key value))
    (hkept : ∀ key value, merged.lookup key = some value → overlay.lookup key = none →
      base.lookup key = some value) : LaidOver base overlay merged := by
  induction merged generalizing overlay with
  | nil =>
      cases overlay with
      | nil => exact .nil
      | cons first rest =>
          have habsurd := hlaid first.1 first.2 (if_pos rfl)
          cases habsurd
  | cons entry merged ih =>
      obtain ⟨key, value⟩ := entry
      have hself : Entries.lookup key ((key, value) :: merged) = some value := if_pos rfl
      cases hfound : overlay.lookup key with
      | none =>
          refine .kept (hkept key value hself hfound)
            (ih overlayInOrder mergedInOrder.tail (fun k v hk => ?_) fun k v hk hnone => ?_)
          · rw [← lookup_cons_of_ne value merged (ne_of_lookup hfound hk)]
            exact hlaid k v hk
          · have hne : key ≠ k := ne_of_lookup mergedInOrder.lookup_tail hk
            exact hkept k v ((lookup_cons_of_ne value merged hne).trans hk) hnone
      | some upper =>
          cases overlay with
          | nil => cases hfound
          | cons first rest =>
              obtain ⟨first, v⟩ := first
              have hfirst : first = key := by
                by_contra hne
                have hmem := mem_of_lookup ((lookup_cons_of_ne v rest hne).symm.trans hfound)
                have hbelow := List.rel_of_pairwise_cons overlayInOrder hmem
                have hmerged := hlaid first v (if_pos rfl)
                rw [lookup_cons_of_ne value merged (Ne.symm hne)] at hmerged
                have habove := List.rel_of_pairwise_cons mergedInOrder (mem_of_lookup hmerged)
                exact lt_asymm hbelow habove
              subst hfirst
              obtain rfl : v = upper := Option.some.inj ((if_pos rfl).symm.trans hfound)
              obtain rfl : value = base.overlaid first v :=
                Option.some.inj (hself.symm.trans (hlaid first v hfound))
              refine .laid (ih overlayInOrder.tail mergedInOrder.tail (fun k w hk => ?_)
                fun k w hk hnone => ?_)
              · have hne : first ≠ k := ne_of_lookup overlayInOrder.lookup_tail hk
                rw [← lookup_cons_of_ne (base.overlaid first v) merged hne]
                exact hlaid k w ((lookup_cons_of_ne v rest hne).trans hk)
              · have hne : first ≠ k := ne_of_lookup mergedInOrder.lookup_tail hk
                exact hkept k w ((lookup_cons_of_ne _ merged hne).trans hk)
                  ((lookup_cons_of_ne v rest hne).trans hnone)

/-- Laying one table over another gives what walking along both of them gives. -/
theorem laidOver_merge {base overlay : Entries} (baseInOrder : base.InOrder)
    (overlayInOrder : overlay.InOrder) : LaidOver base overlay (base.merge overlay) := by
  refine laidOver_of_lookup overlayInOrder (baseInOrder.merge overlay) (fun key value h => ?_)
    fun key value h hnone => ?_
  · rw [lookup_merge, h, overlaid]
    cases base.lookup key <;> rfl
  · rw [lookup_merge, hnone] at h
    cases hbase : base.lookup key with
    | none =>
        rw [hbase] at h
        cases h
    | some below =>
        rw [hbase] at h
        exact h

end Entries

/-- A value as a settings file can hold it: whole numbers have sixty-four bits with a sign,
and tables their keys in order, each once. -/
inductive Value.Proper : Value → Prop where
  | string (text : String) : Proper (.string text)
  | integer {n : Int} : -2 ^ 63 ≤ n → n < 2 ^ 63 → Proper (.integer n)
  | float (x : Float) : Proper (.float x)
  | boolean (b : Bool) : Proper (.boolean b)
  | dateTime (moment : DateTime) : Proper (.dateTime moment)
  | array {items : List Value} : (∀ item ∈ items, Proper item) → Proper (.array items)
  | table {entries : Entries} : entries.InOrder → (∀ entry ∈ entries, Proper entry.2) →
      Proper (.table entries)

theorem Value.merge_of_not_table {base : Value} (h : ∀ entries, base ≠ .table entries)
    (overlay : Value) : base.merge overlay = overlay := by
  cases base with
  | table entries => exact absurd rfl (h entries)
  | _ => simp only [merge]

end DrawingDiary.Toml
