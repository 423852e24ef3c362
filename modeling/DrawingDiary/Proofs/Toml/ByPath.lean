import DrawingDiary.Proofs.Toml.InOrder
import Mathlib.Data.List.Sort

/-!
# Laying over, path by path

`at? path` reads the value at the end of a path of keys. Laying one value over another is read
off at every path (`at?_merge_of_some`, `at?_merge_of_none`): what the upper one has at a path
is laid over what the lower one has there, and where it has nothing the lower one shows, unless
the upper one has a value that is no table on the way. Tables in order are equal as soon as they
show the same values (`Entries.InOrder.ext`), so it follows that an empty table changes nothing,
on either side, nor does a value laid over itself or laid over a second time.
-/

namespace DrawingDiary.Toml

/-- The value at the end of a path of keys. -/
def Value.at? : List String → Value → Option Value
  | [], value => some value
  | key :: path, .table entries => (Entries.lookup key entries).bind (Value.at? path)
  | _ :: _, _ => none

def Value.IsTable (value : Value) : Prop := ∃ entries : Entries, value = .table entries

/-- Tables in order that show the same values are equal. -/
theorem Entries.InOrder.ext {a b : Entries} (ha : a.InOrder) (hb : b.InOrder)
    (h : ∀ key, a.lookup key = b.lookup key) : a = b := by
  have irrefl : Std.Irrefl fun a b : String × Value => a.1 < b.1 := ⟨fun a => lt_irrefl a.1⟩
  have antisymm : Std.Antisymm fun a b : String × Value => a.1 < b.1 :=
    ⟨fun a b h h' => absurd h' (lt_asymm h)⟩
  refine List.Pairwise.eq_of_mem_iff ha hb fun entry => ⟨fun hmem => ?_, fun hmem => ?_⟩
  · exact mem_of_lookup ((h entry.1).symm.trans (ha.lookup_of_mem hmem))
  · exact mem_of_lookup ((h entry.1).trans (hb.lookup_of_mem hmem))

namespace Value

variable {base overlay value : Value} {path front : List String} {key : String}

@[simp] theorem at?_nil (value : Value) : value.at? [] = some value := rfl

theorem at?_table (key : String) (path : List String) (entries : Entries) :
    (Value.table entries).at? (key :: path) = (entries.lookup key).bind (at? path) := rfl

theorem at?_cons_of_not_table (h : ¬ value.IsTable) (key : String) (path : List String) :
    value.at? (key :: path) = none := by
  cases value with
  | table entries => exact absurd ⟨entries, rfl⟩ h
  | _ => rfl

theorem at?_append (front path : List String) (value : Value) :
    value.at? (front ++ path) = (value.at? front).bind (at? path) := by
  induction front generalizing value with
  | nil => rfl
  | cons key front ih =>
      cases value with
      | table entries =>
          rw [List.cons_append, at?_table, at?_table, Option.bind_assoc]
          exact congrArg (Option.bind _) (funext ih)
      | _ => rfl

theorem merge_table (base overlay : Entries) :
    (Value.table base).merge (.table overlay) = .table (base.merge overlay) := by
  simp only [merge, Entries.merge]

theorem merge_of_overlay_not_table (base : Value) (h : ¬ overlay.IsTable) :
    base.merge overlay = overlay := by
  cases base with
  | table entries =>
      cases overlay with
      | table upper => exact absurd ⟨upper, rfl⟩ h
      | _ => simp only [merge]
  | _ => simp only [merge]

theorem merge_of_base_not_table (h : ¬ base.IsTable) (overlay : Value) :
    base.merge overlay = overlay :=
  merge_of_not_table (fun entries heq => h ⟨entries, heq⟩) overlay

section Paths

/-- What the upper value has at a path is laid over what the lower one has there. -/
theorem at?_merge_of_some (base : Value) (h : overlay.at? path = some value) :
    (base.merge overlay).at? path =
      some (match base.at? path with
        | some below => below.merge value
        | none => value) := by
  induction path generalizing base overlay with
  | nil =>
      obtain rfl := Option.some.inj h
      rfl
  | cons key path ih =>
      cases overlay with
      | table upper =>
          rw [at?_table, Option.bind_eq_some_iff] at h
          obtain ⟨above, hlookup, hpath⟩ := h
          by_cases hbase : base.IsTable
          · obtain ⟨lower, rfl⟩ := hbase
            rw [merge_table, at?_table, at?_table, Entries.lookup_merge, hlookup]
            cases Entries.lookup key lower with
            | none => exact hpath
            | some below => exact ih below hpath
          · rw [merge_of_base_not_table hbase, at?_cons_of_not_table hbase, at?_table, hlookup]
            exact hpath
      | _ => cases h

/-- Where the upper value has nothing and has only tables on the way, the lower one shows. -/
theorem at?_merge_of_none (base : Value) (hnone : overlay.at? path = none)
    (tables : ∀ front value, front <+: path → front ≠ path → overlay.at? front = some value →
      value.IsTable) : (base.merge overlay).at? path = base.at? path := by
  induction path generalizing base overlay with
  | nil => cases hnone
  | cons key path ih =>
      obtain ⟨upper, rfl⟩ := tables [] overlay List.nil_prefix (List.cons_ne_nil _ _).symm rfl
      by_cases hbase : base.IsTable
      · obtain ⟨lower, rfl⟩ := hbase
        rw [merge_table, at?_table, at?_table, Entries.lookup_merge]
        rw [at?_table] at hnone
        cases habove : Entries.lookup key upper with
        | none => cases Entries.lookup key lower <;> rfl
        | some above =>
            rw [habove] at hnone
            cases Entries.lookup key lower with
            | none => exact hnone
            | some below =>
                refine ih below hnone fun front value hfront hne hvalue => ?_
                refine tables (key :: front) value ?_ ?_ ?_
                · exact List.cons_prefix_cons.mpr ⟨rfl, hfront⟩
                · exact fun heq => hne (List.cons.inj heq).2
                · rw [at?_table, habove]
                  exact hvalue
      · rw [merge_of_base_not_table hbase, hnone, at?_cons_of_not_table hbase]

theorem at?_merge_of_covered (base : Value) (hfront : front <+: path) (hne : front ≠ path)
    (hvalue : overlay.at? front = some value) (notTable : ¬ value.IsTable) :
    (base.merge overlay).at? path = none := by
  obtain ⟨rest, rfl⟩ := hfront
  have hreplaced : (base.merge overlay).at? front = some value := by
    rw [at?_merge_of_some base hvalue]
    cases base.at? front with
    | none => rfl
    | some below => exact congrArg some (merge_of_overlay_not_table below notTable)
  cases rest with
  | nil => exact absurd (List.append_nil front).symm hne
  | cons key rest =>
      rw [at?_append, hreplaced]
      exact at?_cons_of_not_table notTable key rest

end Paths

section Laws

theorem Proper.merge_under (proper : overlay.Proper) :
    (Value.table []).merge overlay = overlay := by
  cases proper with
  | table inOrder _ =>
      rw [merge_table]
      refine congrArg Value.table (Entries.InOrder.ext ?_ inOrder fun key => ?_)
      · exact Entries.InOrder.merge List.Pairwise.nil _
      · rw [Entries.lookup_merge]
        rfl
  | _ => exact merge_of_overlay_not_table _ (by rintro ⟨_, ⟨⟩⟩)

theorem Proper.merge_empty {entries : Entries} (proper : (Value.table entries).Proper) :
    (Value.table entries).merge (.table []) = .table entries := by
  cases proper with
  | table inOrder _ =>
      rw [merge_table]
      refine congrArg Value.table (Entries.InOrder.ext (inOrder.merge _) inOrder fun key => ?_)
      rw [Entries.lookup_merge]
      cases Entries.lookup key entries <;> rfl

theorem Proper.merge_self (proper : value.Proper) : value.merge value = value := by
  induction proper with
  | @table entries inOrder _ ih =>
      rw [merge_table]
      refine congrArg Value.table (Entries.InOrder.ext (inOrder.merge _) inOrder fun key => ?_)
      rw [Entries.lookup_merge]
      cases hlookup : Entries.lookup key entries with
      | none => rfl
      | some value => exact congrArg some (ih _ (Entries.mem_of_lookup hlookup))
  | _ => exact merge_of_overlay_not_table _ (by rintro ⟨_, ⟨⟩⟩)

theorem Proper.merge_merge (hbase : base.Proper) (hoverlay : overlay.Proper) :
    (base.merge overlay).merge overlay = base.merge overlay := by
  induction hbase generalizing overlay with
  | @table lower inOrder _ ih =>
      cases hoverlay with
      | @table upper upperInOrder hentries =>
          rw [merge_table, merge_table]
          have inOrderMerged := inOrder.merge upper
          refine congrArg Value.table
            (Entries.InOrder.ext (inOrderMerged.merge upper) inOrderMerged fun key => ?_)
          rw [Entries.lookup_merge, Entries.lookup_merge]
          cases hbelow : Entries.lookup key lower with
          | none =>
              cases habove : Entries.lookup key upper with
              | none => rfl
              | some above =>
                  exact congrArg some (hentries _ (Entries.mem_of_lookup habove)).merge_self
          | some below =>
              cases habove : Entries.lookup key upper with
              | none => rfl
              | some above =>
                  exact congrArg some (ih _ (Entries.mem_of_lookup hbelow)
                    (hentries _ (Entries.mem_of_lookup habove)))
      | _ => exact merge_of_overlay_not_table _ (by rintro ⟨_, ⟨⟩⟩)
  | _ =>
      simp only [merge]
      exact hoverlay.merge_self

end Laws

structure Overrides (base overlay merged : Value) : Prop where
  /-- a value that is no table counts alone, and so does any value over what is no table -/
  replaced : ∀ path value, overlay.at? path = some value →
    (¬ value.IsTable ∨ ∀ below, base.at? path = some below → ¬ below.IsTable) →
    merged.at? path = some value
  /-- a table is laid over a table -/
  laid : ∀ path lower upper, base.at? path = some (.table lower) →
    overlay.at? path = some (.table upper) →
    merged.at? path = some ((Value.table lower).merge (.table upper))
  /-- what is not overridden is kept, also that there is nothing -/
  kept : ∀ path, overlay.at? path = none →
    (∀ front value, front <+: path → front ≠ path → overlay.at? front = some value →
      value.IsTable) → merged.at? path = base.at? path
  /-- below a value that is no table there is nothing left -/
  covered : ∀ path front value, front <+: path → front ≠ path → overlay.at? front = some value →
    ¬ value.IsTable → merged.at? path = none

theorem overrides_merge (base overlay : Value) : Overrides base overlay (base.merge overlay) where
  replaced := by
    intro path value hvalue happly
    rw [at?_merge_of_some base hvalue]
    cases hbelow : base.at? path with
    | none => rfl
    | some below =>
        rcases happly with notTable | hbase
        · exact congrArg some (merge_of_overlay_not_table below notTable)
        · exact congrArg some (merge_of_base_not_table (hbase below hbelow) value)
  laid := by
    intro path lower upper hlower hupper
    rw [at?_merge_of_some base hupper, hlower]
  kept := fun _ => at?_merge_of_none base
  covered := fun _ _ _ => at?_merge_of_covered base

/-- Laying one table over another overrides it path by path. So an empty table changes nothing,
whether it lies under a table or over it, no more does a value laid over itself, and what was laid
over a table once needs not be laid over it again. -/
theorem merge_overrides_by_path {base overlay : Entries} (hbase : (Value.table base).Proper)
    (hoverlay : (Value.table overlay).Proper) :
    Overrides (.table base) (.table overlay) ((Value.table base).merge (.table overlay)) ∧
      (Value.table []).merge (.table overlay) = .table overlay ∧
      (Value.table base).merge (.table []) = .table base ∧
      (∀ value : Value, value.Proper → value.merge value = value) ∧
      ((Value.table base).merge (.table overlay)).merge (.table overlay) =
        (Value.table base).merge (.table overlay) :=
  ⟨overrides_merge _ _, hoverlay.merge_under, hbase.merge_empty, fun _ proper => proper.merge_self,
    hbase.merge_merge hoverlay⟩

/-- A table with a text in a table below it, and one that gives this text anew. -/
def pageTwice : Entries × Entries :=
  ([("page", .table [("template_file", .string "a")]), ("site", .string "s")],
    [("page", .table [("template_file", .string "b")])])

theorem merge_overrides_by_path_pageTwice :
    let merged := (Value.table pageTwice.1).merge (.table pageTwice.2)
    (Value.table pageTwice.1).Proper ∧ (Value.table pageTwice.2).Proper ∧
      merged.at? ["page", "template_file"] = some (.string "b") ∧
      merged.at? ["page", "template_file", "x"] = none ∧
      merged.at? ["site"] = some (.string "s") ∧
      merged.merge (.table pageTwice.2) = merged := by
  have page (text : String) : (Value.table [("template_file", .string text)]).Proper :=
    .table (List.pairwise_singleton _ _) (List.forall_mem_singleton.mpr (.string text))
  have hbase : (Value.table pageTwice.1).Proper := by
    refine .table (List.pairwise_pair.mpr (by decide)) fun entry hentry => ?_
    rcases List.mem_pair.mp hentry with rfl | rfl
    · exact page "a"
    · exact .string "s"
  have hoverlay : (Value.table pageTwice.2).Proper :=
    .table (List.pairwise_singleton _ _) (List.forall_mem_singleton.mpr (page "b"))
  have notTable : ¬ (Value.string "b").IsTable := by
    rintro ⟨_, ⟨⟩⟩
  obtain ⟨overrides, -, -, -, twice⟩ := merge_overrides_by_path hbase hoverlay
  refine ⟨hbase, hoverlay, ?_, ?_, ?_, twice⟩
  · exact overrides.replaced _ _ rfl (.inl notTable)
  · exact overrides.covered _ ["page", "template_file"] _ ⟨["x"], rfl⟩ (by decide) rfl notTable
  · refine overrides.kept ["site"] rfl fun front value hfront hne hvalue => ?_
    rcases List.prefix_cons_iff.mp hfront with rfl | ⟨rest, rfl, hrest⟩
    · exact ⟨_, (Option.some.inj hvalue).symm⟩
    · exact absurd (congrArg _ (List.prefix_nil.mp hrest)) hne

end Value

end DrawingDiary.Toml
