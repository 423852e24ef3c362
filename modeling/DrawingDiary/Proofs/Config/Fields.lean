import DrawingDiary.Config.Load
import DrawingDiary.Proofs.Toml.InOrder
import Mathlib.Data.List.Nodup
import Mathlib.Data.List.Pairwise

/-!
# Records and their fields

A setting puts its value into a field of the record, and into no other. `HasFields` says so of
all settings of a schema. Then a table in order is accepted exactly when all its keys are names
of fields and each of its values can be read, and the record has what was read in these fields
and its stock in all others (`HasFields.read_eq_ok_iff`). And a table of stock values below it
changes nothing, neither in the record nor in the refusal (`HasFields.read_merge`): a stock value
puts into its field what is there already, so it can be passed over on the walk along the laid
table.
-/

namespace DrawingDiary.Config

open Toml

/-- Whether something is what a given value stands for, or the stock where none is given. -/
def IsGivenOr {α : Type} (stands : Value → α → Prop) (stock : α) (given : Option Value)
    (actual : α) : Prop :=
  match given with
  | some value => stands value actual
  | none => actual = stock

theorem IsGivenOr.congr {α : Type} {stands stands' : Value → α → Prop} {stock actual : α}
    {given : Option Value}
    (h : ∀ value, given = some value → (stands value actual ↔ stands' value actual)) :
    IsGivenOr stands stock given actual ↔ IsGivenOr stands' stock given actual := by
  cases given with
  | none => exact Iff.rfl
  | some value => exact h value rfl

/-- A setting together with the field of the record that it fills. -/
structure Field (α : Type) where
  name : String
  Content : Type
  read : Value → Except Refusal Content
  get : α → Content
  place : Content → α → α
  get_place : ∀ content record, get (place content record) = content := by intros; rfl
  place_get : ∀ record, place (get record) record = record := by intros; rfl

/-- A value that is read as the stock, and that does not matter when anything is laid over it. -/
structure ReadAsStock {β : Type} (read : Value → Except Refusal β) (stock : β) (value : Value) :
    Prop where
  read_eq : read value = .ok stock
  read_merge : ∀ {upper : Value}, upper.Proper → read (value.merge upper) = read upper

namespace Field

variable {α : Type}

def setting (f : Field α) : Setting α := .of f.name f.read f.place

/-- Whether filling a field leaves another one as it is. -/
def Spares (f g : Field α) : Prop :=
  ∀ content record, g.get (f.place content record) = g.get record

instance symm_spares : Std.Symm fun f g : Field α => f.Spares g ∧ g.Spares f :=
  ⟨fun _ _ spares => ⟨spares.2, spares.1⟩⟩

/-- Whether a field has what a given value is read as, and its stock where none is given. -/
def Shows (f : Field α) (stock : α) (given : Option Value) (record : α) : Prop :=
  IsGivenOr (fun value content => f.read value = .ok content) (f.get stock) given (f.get record)

theorem shows_some {f : Field α} {stock record : α} {value : Value} :
    f.Shows stock (some value) record ↔ f.read value = .ok (f.get record) := Iff.rfl

theorem shows_none {f : Field α} {stock record : α} :
    f.Shows stock none record ↔ f.get record = f.get stock := Iff.rfl

@[simp] theorem name_setting (f : Field α) : f.setting.name = f.name := rfl

theorem put_setting (f : Field α) (value : Value) (record : α) :
    f.setting.put value record = (f.read value).map fun content => f.place content record := rfl

end Field

namespace Schema

variable {α : Type}

/-- The settings of a schema fill these fields, each its own, and there is nothing else in
the record. -/
structure HasFields (schema : Schema α) (fields : List (Field α)) : Prop where
  settings_eq : schema.settings = fields.map Field.setting
  nodup : (fields.map (·.name)).Nodup
  spares : fields.Pairwise fun f g => f.Spares g ∧ g.Spares f
  ext : ∀ {r s : α}, (∀ f ∈ fields, f.get r = f.get s) → r = s

section HasFields

variable {schema : Schema α} {fields : List (Field α)} {f g : Field α}

theorem HasFields.eq_of_name (h : schema.HasFields fields) (hf : f ∈ fields) (hg : g ∈ fields)
    (hname : f.name = g.name) : f = g :=
  List.inj_on_of_nodup_map h.nodup hf hg hname

theorem HasFields.get_place_of_ne (h : schema.HasFields fields) (hf : f ∈ fields)
    (hg : g ∈ fields) (hne : f.name ≠ g.name) (content : f.Content) (r : α) :
    g.get (f.place content r) = g.get r :=
  (h.spares.forall hf hg (ne_of_apply_ne _ hne)).1 content r

theorem HasFields.setting?_eq_some (h : schema.HasFields fields) (hf : f ∈ fields) :
    schema.setting? f.name = some f.setting := by
  rw [setting?, h.settings_eq, List.find?_map]
  cases hfind : fields.find? ((fun setting : Setting α => decide (setting.name = f.name)) ∘
      Field.setting) with
  | none => exact absurd (decide_eq_true rfl) (List.find?_eq_none.mp hfind f hf)
  | some g =>
      have hfits := List.find?_some hfind
      have hname : g.name = f.name := of_decide_eq_true hfits
      obtain rfl := h.eq_of_name (List.mem_of_find?_eq_some hfind) hf hname
      rfl

theorem HasFields.setting?_eq_none (h : schema.HasFields fields) {key : String}
    (hkey : ∀ f ∈ fields, f.name ≠ key) : schema.setting? key = none := by
  rw [setting?, h.settings_eq, List.find?_map, Option.map_eq_none_iff, List.find?_eq_none]
  exact fun f hf hname => hkey f hf (of_decide_eq_true hname)

theorem HasFields.putEntries_cons (h : schema.HasFields fields) (hf : f ∈ fields)
    (value : Value) (rest : Entries) (r : α) :
    schema.putEntries ((f.name, value) :: rest) r =
      match f.read value with
      | .error refusal => .error (refusal.under f.name)
      | .ok content => schema.putEntries rest (f.place content r) := by
  rw [putEntries, h.setting?_eq_some hf]
  simp only [Field.put_setting]
  cases f.read value <;> rfl

theorem HasFields.putEntries_cons_of_unknown (h : schema.HasFields fields) {key : String}
    (hkey : ∀ f ∈ fields, f.name ≠ key) (value : Value) (rest : Entries) (r : α) :
    schema.putEntries ((key, value) :: rest) r = refuse (.unknownName key schema.names) := by
  rw [putEntries, h.setting?_eq_none hkey]

/-- A table whose keys are all different is accepted when its keys are names of fields and its
values can be read. The record then has them in their fields, and what it had in all others. -/
theorem HasFields.putEntries_eq_ok_iff (h : schema.HasFields fields) {entries : Entries}
    (inOrder : entries.InOrder) {r s : α} :
    schema.putEntries entries r = .ok s ↔
      (∀ entry ∈ entries, entry.1 ∈ fields.map (·.name)) ∧
        ∀ f ∈ fields, f.Shows r (entries.lookup f.name) s := by
  induction entries generalizing r with
  | nil =>
      constructor
      · intro heq
        obtain rfl : r = s := Except.ok.inj heq
        exact ⟨fun _ hentry => (List.not_mem_nil hentry).elim, fun _ _ => rfl⟩
      · intro hshows
        exact congrArg Except.ok (h.ext fun f hf => (hshows.2 f hf).symm)
  | cons entry rest ih =>
      obtain ⟨key, value⟩ := entry
      by_cases hkey : key ∈ fields.map (·.name)
      · obtain ⟨f, hf, rfl⟩ := List.mem_map.mp hkey
        have hrest : Entries.lookup f.name rest = none := inOrder.lookup_tail
        have hfound : Entries.lookup f.name ((f.name, value) :: rest) = some value := if_pos rfl
        rw [h.putEntries_cons hf]
        cases hread : f.read value with
        | error refusal =>
            refine iff_of_false nofun fun hshows => ?_
            have habsurd := hshows.2 f hf
            rw [hfound, Field.shows_some, hread] at habsurd
            cases habsurd
        | ok content =>
            simp only
            rw [ih inOrder.tail, List.forall_mem_cons]
            refine and_congr (iff_and_self.mpr fun _ => hkey)
              (forall₂_congr fun g hg => ?_)
            by_cases hname : f.name = g.name
            · obtain rfl := h.eq_of_name hf hg hname
              rw [hrest, hfound, Field.shows_none, Field.shows_some, hread, Except.ok.injEq,
                f.get_place]
              exact eq_comm
            · rw [Entries.lookup_cons_of_ne value rest hname]
              cases Entries.lookup g.name rest with
              | none => rw [Field.shows_none, Field.shows_none, h.get_place_of_ne hf hg hname]
              | some _ => rw [Field.shows_some, Field.shows_some]
      · refine iff_of_false ?_ fun hshows => hkey (hshows.1 _ List.mem_cons_self)
        rw [h.putEntries_cons_of_unknown fun f hf hname => hkey (List.mem_map.mpr ⟨f, hf, hname⟩)]
        exact nofun

theorem HasFields.read_eq_ok_iff (h : schema.HasFields fields) {entries : Entries}
    (inOrder : entries.InOrder) {r : α} :
    schema.read (.table entries) = .ok r ↔
      (∀ entry ∈ entries, entry.1 ∈ fields.map (·.name)) ∧
        ∀ f ∈ fields, f.Shows schema.stock (entries.lookup f.name) r :=
  h.putEntries_eq_ok_iff inOrder

/-- The table has stock values only, each under the name of its field. -/
structure IsStock (schema : Schema α) (fields : List (Field α)) (base : Entries) : Prop where
  inOrder : base.InOrder
  field : ∀ {key value}, base.lookup key = some value →
    ∃ f ∈ fields, f.name = key ∧ ReadAsStock f.read (f.get schema.stock) value

variable {base : Entries}

theorem HasFields.readAsStock (h : schema.HasFields fields)
    (isStock : schema.IsStock fields base) (hf : f ∈ fields) {value : Value}
    (hfound : base.lookup f.name = some value) :
    ReadAsStock f.read (f.get schema.stock) value := by
  obtain ⟨g, hg, hname, hread⟩ := isStock.field hfound
  obtain rfl := h.eq_of_name hg hf hname
  exact hread

theorem HasFields.read_overlaid (h : schema.HasFields fields) (isStock : schema.IsStock fields base)
    (hf : f ∈ fields) {upper : Value} (proper : upper.Proper) :
    f.read (base.overlaid f.name upper) = f.read upper := by
  rw [Entries.overlaid]
  cases hbase : base.lookup f.name with
  | none => rfl
  | some value => exact (h.readAsStock isStock hf hbase).read_merge proper

/-- A table that is given as a list has stock values only if the list has. -/
theorem isStock_ofList {entries : List (String × Value)}
    (hentries : ∀ entry ∈ entries, ∃ f ∈ fields, f.name = entry.1 ∧
      ReadAsStock f.read (f.get schema.stock) entry.2) :
    schema.IsStock fields (Entries.ofList entries) where
  inOrder := Entries.inOrder_ofList entries
  field hfound := hentries _ (Entries.mem_of_mem_ofList (Entries.mem_of_lookup hfound))

theorem HasFields.read_stock (h : schema.HasFields fields)
    (isStock : schema.IsStock fields base) : schema.read (.table base) = .ok schema.stock := by
  refine (h.read_eq_ok_iff isStock.inOrder).mpr ⟨fun entry hentry => ?_, fun f hf => ?_⟩
  · obtain ⟨f, hf, hname, -⟩ := isStock.field (isStock.inOrder.lookup_of_mem hentry)
    exact List.mem_map.mpr ⟨f, hf, hname⟩
  · cases hbase : base.lookup f.name with
    | none => exact rfl
    | some value => exact (h.readAsStock isStock hf hbase).read_eq

/-- Stock values in a table can be left out, as long as their fields have the stock. -/
theorem HasFields.putEntries_of_laidOver (h : schema.HasFields fields)
    (isStock : schema.IsStock fields base) {overlay merged : Entries}
    (laid : Entries.LaidOver base overlay merged) (inOrder : merged.InOrder)
    (proper : ∀ entry ∈ overlay, entry.2.Proper) {r : α}
    (untouched : ∀ entry ∈ merged, ∀ f ∈ fields, f.name = entry.1 →
      f.get r = f.get schema.stock) :
    schema.putEntries merged r = schema.putEntries overlay r := by
  induction laid generalizing r with
  | nil => rfl
  | kept hbase _ ih =>
      obtain ⟨hself, hrest⟩ := List.forall_mem_cons.mp untouched
      obtain ⟨f, hf, rfl, hread⟩ := isStock.field hbase
      rw [h.putEntries_cons hf, hread.read_eq]
      simp only
      rw [← hself f hf rfl, f.place_get]
      exact ih inOrder.tail proper hrest
  | @laid key value overlay merged _ ih =>
      obtain ⟨hproper, hrest⟩ := List.forall_mem_cons.mp proper
      by_cases hkey : ∃ f ∈ fields, f.name = key
      · obtain ⟨f, hf, rfl⟩ := hkey
        rw [h.putEntries_cons hf, h.putEntries_cons hf, h.read_overlaid isStock hf hproper]
        cases f.read value with
        | error refusal => rfl
        | ok content =>
            refine ih inOrder.tail hrest fun entry hentry g hg hname => ?_
            have hne : f.name ≠ g.name := fun heq =>
              inOrder.ne_of_mem entry hentry (hname.symm.trans heq.symm)
            rw [h.get_place_of_ne hf hg hne]
            exact untouched entry (List.mem_cons_of_mem _ hentry) g hg hname
      · have hunknown : ∀ f ∈ fields, f.name ≠ key := fun f hf hname => hkey ⟨f, hf, hname⟩
        rw [h.putEntries_cons_of_unknown hunknown, h.putEntries_cons_of_unknown hunknown]

/-- What is laid over a table of stock values is read as if it stood alone. -/
theorem HasFields.read_merge (h : schema.HasFields fields)
    (isStock : schema.IsStock fields base) {upper : Value} (proper : upper.Proper) :
    schema.read ((Value.table base).merge upper) = schema.read upper := by
  cases proper with
  | table inOrder entries =>
      rw [Value.merge]
      exact h.putEntries_of_laidOver isStock (Entries.laidOver_merge isStock.inOrder inOrder)
        (isStock.inOrder.merge _) entries fun _ _ _ _ _ => rfl
  | _ => simp only [Value.merge]

theorem HasFields.readAsStock_table (h : schema.HasFields fields)
    (isStock : schema.IsStock fields base) :
    ReadAsStock schema.read schema.stock (.table base) :=
  ⟨h.read_stock isStock, h.read_merge isStock⟩

end HasFields

end Schema

end DrawingDiary.Config
