import StreamInfa.Lib.Sorted
import StreamInfa.Lib.Text
import Mathlib.Data.List.Lex
import Mathlib.Data.Char

/-!
The layers of the configuration (`merge_toml_values` of `src/core/config.rs`).

`AppConfig::load` merges the values of the environment's file into those of the default one,
table by table. **`merge_layers`**: at every key path the overlay's value stands where the two
have no tables to merge; the base's stands where the overlay has nothing at the path and no
value that is not a table in front of it; and merging again changes nothing.
-/

namespace StreamInfa

/-- A TOML value; `bits` are those of a floating-point number, and the entries of a table are in
the order of their keys. -/
inductive TomlValue where
  | string (value : Text)
  | integer (value : Int64)
  | float (bits : UInt64)
  | boolean (value : Bool)
  | datetime (value : Text)
  | array (items : List TomlValue)
  | table (entries : List (Text × TomlValue))

mutual

/-- What `base` becomes when `overlay` is merged into it. -/
def mergeTomlValues : TomlValue → TomlValue → TomlValue
  | .table base, .table overlay => .table (mergeEntries base overlay)
  | _, overlay => overlay

/-- The loop over the overlay's entries. -/
def mergeEntries (base : List (Text × TomlValue)) :
    List (Text × TomlValue) → List (Text × TomlValue)
  | [] => base
  | (key, overlayValue) :: rest =>
    match base.lookup key with
    | some baseValue =>
      mergeEntries (insertEntry key (mergeTomlValues baseValue overlayValue) base) rest
    | none => mergeEntries (insertEntry key overlayValue base) rest

end

namespace TomlValue

/-- The keys of every table inside the value ascend. -/
inductive WellFormed : TomlValue → Prop
  | string (value : Text) : WellFormed (.string value)
  | integer (value : Int64) : WellFormed (.integer value)
  | float (bits : UInt64) : WellFormed (.float bits)
  | boolean (value : Bool) : WellFormed (.boolean value)
  | datetime (value : Text) : WellFormed (.datetime value)
  | array (items : List TomlValue) (hitems : ∀ item ∈ items, WellFormed item) :
      WellFormed (.array items)
  | table (entries : List (Text × TomlValue)) (hkeys : Ascending entries)
      (hvalues : ∀ e ∈ entries, WellFormed e.2) : WellFormed (.table entries)

def isTable : TomlValue → Bool
  | .table _ => true
  | _ => false

/-- The value at a path of keys. -/
def atPath : TomlValue → List Text → Option TomlValue
  | value, [] => some value
  | .table entries, key :: path => (entries.lookup key).bind fun value => atPath value path
  | _, _ :: _ => none

end TomlValue

open TomlValue

/-! ### One table -/

/-- What a key maps to in the merge of two tables. -/
def mergedEntry : Option TomlValue → Option TomlValue → Option TomlValue
  | base, none => base
  | none, some overlayValue => some overlayValue
  | some baseValue, some overlayValue => some (mergeTomlValues baseValue overlayValue)

section Entries

variable {base overlay : List (Text × TomlValue)}

/-- The loop puts one entry in its place. -/
theorem mergeEntries_cons (base : List (Text × TomlValue)) (key : Text) (value : TomlValue)
    (rest : List (Text × TomlValue)) :
    ∃ merged, mergedEntry (base.lookup key) (some value) = some merged ∧
      mergeEntries base ((key, value) :: rest) =
        mergeEntries (insertEntry key merged base) rest := by
  cases hkey : base.lookup key with
  | none => exact ⟨value, rfl, by rw [mergeEntries, hkey]⟩
  | some baseValue => exact ⟨mergeTomlValues baseValue value, rfl, by rw [mergeEntries, hkey]⟩

theorem lookup_mergeEntries (base : List (Text × TomlValue)) (h : Ascending overlay) (k : Text) :
    (mergeEntries base overlay).lookup k = mergedEntry (base.lookup k) (overlay.lookup k) := by
  induction overlay generalizing base with
  | nil => rfl
  | cons e rest ih =>
    obtain ⟨key, value⟩ := e
    obtain ⟨merged, hmerged, hloop⟩ := mergeEntries_cons base key value rest
    rw [hloop, ih _ (List.pairwise_cons.mp h).2]
    by_cases hk : k = key
    · subst hk
      rw [h.lookup_tail, lookup_insertEntry_self, List.lookup_cons_self, hmerged]
      rfl
    · rw [lookup_insertEntry_ne merged base hk, lookup_cons_of_ne hk]

theorem ascending_mergeEntries (h : Ascending base) (overlay : List (Text × TomlValue)) :
    Ascending (mergeEntries base overlay) := by
  induction overlay generalizing base with
  | nil => exact h
  | cons e rest ih =>
    obtain ⟨merged, -, hloop⟩ := mergeEntries_cons base e.1 e.2 rest
    rw [hloop]
    exact ih (h.insertEntry e.1 merged)

end Entries

theorem wellFormed_table_iff {entries : List (Text × TomlValue)} :
    WellFormed (.table entries) ↔ Ascending entries ∧
      ∀ k value, entries.lookup k = some value → WellFormed value := by
  constructor
  · intro h
    cases h with
    | table entries hkeys hvalues => exact ⟨hkeys, fun k value hk => hvalues _ (mem_of_lookup hk)⟩
  · rintro ⟨hkeys, hvalues⟩
    exact WellFormed.table entries hkeys fun e he => hvalues e.1 e.2 (hkeys.lookup_of_mem he)

theorem exists_table {value : TomlValue} (h : value.isTable = true) :
    ∃ entries, value = .table entries := by
  cases value with
  | table entries => exact ⟨entries, rfl⟩
  | _ => cases h

/-- A value that is not a table replaces what it is merged into. -/
theorem mergeTomlValues_of_not_table (base : TomlValue) {overlay : TomlValue}
    (h : overlay.isTable = false) : mergeTomlValues base overlay = overlay := by
  cases overlay with
  | table entries => cases h
  | _ => cases base <;> rfl

/-- A table replaces what is not one. -/
theorem mergeTomlValues_of_base_not_table {base : TomlValue} (overlay : TomlValue)
    (h : base.isTable = false) : mergeTomlValues base overlay = overlay := by
  cases base with
  | table entries => cases h
  | _ => cases overlay <;> rfl

/-! ### Paths -/

/-- What a path leads to in `merged`, by what it leads to in the two layers. -/
structure LayeredAt (base overlay merged : TomlValue) (path : List Text) : Prop where
  overlaid : ∀ value, overlay.atPath path = some value →
    (value.isTable = false ∨ ∀ value', base.atPath path = some value' → value'.isTable = false) →
    merged.atPath path = some value
  bothTables : ∀ value value', base.atPath path = some value → value.isTable = true →
    overlay.atPath path = some value' → value'.isTable = true →
    merged.atPath path = some (mergeTomlValues value value')
  kept : overlay.atPath path = none →
    (∀ front value, front <+: path → overlay.atPath front = some value → value.isTable = true) →
    merged.atPath path = base.atPath path

theorem atPath_cons_of_not_table {value : TomlValue} (h : value.isTable = false) (key : Text)
    (path : List Text) : value.atPath (key :: path) = none := by
  cases value with
  | table entries => cases h
  | _ => rfl

theorem atPath_nil (value : TomlValue) : value.atPath [] = some value := by
  cases value <;> rfl

section OneLayer

variable {base overlay merged : TomlValue} {path : List Text}

theorem layeredAt_of_base_eq_none (hbase : base.atPath path = none)
    (hmerged : merged.atPath path = overlay.atPath path) :
    LayeredAt base overlay merged path where
  overlaid _ hvalue _ := hmerged.trans hvalue
  bothTables value _ hvalue := by
    rw [hbase] at hvalue
    cases hvalue
  kept hnone _ := hmerged.trans (hnone.trans hbase.symm)

theorem layeredAt_of_overlay_eq_none (hoverlay : overlay.atPath path = none)
    (hmerged : merged.atPath path = base.atPath path) :
    LayeredAt base overlay merged path where
  overlaid value hvalue := by
    rw [hoverlay] at hvalue
    cases hvalue
  bothTables _ value' _ _ hvalue' := by
    rw [hoverlay] at hvalue'
    cases hvalue'
  kept _ _ := hmerged

end OneLayer

/-- One key in front of a path. -/
theorem LayeredAt.cons {base overlay merged : List (Text × TomlValue)} {b o m : TomlValue}
    {key : Text} {path : List Text} (hb : base.lookup key = some b)
    (ho : overlay.lookup key = some o) (hm : merged.lookup key = some m)
    (h : LayeredAt b o m path) :
    LayeredAt (.table base) (.table overlay) (.table merged) (key :: path) := by
  have hbase : (TomlValue.table base).atPath (key :: path) = b.atPath path := by
    rw [atPath, hb, Option.bind_some]
  have hoverlay : ∀ path, (TomlValue.table overlay).atPath (key :: path) = o.atPath path := by
    intro path
    rw [atPath, ho, Option.bind_some]
  have hmerged : (TomlValue.table merged).atPath (key :: path) = m.atPath path := by
    rw [atPath, hm, Option.bind_some]
  constructor
  · rw [hbase, hoverlay, hmerged]
    exact h.overlaid
  · rw [hbase, hoverlay, hmerged]
    exact h.bothTables
  · rw [hbase, hoverlay, hmerged]
    intro hnone hfront
    apply h.kept hnone
    intro front value hprefix hvalue
    apply hfront (key :: front) value (List.cons_prefix_cons.mpr ⟨rfl, hprefix⟩)
    rw [hoverlay, hvalue]

theorem layeredAt_merge {overlay : TomlValue} (h : overlay.WellFormed) (base : TomlValue)
    (path : List Text) : LayeredAt base overlay (mergeTomlValues base overlay) path := by
  induction path generalizing base overlay with
  | nil =>
    refine ⟨fun value hvalue hside => ?_, fun value value' hvalue _ hvalue' _ => ?_,
      fun hnone => ?_⟩
    · rw [atPath_nil] at hvalue ⊢
      obtain rfl := Option.some.inj hvalue
      rcases hside with htable | hbase
      · rw [mergeTomlValues_of_not_table base htable]
      · rw [mergeTomlValues_of_base_not_table overlay (hbase base (atPath_nil base))]
    · rw [atPath_nil] at hvalue hvalue' ⊢
      rw [Option.some.inj hvalue, Option.some.inj hvalue']
    · rw [atPath_nil] at hnone
      cases hnone
  | cons key path ih =>
    cases hbase : base.isTable with
    | false =>
      rw [mergeTomlValues_of_base_not_table overlay hbase]
      exact layeredAt_of_base_eq_none (atPath_cons_of_not_table hbase key path) rfl
    | true =>
      cases hoverlay : overlay.isTable with
      | false =>
        have hnone := atPath_cons_of_not_table hoverlay key path
        rw [mergeTomlValues_of_not_table base hoverlay]
        refine ⟨fun value hvalue => ?_, fun value value' _ _ hvalue' => ?_, fun _ hfront => ?_⟩
        · rw [hnone] at hvalue
          cases hvalue
        · rw [hnone] at hvalue'
          cases hvalue'
        · -- The overlay itself is a value in front of the path.
          have htable := hfront [] overlay List.nil_prefix (atPath_nil overlay)
          rw [hoverlay] at htable
          cases htable
      | true =>
        obtain ⟨be, rfl⟩ := exists_table hbase
        obtain ⟨oe, rfl⟩ := exists_table hoverlay
        obtain ⟨hkeys, hvalues⟩ := wellFormed_table_iff.mp h
        have hlookup := lookup_mergeEntries be hkeys key
        cases ho : oe.lookup key with
        | none =>
          rw [ho] at hlookup
          apply layeredAt_of_overlay_eq_none
          · rw [atPath, ho, Option.bind_none]
          · rw [mergeTomlValues, atPath, atPath, hlookup, mergedEntry]
        | some o =>
          cases hb : be.lookup key with
          | none =>
            rw [hb, ho] at hlookup
            apply layeredAt_of_base_eq_none
            · rw [atPath, hb, Option.bind_none]
            · rw [mergeTomlValues, atPath, atPath, hlookup, ho, mergedEntry]
          | some b =>
            rw [hb, ho] at hlookup
            exact LayeredAt.cons hb ho hlookup (ih (hvalues key o ho) b)

/-- A path of either layer is lost only behind a value of the overlay that is not a table. -/
theorem LayeredAt.exists_atPath {base overlay merged : TomlValue} {path : List Text}
    (h : LayeredAt base overlay merged path) (hlost : merged.atPath path = none) :
    overlay.atPath path = none ∧ (base.atPath path = none ∨
      ∃ front value, front <+: path ∧ overlay.atPath front = some value ∧
        value.isTable = false) := by
  have hoverlay : overlay.atPath path = none := by
    cases ho : overlay.atPath path with
    | none => rfl
    | some value =>
      by_cases hside : value.isTable = false ∨
          ∀ value', base.atPath path = some value' → value'.isTable = false
      · rw [h.overlaid value ho hside] at hlost
        cases hlost
      · push Not at hside
        obtain ⟨htable, value', hb, htable'⟩ := hside
        rw [h.bothTables value' value hb (Bool.of_not_eq_false htable') ho
          (Bool.of_not_eq_false htable)] at hlost
        cases hlost
  refine ⟨hoverlay, ?_⟩
  by_cases hfront : ∃ front value, front <+: path ∧ overlay.atPath front = some value ∧
      value.isTable = false
  · exact Or.inr hfront
  · apply Or.inl
    rw [← h.kept hoverlay, hlost]
    intro front value hprefix hvalue
    by_contra htable
    exact hfront ⟨front, value, hprefix, hvalue, Bool.of_not_eq_true htable⟩

/-! ### Merging again -/

/-- Induction on the nesting of tables. -/
theorem TomlValue.WellFormed.tables {P : TomlValue → Prop} {value : TomlValue}
    (h : value.WellFormed) (other : ∀ value, value.WellFormed → value.isTable = false → P value)
    (table : ∀ entries, WellFormed (.table entries) →
      (∀ k value, entries.lookup k = some value → P value) → P (.table entries)) : P value := by
  induction h with
  | table entries hkeys hvalues ih =>
    exact table entries (.table entries hkeys hvalues) fun k value hk => ih _ (mem_of_lookup hk)
  | string value => exact other _ (.string value) rfl
  | integer value => exact other _ (.integer value) rfl
  | float bits => exact other _ (.float bits) rfl
  | boolean value => exact other _ (.boolean value) rfl
  | datetime value => exact other _ (.datetime value) rfl
  | array items hitems => exact other _ (.array items hitems) rfl

theorem TomlValue.WellFormed.merge {base overlay : TomlValue} (hbase : base.WellFormed)
    (h : overlay.WellFormed) : (mergeTomlValues base overlay).WellFormed := by
  refine h.tables (P := fun overlay => ∀ base, base.WellFormed →
    (mergeTomlValues base overlay).WellFormed) ?_ ?_ base hbase
  · intro overlay h htable base _
    rwa [mergeTomlValues_of_not_table base htable]
  · intro oe h ih base hbase
    cases htable : base.isTable with
    | false => rwa [mergeTomlValues_of_base_not_table _ htable]
    | true =>
      obtain ⟨be, rfl⟩ := exists_table htable
      obtain ⟨hkeys, hvalues⟩ := wellFormed_table_iff.mp h
      obtain ⟨hbkeys, hbvalues⟩ := wellFormed_table_iff.mp hbase
      refine wellFormed_table_iff.mpr ⟨ascending_mergeEntries hbkeys oe, fun k value hk => ?_⟩
      rw [lookup_mergeEntries be hkeys] at hk
      cases ho : oe.lookup k with
      | none =>
        rw [ho, mergedEntry] at hk
        exact hbvalues k value hk
      | some o =>
        rw [ho] at hk
        cases hb : be.lookup k with
        | none =>
          rw [hb] at hk
          obtain rfl := Option.some.inj hk
          exact hvalues k o ho
        | some b =>
          rw [hb] at hk
          obtain rfl := Option.some.inj hk
          exact ih k o ho b (hbvalues k b hb)

/-- Merging the overlay a second time changes nothing. -/
def Absorbed (overlay : TomlValue) : Prop :=
  ∀ base : TomlValue, base.WellFormed →
    mergeTomlValues (mergeTomlValues base overlay) overlay = mergeTomlValues base overlay

/-- It is itself when merged into a value that is not a table. -/
theorem Absorbed.merge_self {value : TomlValue} (h : Absorbed value) :
    mergeTomlValues value value = value := by
  have htwice := h (.boolean false) (WellFormed.boolean false)
  rwa [@mergeTomlValues_of_base_not_table (.boolean false) value rfl] at htwice

theorem mergedEntry_again {b o : Option TomlValue} (hb : ∀ value, b = some value → value.WellFormed)
    (ho : ∀ value, o = some value → Absorbed value) :
    mergedEntry (mergedEntry b o) o = mergedEntry b o := by
  cases o with
  | none => rfl
  | some value =>
    cases b with
    | some base => exact congrArg some (ho value rfl base (hb base rfl))
    | none => exact congrArg some (ho value rfl).merge_self

theorem mergeEntries_again {base overlay : List (Text × TomlValue)}
    (hbase : WellFormed (.table base)) (hoverlay : Ascending overlay)
    (h : ∀ k value, overlay.lookup k = some value → Absorbed value) :
    mergeEntries (mergeEntries base overlay) overlay = mergeEntries base overlay := by
  obtain ⟨hkeys, hvalues⟩ := wellFormed_table_iff.mp hbase
  have honce := ascending_mergeEntries hkeys overlay
  refine (ascending_mergeEntries honce overlay).ext honce fun k => ?_
  rw [lookup_mergeEntries _ hoverlay, lookup_mergeEntries _ hoverlay]
  exact mergedEntry_again (hvalues k) (h k)

/-- Entries merged into no entries. -/
theorem mergeEntries_nil {overlay : List (Text × TomlValue)} (h : Ascending overlay) :
    mergeEntries [] overlay = overlay := by
  refine (ascending_mergeEntries List.Pairwise.nil overlay).ext h fun k => ?_
  rw [lookup_mergeEntries [] h, List.lookup_nil]
  cases overlay.lookup k <;> rfl

theorem TomlValue.WellFormed.absorbed {overlay : TomlValue} (h : overlay.WellFormed) :
    Absorbed overlay := by
  apply h.tables
  · intro overlay _ htable base _
    rw [mergeTomlValues_of_not_table _ htable, mergeTomlValues_of_not_table _ htable]
  · intro oe h ih base hbase
    obtain ⟨hkeys, -⟩ := wellFormed_table_iff.mp h
    cases htable : base.isTable with
    | true =>
      obtain ⟨be, rfl⟩ := exists_table htable
      exact congrArg TomlValue.table (mergeEntries_again hbase hkeys ih)
    | false =>
      -- The merge is the overlay, which is what it makes of an empty table.
      have hempty : WellFormed (.table []) :=
        wellFormed_table_iff.mpr ⟨List.Pairwise.nil, fun k value hk => by cases hk⟩
      have hagain := mergeEntries_again hempty hkeys ih
      rw [mergeEntries_nil hkeys] at hagain
      rw [mergeTomlValues_of_base_not_table _ htable]
      exact congrArg TomlValue.table hagain

/-! ### Layers -/

/-- A value as the parser makes it. -/
abbrev Toml := {value : TomlValue // value.WellFormed}

/-- `merge_toml_values`, which keeps tables in order. -/
def Toml.merge (base overlay : Toml) : Toml :=
  ⟨mergeTomlValues base overlay, base.2.merge overlay.2⟩

/-- At every key path the merge has the overlay's value, the merge of two tables or the base's
value, whichever the layers ask for, and loses no other key; a second merge changes nothing. -/
theorem merge_layers (base overlay : Toml) :
    (∀ path, LayeredAt base overlay (base.merge overlay) path) ∧
    (∀ path, (base.merge overlay).1.atPath path = none → overlay.1.atPath path = none ∧
      (base.1.atPath path = none ∨ ∃ front value, front <+: path ∧
        overlay.1.atPath front = some value ∧ value.isTable = false)) ∧
    (base.merge overlay).merge overlay = base.merge overlay := by
  refine ⟨fun path => ?_, fun path hlost => ?_, ?_⟩
  · exact layeredAt_merge overlay.2 base path
  · exact (layeredAt_merge overlay.2 base path).exists_atPath hlost
  · exact Subtype.ext (overlay.2.absorbed base base.2)

end StreamInfa
