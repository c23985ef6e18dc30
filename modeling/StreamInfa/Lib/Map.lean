import Mathlib.Data.List.AList

/-!
Finite maps: association lists without duplicate keys, as `AList` has them.

`adjust` modifies the value of a present key in place; `retain` keeps the entries and
`keysWhere` lists the keys whose value satisfies a predicate. `countP_values` counts the
values satisfying a predicate by any duplicate-free list of the keys that hold them, and
`countP_values_insert`, `countP_values_erase` and `countP_values_adjust` say how the
count changes with the map.
-/

namespace StreamInfa

/-- A finite map from `α` to `β`. -/
abbrev Map (α β : Type) := AList fun _ : α => β

namespace Map

variable {α β : Type} [DecidableEq α]

/-- The values of a map, in the order of its entries. -/
def values (m : Map α β) : List β := m.entries.map fun e => e.2

/-- Apply `f` to the value of `k`; a map without `k` is unchanged. -/
def adjust (m : Map α β) (k : α) (f : β → β) : Map α β :=
  match m.lookup k with
  | some v => m.insert k (f v)
  | none => m

@[simp] theorem lookup_adjust_self (m : Map α β) (k : α) (f : β → β) :
    (m.adjust k f).lookup k = (m.lookup k).map f := by
  unfold adjust
  cases h : m.lookup k with
  | none => rw [h, Option.map_none]
  | some v => rw [AList.lookup_insert, Option.map_some]

theorem lookup_adjust_ne (m : Map α β) {k k' : α} (f : β → β) (hne : k' ≠ k) :
    (m.adjust k f).lookup k' = m.lookup k' := by
  unfold adjust
  cases m.lookup k with
  | none => rfl
  | some v => exact AList.lookup_insert_ne hne

theorem isSome_lookup_adjust (m : Map α β) (k k' : α) (f : β → β) :
    ((m.adjust k f).lookup k').isSome = (m.lookup k').isSome := by
  by_cases hk : k' = k
  · rw [hk, lookup_adjust_self, Option.isSome_map]
  · rw [lookup_adjust_ne m f hk]

/-- Keep the entries that satisfy `p`. -/
def retain (m : Map α β) (p : α → β → Bool) : Map α β :=
  ⟨m.entries.filter fun e => p e.1 e.2, m.nodupKeys.sublist List.filter_sublist⟩

theorem lookup_retain (m : Map α β) (p : α → β → Bool) (k : α) :
    (m.retain p).lookup k = (m.lookup k).filter (p k) := by
  ext v
  rw [Option.filter_eq_some_iff, ← Option.mem_def, ← Option.mem_def, AList.mem_lookup_iff,
    AList.mem_lookup_iff]
  exact List.mem_filter

/-- The keys whose value satisfies `p`. -/
def keysWhere (m : Map α β) (p : β → Bool) : List α :=
  (m.entries.filter fun e => p e.2).map fun e => e.1

theorem mem_keysWhere {m : Map α β} {p : β → Bool} {k : α} :
    k ∈ m.keysWhere p ↔ ∃ v, m.lookup k = some v ∧ p v = true := by
  rw [keysWhere, List.mem_map]
  constructor
  · rintro ⟨⟨k', v⟩, he, rfl⟩
    obtain ⟨he, hp⟩ := List.mem_filter.mp he
    exact ⟨v, AList.mem_lookup_iff.mpr he, hp⟩
  · rintro ⟨v, hv, hp⟩
    exact ⟨⟨k, v⟩, List.mem_filter.mpr ⟨AList.mem_lookup_iff.mp hv, hp⟩, rfl⟩

omit [DecidableEq α] in
theorem nodup_keysWhere (m : Map α β) (p : β → Bool) : (m.keysWhere p).Nodup := by
  have hsub : (m.keysWhere p).Sublist m.keys := List.filter_sublist.map _
  exact m.keys_nodup.sublist hsub

omit [DecidableEq α] in
theorem length_keysWhere (m : Map α β) (p : β → Bool) :
    (m.keysWhere p).length = m.values.countP p := by
  rw [keysWhere, List.length_map, values, List.countP_map, List.countP_eq_length_filter]
  rfl

/-- Counting values counts the keys that hold them. -/
theorem countP_values {m : Map α β} {p : β → Bool} {ks : List α} (hnodup : ks.Nodup)
    (hmem : ∀ k, k ∈ ks ↔ ∃ v, m.lookup k = some v ∧ p v = true) :
    m.values.countP p = ks.length := by
  have hperm : (m.keysWhere p).Perm ks :=
    (List.perm_ext_iff_of_nodup (nodup_keysWhere m p) hnodup).mpr fun k =>
      mem_keysWhere.trans (hmem k).symm
  rw [← length_keysWhere, hperm.length_eq]

/-! ### Counting through updates -/

theorem erase_of_lookup_eq_none {m : Map α β} {k : α} (h : m.lookup k = none) : m.erase k = m :=
  AList.ext (List.kerase_of_notMem_keys (AList.lookup_eq_none.mp h))

theorem countP_values_insert (m : Map α β) (k : α) (v : β) (p : β → Bool) :
    (values (m.insert k v)).countP p =
      (values (m.erase k)).countP p + if p v then 1 else 0 := by
  rw [values, values, AList.entries_insert, List.map_cons, List.countP_cons]
  rfl

theorem countP_values_erase {m : Map α β} {k : α} {v : β} (p : β → Bool)
    (h : m.lookup k = some v) :
    m.values.countP p = (values (m.erase k)).countP p + if p v then 1 else 0 := by
  have hmem : (⟨k, v⟩ : Sigma fun _ : α => β) ∈ m.entries := AList.mem_lookup_iff.mp h
  obtain ⟨v', l₁, l₂, -, hsplit, herase⟩ := List.exists_of_kerase (List.mem_keys_of_mem hmem)
  obtain rfl : v' = v := by
    have hmem' : (⟨k, v'⟩ : Sigma fun _ : α => β) ∈ m.entries := by simp [hsplit]
    exact Option.some.inj ((AList.mem_lookup_iff.mpr hmem').symm.trans h)
  have hentries : (m.erase k).entries = l₁ ++ l₂ := herase
  rw [values, values, hentries, hsplit]
  simp only [List.map_append, List.map_cons, List.countP_append, List.countP_cons]
  omega

theorem countP_values_le_insert {m : Map α β} {k : α} {v : β} {p : β → Bool}
    (h : ∀ v₀, m.lookup k = some v₀ → p v₀ = true → p v = true) :
    m.values.countP p ≤ (values (m.insert k v)).countP p := by
  rw [countP_values_insert]
  cases hk : m.lookup k with
  | none =>
    rw [erase_of_lookup_eq_none hk]
    exact Nat.le_add_right _ _
  | some v₀ =>
    rw [countP_values_erase p hk]
    by_cases hv₀ : p v₀ = true
    · rw [if_pos hv₀, if_pos (h v₀ hk hv₀)]
    · rw [if_neg hv₀, Nat.add_zero]
      exact Nat.le_add_right _ _

/-- An update in place that keeps the counted property keeps the count. -/
theorem countP_values_adjust (m : Map α β) (k : α) {f : β → β} {p : β → Bool}
    (hf : ∀ v, p (f v) = p v) : (m.adjust k f).values.countP p = m.values.countP p := by
  unfold adjust
  cases h : m.lookup k with
  | none => rfl
  | some v =>
    dsimp only
    rw [countP_values_insert, countP_values_erase p h, hf]

end Map

end StreamInfa
