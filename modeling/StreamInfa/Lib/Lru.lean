import Mathlib.Data.List.Basic
import Mathlib.Data.List.Nodup
import Mathlib.Data.PNat.Basic

/-!
A map of bounded capacity that drops its least recently used entry.

The entries are listed from the least to the most recently used. No key is held
twice and the capacity is never exceeded: both are fields. `weight` totals a measure of
the values, and each operation has a lemma saying what it does to the total.
-/

namespace StreamInfa

/-- At most `cap` entries with distinct keys, the least recently used first. -/
structure Lru (cap : ℕ+) (α β : Type) where
  entries : List (α × β)
  nodup : (entries.map Prod.fst).Nodup
  length_le : entries.length ≤ cap

namespace Lru

variable {cap : ℕ+} {α β : Type} [DecidableEq α]

def new : Lru cap α β := ⟨[], List.nodup_nil, Nat.zero_le _⟩

/-- The value of a key, leaving the order alone. -/
def peek (c : Lru cap α β) (key : α) : Option β :=
  (c.entries.find? fun e => e.1 = key).map Prod.snd

/-- Remove a key. -/
def pop (c : Lru cap α β) (key : α) : Lru cap α β where
  entries := c.entries.filter fun e => e.1 ≠ key
  nodup := c.nodup.sublist (List.filter_sublist.map _)
  length_le := (List.length_filter_le _ _).trans c.length_le

/-- Remove the `n` least recently used entries. -/
def drop (c : Lru cap α β) (n : ℕ) : Lru cap α β where
  entries := c.entries.drop n
  nodup := c.nodup.sublist ((List.drop_sublist n _).map _)
  length_le := by
    rw [List.length_drop]
    exact (Nat.sub_le _ _).trans c.length_le

omit [DecidableEq α] in
theorem nodup_concat {entries : List (α × β)} (h : (entries.map Prod.fst).Nodup) {key : α}
    (hkey : ∀ e ∈ entries, e.1 ≠ key) (value : β) :
    ((entries ++ [(key, value)]).map Prod.fst).Nodup := by
  rw [List.map_append, List.nodup_append]
  refine ⟨h, by simp, ?_⟩
  rintro k hk k' hk' rfl
  obtain ⟨e, he, rfl⟩ := List.mem_map.mp hk
  exact hkey e he (by simpa using hk')

/-- Insert a value as the most recently used. A key that is present is replaced; at
capacity the least recently used entry makes room for a new key. -/
def put (c : Lru cap α β) (key : α) (value : β) : Lru cap α β where
  entries := ((c.pop key).drop ((c.pop key).entries.length + 1 - cap)).entries ++ [(key, value)]
  nodup := by
    refine nodup_concat (Lru.nodup _) (fun e he => ?_) value
    have hmem : e ∈ (c.pop key).entries := List.mem_of_mem_drop he
    simpa using (List.mem_filter.mp hmem).2
  length_le := by
    have hpos : 0 < (cap : ℕ) := cap.pos
    have hle := (c.pop key).length_le
    simp only [drop, List.length_append, List.length_drop, List.length_singleton]
    omega

/-- Make a present key the most recently used. -/
def touch (c : Lru cap α β) (key : α) : Lru cap α β :=
  match c.peek key with
  | some value => c.put key value
  | none => c

theorem mem_of_peek {c : Lru cap α β} {key : α} {value : β} (h : c.peek key = some value) :
    (key, value) ∈ c.entries := by
  obtain ⟨⟨k, v⟩, hfind, rfl⟩ := Option.map_eq_some_iff.mp h
  obtain rfl : k = key := by simpa using List.find?_some hfind
  exact List.mem_of_find?_eq_some hfind

theorem mem_of_mem_pop {c : Lru cap α β} {key : α} {e : α × β} (h : e ∈ (c.pop key).entries) :
    e ∈ c.entries :=
  List.mem_of_mem_filter h

omit [DecidableEq α] in
theorem mem_of_mem_drop {c : Lru cap α β} {n : ℕ} {e : α × β} (h : e ∈ (c.drop n).entries) :
    e ∈ c.entries :=
  List.mem_of_mem_drop h

theorem mem_of_mem_put {c : Lru cap α β} {key : α} {value : β} {e : α × β}
    (h : e ∈ (c.put key value).entries) : e ∈ c.entries ∨ e = (key, value) := by
  rcases List.mem_append.mp h with hold | hnew
  · exact Or.inl (mem_of_mem_pop (mem_of_mem_drop hold))
  · exact Or.inr (List.mem_singleton.mp hnew)

theorem mem_of_mem_touch {c : Lru cap α β} {key : α} {e : α × β} (h : e ∈ (c.touch key).entries) :
    e ∈ c.entries := by
  unfold touch at h
  split at h
  · rename_i value hpeek
    rcases mem_of_mem_put h with hold | rfl
    · exact hold
    · exact mem_of_peek hpeek
  · exact h

/-! ### The total of a measure -/

/-- The sum of a measure of the values held. -/
def weight (w : β → ℕ) (c : Lru cap α β) : ℕ := (c.entries.map fun e => w e.2).sum

variable {c : Lru cap α β} {key : α} {value : β} {w : β → ℕ}

theorem peek_eq_none : c.peek key = none ↔ ∀ e ∈ c.entries, e.1 ≠ key := by
  simp [peek]

theorem not_mem_pop : ∀ e ∈ (c.pop key).entries, e.1 ≠ key := by
  intro e he
  simpa using (List.mem_filter.mp he).2

theorem pop_of_peek_none (h : c.peek key = none) : (c.pop key).entries = c.entries := by
  refine List.filter_eq_self.mpr fun e he => ?_
  simpa using peek_eq_none.mp h e he

/-- A key that is present is held once: the rest is what `pop` leaves. -/
theorem perm_pop (h : c.peek key = some value) :
    c.entries.Perm ((key, value) :: (c.pop key).entries) := by
  obtain ⟨entries, hnodup, hlength⟩ := c
  simp only [peek, pop] at h ⊢
  clear hlength
  induction entries with
  | nil => cases h
  | cons e rest ih =>
    obtain ⟨hhead, hrest⟩ := List.nodup_cons.mp hnodup
    by_cases hkey : e.1 = key
    · have hvalue : e.2 = value := by simpa [hkey] using h
      have hself : rest.filter (fun e => decide (e.1 ≠ key)) = rest := by
        refine List.filter_eq_self.mpr fun e' he' => ?_
        have hne : e'.1 ≠ key := by
          rintro rfl
          exact hhead (hkey ▸ List.mem_map_of_mem he')
        simpa using hne
      rw [List.filter_cons_of_neg (by simp [hkey]), hself, ← hkey, ← hvalue]
    · rw [List.find?_cons_of_neg (by simpa using hkey)] at h
      rw [List.filter_cons_of_pos (by simpa using hkey)]
      exact ((ih hrest h).cons e).trans (List.Perm.swap _ _ _)

theorem weight_pop (h : c.peek key = some value) :
    (c.pop key).weight w + w value = c.weight w := by
  have hsum := ((perm_pop h).map fun e => w e.2).sum_nat
  simp only [List.map_cons, List.sum_cons] at hsum
  simp only [weight]
  omega

theorem length_pop (h : c.peek key = some value) :
    (c.pop key).entries.length + 1 = c.entries.length := by
  simpa using (perm_pop h).length_eq.symm

/-- A new key with room for it. -/
theorem entries_put_of_room (hkey : c.peek key = none) (hroom : c.entries.length < cap) :
    (c.put key value).entries = c.entries ++ [(key, value)] := by
  have hpop := pop_of_peek_none hkey
  have hdrop : c.entries.length + 1 - cap = 0 := by omega
  simp only [put, drop, hpop, hdrop, List.drop_zero]

/-- A new key at capacity. -/
theorem entries_put_of_full (hkey : c.peek key = none) (hfull : c.entries.length = cap) :
    (c.put key value).entries = c.entries.tail ++ [(key, value)] := by
  have hpop := pop_of_peek_none hkey
  have hdrop : c.entries.length + 1 - cap = 1 := by omega
  simp only [put, drop, hpop, hdrop, List.drop_one]

theorem weight_put_of_room (hkey : c.peek key = none) (hroom : c.entries.length < cap) :
    (c.put key value).weight w = c.weight w + w value := by
  simp [weight, entries_put_of_room hkey hroom]

/-- At capacity the least recently used value makes room. -/
theorem exists_weight_put_of_full (w : β → ℕ) (value : β) (hkey : c.peek key = none)
    (hfull : c.entries.length = cap) :
    ∃ e, c.entries.head? = some e ∧
      (c.put key value).weight w + w e.2 = c.weight w + w value := by
  cases hentries : c.entries with
  | nil =>
    have hpos := cap.pos
    rw [hentries, List.length_nil] at hfull
    omega
  | cons e rest =>
    refine ⟨e, rfl, ?_⟩
    simp only [weight, entries_put_of_full hkey hfull, hentries, List.tail_cons, List.map_append,
      List.map_cons, List.map_nil, List.sum_append, List.sum_cons, List.sum_nil]
    omega

theorem weight_touch : (c.touch key).weight w = c.weight w := by
  unfold touch
  split
  · rename_i value hpeek
    have hpop : (c.put key value).entries = (c.pop key).entries ++ [(key, value)] := by
      have hlength := length_pop hpeek
      have hle := c.length_le
      have hdrop : (c.pop key).entries.length + 1 - cap = 0 := by omega
      simp only [put, hdrop, drop, List.drop_zero]
    rw [← weight_pop hpeek]
    simp [weight, hpop]
  · rfl

end Lru

end StreamInfa
