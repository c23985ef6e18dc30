import Mathlib.Order.Lattice

/-!
Maps as lists of entries in the order of their keys, as a B-tree lists them.

`insertEntry` puts an entry in its place, in that of an entry with the same key if there is one.
A list with strictly ascending keys (`Ascending`) is determined by what it maps each key to
(`Ascending.ext`).
-/

namespace StreamInfa

variable {κ β : Type*} [LinearOrder κ]

/-- The keys ascend. -/
def Ascending (entries : List (κ × β)) : Prop := entries.Pairwise fun e e' => e.1 < e'.1

/-- Put an entry in its place; it replaces an entry with the same key. -/
def insertEntry (k : κ) (v : β) : List (κ × β) → List (κ × β)
  | [] => [(k, v)]
  | e :: rest =>
    if k < e.1 then (k, v) :: e :: rest
    else if k = e.1 then (k, v) :: rest
    else e :: insertEntry k v rest

theorem mem_insertEntry {k : κ} {v : β} {e : κ × β} {entries : List (κ × β)}
    (h : e ∈ insertEntry k v entries) : e = (k, v) ∨ e ∈ entries := by
  induction entries with
  | nil => exact Or.inl (List.mem_singleton.mp h)
  | cons e' rest ih =>
    rw [insertEntry] at h
    split at h
    · exact List.mem_cons.mp h
    · split at h
      · exact (List.mem_cons.mp h).imp_right (List.mem_cons_of_mem e')
      · rcases List.mem_cons.mp h with rfl | h
        · exact Or.inr List.mem_cons_self
        · exact (ih h).imp_right (List.mem_cons_of_mem e')

theorem Ascending.insertEntry {entries : List (κ × β)} (h : Ascending entries) (k : κ) (v : β) :
    Ascending (insertEntry k v entries) := by
  induction entries with
  | nil => exact List.pairwise_singleton _ _
  | cons e rest ih =>
    obtain ⟨hhead, hrest⟩ := List.pairwise_cons.mp h
    rw [StreamInfa.insertEntry]
    split
    · rename_i hlt
      refine List.pairwise_cons.mpr ⟨fun e' he' => ?_, h⟩
      rcases List.mem_cons.mp he' with rfl | he'
      · exact hlt
      · exact hlt.trans (hhead e' he')
    · rename_i hge
      split
      · rename_i heq
        subst heq
        exact List.pairwise_cons.mpr ⟨hhead, hrest⟩
      · rename_i hne
        refine List.pairwise_cons.mpr ⟨fun e' he' => ?_, ih hrest⟩
        rcases mem_insertEntry he' with rfl | he'
        · exact lt_of_le_of_ne (not_lt.mp hge) (Ne.symm hne)
        · exact hhead e' he'

section Lookup

variable [BEq κ] [LawfulBEq κ] {entries entries' : List (κ × β)}

omit [LinearOrder κ] in
theorem lookup_cons_of_ne {k : κ} {e : κ × β} (h : k ≠ e.1) :
    (e :: entries).lookup k = entries.lookup k := by
  obtain ⟨k', v⟩ := e
  rw [List.lookup_cons, beq_false_of_ne h]

theorem lookup_insertEntry_self (k : κ) (v : β) (entries : List (κ × β)) :
    (insertEntry k v entries).lookup k = some v := by
  induction entries with
  | nil => exact List.lookup_cons_self
  | cons e rest ih =>
    rw [insertEntry]
    split
    · exact List.lookup_cons_self
    · split
      · exact List.lookup_cons_self
      · rename_i hne
        rw [lookup_cons_of_ne hne, ih]

theorem lookup_insertEntry_ne {k k' : κ} (v : β) (entries : List (κ × β)) (h : k' ≠ k) :
    (insertEntry k v entries).lookup k' = entries.lookup k' := by
  induction entries with
  | nil => exact lookup_cons_of_ne h
  | cons e rest ih =>
    rw [insertEntry]
    split
    · exact lookup_cons_of_ne h
    · split
      · rename_i heq
        rw [lookup_cons_of_ne h, lookup_cons_of_ne (heq ▸ h)]
      · obtain ⟨k₁, v₁⟩ := e
        rw [List.lookup_cons, List.lookup_cons, ih]

omit [LinearOrder κ] in
theorem mem_of_lookup {k : κ} {v : β} (h : entries.lookup k = some v) : (k, v) ∈ entries := by
  induction entries with
  | nil => cases h
  | cons e rest ih =>
    by_cases hk : k = e.1
    · subst hk
      rw [List.lookup_cons_self] at h
      obtain rfl := Option.some.inj h
      exact List.mem_cons_self
    · rw [lookup_cons_of_ne hk] at h
      exact List.mem_cons_of_mem e (ih h)

/-- No key comes before the first one. -/
theorem Ascending.head_le {e : κ × β} {k : κ} (h : Ascending (e :: entries))
    (hk : (e :: entries).lookup k ≠ none) : e.1 ≤ k := by
  obtain ⟨v, hv⟩ := Option.ne_none_iff_exists'.mp hk
  rcases List.mem_cons.mp (mem_of_lookup hv) with rfl | hmem
  · exact le_refl k
  · exact ((List.pairwise_cons.mp h).1 _ hmem).le

/-- The first key does not come again. -/
theorem Ascending.lookup_tail {e : κ × β} (h : Ascending (e :: entries)) :
    entries.lookup e.1 = none := by
  cases hk : entries.lookup e.1 with
  | none => rfl
  | some v => exact absurd ((List.pairwise_cons.mp h).1 _ (mem_of_lookup hk)) (lt_irrefl e.1)

theorem Ascending.lookup_of_mem {e : κ × β} (h : Ascending entries) (he : e ∈ entries) :
    entries.lookup e.1 = some e.2 := by
  induction entries with
  | nil => cases he
  | cons e' rest ih =>
    obtain ⟨hhead, hrest⟩ := List.pairwise_cons.mp h
    rcases List.mem_cons.mp he with rfl | he
    · exact List.lookup_cons_self
    · rw [lookup_cons_of_ne (hhead e he).ne', ih hrest he]

/-- What a map with ascending keys maps each key to determines it. -/
theorem Ascending.ext (h : Ascending entries) (h' : Ascending entries')
    (hlookup : ∀ k, entries.lookup k = entries'.lookup k) : entries = entries' := by
  induction entries generalizing entries' with
  | nil =>
    cases entries' with
    | nil => rfl
    | cons e' rest' =>
      have hkey := hlookup e'.1
      rw [List.lookup_cons_self] at hkey
      cases hkey
  | cons e rest ih =>
    cases entries' with
    | nil =>
      have hkey := hlookup e.1
      rw [List.lookup_cons_self] at hkey
      cases hkey
    | cons e' rest' =>
      have hself : (e :: rest).lookup e.1 = some e.2 := List.lookup_cons_self
      have hself' : (e' :: rest').lookup e'.1 = some e'.2 := List.lookup_cons_self
      have hkey : e.1 = e'.1 := by
        apply le_antisymm
        · apply h.head_le
          rw [hlookup, hself']
          exact Option.some_ne_none _
        · apply h'.head_le
          rw [← hlookup, hself]
          exact Option.some_ne_none _
      have hvalue : some e.2 = some e'.2 := by rw [← hself, hlookup, hkey, hself']
      obtain rfl : e = e' := Prod.ext hkey (Option.some.inj hvalue)
      refine congrArg (e :: ·) (ih (List.pairwise_cons.mp h).2 (List.pairwise_cons.mp h').2 ?_)
      intro k
      by_cases hk : k = e.1
      · rw [hk, h.lookup_tail, h'.lookup_tail]
      · have hsame := hlookup k
        rwa [lookup_cons_of_ne hk, lookup_cons_of_ne hk] at hsame

end Lookup

end StreamInfa
