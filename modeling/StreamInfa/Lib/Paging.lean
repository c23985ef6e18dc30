import Mathlib.Data.List.Sort
import Mathlib.Order.UpperLower.Principal

/-!
Collections read page by page, while others change them.

The entries of a collection are listed in the order of their keys. A page is a front part of
what is `behind` a position in the listing of that moment (`isPage_take`), and the next page goes
on behind its last entry. `Gathered` is what can be said of the pages so far: they ascend, they
have each key up to the position that was there until then, and no entry that was never there.
-/

namespace StreamInfa

variable {α κ : Type*} [LinearOrder κ] {key : α → κ}

/-- The keys that the pages up to a position have gone through. -/
def upTo (position : Option κ) : LowerSet κ :=
  match position with
  | none => ⊥
  | some k => LowerSet.Iic k

/-- The entries behind a position. -/
def behind (key : α → κ) (position : Option κ) (entries : List α) : List α :=
  match position with
  | none => entries
  | some k => entries.filter fun a => k < key a

theorem mem_behind {position : Option κ} {entries : List α} {a : α} :
    a ∈ behind key position entries ↔ a ∈ entries ∧ key a ∉ upTo position := by
  cases position with
  | none => simp [behind, upTo]
  | some k => simp [behind, upTo]

theorem behind_sublist (key : α → κ) (position : Option κ) (entries : List α) :
    (behind key position entries).Sublist entries := by
  cases position with
  | none => exact List.Sublist.refl _
  | some k => exact List.filter_sublist

/-! ### Front parts of ascending lists -/

section Front

variable {xs : List α} {n : ℕ} {a b : α}

/-- Up to its last entry, a front part of an ascending list has all of the list. -/
theorem mem_take_of_le_last (hasc : xs.Pairwise fun a b => key a < key b)
    (hlast : (xs.take n).getLast? = some a) (hb : b ∈ xs) (hle : key b ≤ key a) :
    b ∈ xs.take n := by
  rw [← List.take_append_drop n xs] at hb hasc
  rcases List.mem_append.mp hb with hfront | hrest
  · exact hfront
  · have hlt := (List.pairwise_append.mp hasc).2.2 a (List.mem_of_getLast? hlast) b hrest
    exact absurd hlt (not_lt.mpr hle)

/-- No entry of an ascending list comes behind the last one. -/
theorem le_last (hasc : xs.Pairwise fun a b => key a < key b) (hlast : xs.getLast? = some a)
    (hb : b ∈ xs) : key b ≤ key a := by
  obtain ⟨front, rfl⟩ := List.getLast?_eq_some_iff.mp hlast
  rcases List.mem_append.mp hb with hfront | hrest
  · exact ((List.pairwise_append.mp hasc).2.2 b hfront a List.mem_cons_self).le
  · rw [List.mem_singleton.mp hrest]

end Front

/-! ### Pages -/

/-- A page of a listing: from the keys covered before it to those covered after it. -/
structure IsPage (key : α → κ) (entries : List α) (covered covered' : LowerSet κ)
    (page : List α) : Prop where
  le : covered ≤ covered'
  ascending : page.Pairwise fun a b => key a < key b
  mem_iff : ∀ a, a ∈ page ↔ a ∈ entries ∧ key a ∉ covered ∧ key a ∈ covered'

section Pages

variable {entries : List α} {position : Option κ}

/-- A page with more behind it: the next position is at its last entry. -/
theorem isPage_take {n : ℕ} {last : α} (hasc : entries.Pairwise fun a b => key a < key b)
    (hlast : ((behind key position entries).take n).getLast? = some last) :
    IsPage key entries (upTo position) (upTo (some (key last)))
      ((behind key position entries).take n) := by
  have hbehind := hasc.sublist (behind_sublist key position entries)
  have hfront := hbehind.sublist (List.take_sublist n _)
  have hnew := (mem_behind.mp (List.mem_of_mem_take (List.mem_of_getLast? hlast))).2
  refine ⟨fun k hk => ?_, hfront, fun a => ⟨fun ha => ?_, ?_⟩⟩
  · exact not_lt.mp fun hlt => hnew ((upTo position).lower hlt.le hk)
  · obtain ⟨ha', hafter⟩ := mem_behind.mp (List.mem_of_mem_take ha)
    exact ⟨ha', hafter, le_last hfront hlast ha⟩
  · rintro ⟨ha, hafter, hcovered⟩
    exact mem_take_of_le_last hbehind hlast (mem_behind.mpr ⟨ha, hafter⟩) hcovered

/-- The last page goes to the end of the listing. -/
theorem isPage_behind (hasc : entries.Pairwise fun a b => key a < key b) :
    IsPage key entries (upTo position) ⊤ (behind key position entries) := by
  refine ⟨le_top, hasc.sublist (behind_sublist key position entries), fun a => ?_⟩
  rw [mem_behind, and_iff_left (LowerSet.mem_top : key a ∈ (⊤ : LowerSet κ))]

end Pages

/-! ### What the pages have -/

/-- What the pages through the keys `covered` have read. The keys `stays` are there until they are
covered, and the entries `seen` at some time. -/
structure Gathered (key : α → κ) (stays : Set κ) (seen : Set α) (covered : LowerSet κ)
    (read : List α) : Prop where
  ascending : read.Pairwise fun a b => key a < key b
  passed : ∀ a ∈ read, key a ∈ covered
  complete : ∀ k ∈ stays, k ∈ covered → ∃ a ∈ read, key a = k
  genuine : ∀ a ∈ read, a ∈ seen

namespace Gathered

variable {stays : Set κ} {seen : Set α} {covered covered' : LowerSet κ}
  {read page entries : List α}

theorem start (key : α → κ) (stays : Set κ) (seen : Set α) :
    Gathered key stays seen (upTo none) [] where
  ascending := List.Pairwise.nil
  passed _ h := absurd h List.not_mem_nil
  complete _ _ h := False.elim h
  genuine _ h := absurd h List.not_mem_nil

theorem append (h : Gathered key stays seen covered read)
    (hpage : IsPage key entries covered covered' page)
    (hstays : ∀ k ∈ stays, k ∉ covered → ∃ a ∈ entries, key a = k)
    (hseen : ∀ a ∈ entries, a ∈ seen) : Gathered key stays seen covered' (read ++ page) where
  ascending := by
    refine List.pairwise_append.mpr ⟨h.ascending, hpage.ascending, fun a ha b hb => ?_⟩
    by_contra hnot
    have hcovered := covered.lower (not_lt.mp hnot) (h.passed a ha)
    exact ((hpage.mem_iff b).mp hb).2.1 hcovered
  passed a ha := by
    rcases List.mem_append.mp ha with ha | ha
    · exact hpage.le (h.passed a ha)
    · exact ((hpage.mem_iff a).mp ha).2.2
  complete k hk hcovered := by
    by_cases hbefore : k ∈ covered
    · obtain ⟨a, ha, hkey⟩ := h.complete k hk hbefore
      exact ⟨a, List.mem_append_left page ha, hkey⟩
    · obtain ⟨a, ha, rfl⟩ := hstays k hk hbefore
      have hmem := (hpage.mem_iff a).mpr ⟨ha, hbefore, hcovered⟩
      exact ⟨a, List.mem_append_right read hmem, rfl⟩
  genuine a ha := by
    rcases List.mem_append.mp ha with ha | ha
    · exact h.genuine a ha
    · exact hseen a ((hpage.mem_iff a).mp ha).1

/-- When the collection does not change, the pages together are its listing. -/
theorem eq_of_quiet (h : Gathered key stays seen ⊤ read)
    (hasc : entries.Pairwise fun a b => key a < key b)
    (hstays : ∀ a ∈ entries, key a ∈ stays) (hseen : ∀ a ∈ seen, a ∈ entries) :
    read = entries := by
  have hkeys : (entries.map key).Nodup := List.pairwise_map.mpr (hasc.imp ne_of_lt)
  have hmem : ∀ a, a ∈ read ↔ a ∈ entries := by
    intro a
    refine ⟨fun ha => hseen a (h.genuine a ha), fun ha => ?_⟩
    obtain ⟨b, hb, hkey⟩ := h.complete (key a) (hstays a ha) trivial
    rwa [← List.inj_on_of_nodup_map hkeys (hseen b (h.genuine b hb)) ha hkey]
  have hnodup : ∀ {xs : List α}, (xs.Pairwise fun a b => key a < key b) → xs.Nodup := fun h =>
    h.imp fun hlt heq => hlt.ne (congrArg key heq)
  have hperm := (List.perm_ext_iff_of_nodup (hnodup h.ascending) (hnodup hasc)).mpr hmem
  refine hperm.eq_of_pairwise (fun a b _ _ hab hba => ?_) h.ascending hasc
  exact absurd hab hba.asymm

end Gathered

end StreamInfa
