import Mathlib.Data.List.Basic
import Mathlib.Order.Monotone.Basic

/-!
Following a numbered sequence through a window that moves forward.

What is numbered in order may be taken by position or by number (`take_drop_eq_filter`), and by
number in two parts, one behind the other (`filter_append_filter`). A window that ends before `c`
starts at `start c`. **`isChain_iff_follows`**: a follower that has looked at the windows ending at
some numbers, in turn, has seen everything between the first start and the last end exactly when
each window starts no later than the one before ends.
-/

namespace StreamInfa

section Numbered

variable {α : Type*} {f : α → ℕ} {xs : List α}

/-- Consecutively numbered elements, by position and by number. -/
theorem take_drop_eq_filter {a : ℕ} (h : xs.map f = List.range' a xs.length) (s c : ℕ) :
    (xs.take c).drop s = xs.filter fun x => decide (a + s ≤ f x ∧ f x < a + c) := by
  induction xs generalizing a s c with
  | nil => simp
  | cons x xs ih =>
    rw [List.map_cons, List.length_cons, List.range'_succ, List.cons.injEq] at h
    obtain ⟨hx, hxs⟩ := h
    have hbehind : ∀ y ∈ xs, a + 1 ≤ f y := fun y hy => by
      have hmem := List.mem_map_of_mem (f := f) hy
      rw [hxs, List.mem_range'_1] at hmem
      exact hmem.1
    cases c with
    | zero =>
      rw [List.take_zero, List.drop_nil, eq_comm, List.filter_eq_nil_iff]
      intro y hy
      have hle : a ≤ f y := by
        rcases List.mem_cons.mp hy with rfl | hy
        · exact Nat.le_of_eq hx.symm
        · exact (Nat.le_succ a).trans (hbehind y hy)
      simpa using fun _ => hle
    | succ c =>
      have hih := ih hxs
      cases s with
      | zero =>
        have hrest := hih 0 c
        rw [List.drop_zero] at hrest
        rw [List.take_succ_cons, List.drop_zero, hrest,
          List.filter_cons_of_pos (by simp [hx])]
        congr 1
        refine List.filter_congr fun y hy => ?_
        have hle := hbehind y hy
        simp only [decide_eq_decide]
        omega
      | succ s =>
        rw [List.take_succ_cons, List.drop_succ_cons, hih s c,
          List.filter_cons_of_neg (by simp [hx])]
        refine List.filter_congr fun y _ => ?_
        simp only [decide_eq_decide]
        omega

/-- What is below a number and what is not, one behind the other. -/
theorem filter_append_filter {p q : α → Bool} {m : ℕ}
    (hasc : xs.Pairwise fun x y => f x ≤ f y) (hp : ∀ x ∈ xs, p x = true → f x < m)
    (hq : ∀ x ∈ xs, q x = true → m ≤ f x) :
    xs.filter p ++ xs.filter q = xs.filter fun x => p x || q x := by
  induction xs with
  | nil => rfl
  | cons x xs ih =>
    obtain ⟨hx, hasc⟩ := List.pairwise_cons.mp hasc
    obtain ⟨hpx, hp⟩ := List.forall_mem_cons.mp hp
    obtain ⟨hqx, hq⟩ := List.forall_mem_cons.mp hq
    have hih := ih hasc hp hq
    cases hpv : p x with
    | true =>
      have hqv : q x = false :=
        Bool.eq_false_iff.mpr fun hqv => Nat.not_lt_of_le (hqx hqv) (hpx hpv)
      rw [List.filter_cons_of_pos hpv, List.filter_cons_of_neg (by simp [hqv]),
        List.filter_cons_of_pos (by simp [hpv]), List.cons_append, hih]
    | false =>
      cases hqv : q x with
      | true =>
        -- The rest is not below the number either.
        have hnone : xs.filter p = [] := by
          refine List.filter_eq_nil_iff.mpr fun y hy hpy => ?_
          exact Nat.not_lt_of_le ((hqx hqv).trans (hx y hy)) (hp y hy hpy)
        rw [hnone, List.nil_append] at hih
        rw [List.filter_cons_of_neg (by simp [hpv]), hnone, List.nil_append,
          List.filter_cons_of_pos hqv, List.filter_cons_of_pos (by simp [hqv]), hih]
      | false =>
        rw [List.filter_cons_of_neg (by simp [hpv]), List.filter_cons_of_neg (by simp [hqv]),
          List.filter_cons_of_neg (by simp [hpv, hqv]), hih]

end Numbered

section Windows

variable {start : ℕ → ℕ} {first n : ℕ} {later : List ℕ}

theorem le_getLastD (hordered : (first :: later).Pairwise (· ≤ ·)) {c : ℕ}
    (hc : c ∈ first :: later) : c ≤ later.getLastD first := by
  induction later generalizing first c with
  | nil => exact Nat.le_of_eq (List.mem_singleton.mp hc)
  | cons c' later ih =>
    obtain ⟨hfirst, hlater⟩ := List.pairwise_cons.mp hordered
    rw [List.getLastD_cons]
    rcases List.mem_cons.mp hc with rfl | hc
    · exact (hfirst c' List.mem_cons_self).trans (ih hlater List.mem_cons_self)
    · exact ih hlater hc

/-- What is seen lies between the first start and the last end. -/
theorem between_of_seen (hmono : Monotone start) (hordered : (first :: later).Pairwise (· ≤ ·))
    (hseen : ∃ c ∈ first :: later, start c ≤ n ∧ n < c) :
    start first ≤ n ∧ n < later.getLastD first := by
  obtain ⟨c, hc, hstart, hend⟩ := hseen
  have hle : first ≤ c := by
    rcases List.mem_cons.mp hc with rfl | hc
    · exact le_rfl
    · exact (List.pairwise_cons.mp hordered).1 c hc
  exact ⟨(hmono hle).trans hstart, hend.trans_le (le_getLastD hordered hc)⟩

/-- **Nothing is missed** exactly when each window reaches back to the end of the one before. -/
theorem isChain_iff_follows (hmono : Monotone start) (hstart : ∀ c, start c ≤ c)
    (hordered : (first :: later).Pairwise (· ≤ ·)) :
    (first :: later).IsChain (fun c c' => start c' ≤ c) ↔
      ∀ n, start first ≤ n → n < later.getLastD first →
        ∃ c ∈ first :: later, start c ≤ n ∧ n < c := by
  induction later generalizing first with
  | nil => exact ⟨fun _ n hfrom hto => ⟨first, List.mem_singleton_self _, hfrom, hto⟩,
      fun _ => .singleton _⟩
  | cons c' later ih =>
    obtain ⟨hfirst, hlater⟩ := List.pairwise_cons.mp hordered
    have hle : first ≤ c' := hfirst c' List.mem_cons_self
    rw [List.isChain_cons_cons, ih hlater, List.getLastD_cons]
    constructor
    · rintro ⟨hreach, hrest⟩ n hfrom hto
      rcases Nat.lt_or_ge n first with hbefore | hbehind
      · exact ⟨first, List.mem_cons_self, hfrom, hbefore⟩
      · obtain ⟨c, hc, hwindow⟩ := hrest n (hreach.trans hbehind) hto
        exact ⟨c, List.mem_cons_of_mem _ hc, hwindow⟩
    · intro hall
      have hlast : c' ≤ later.getLastD c' := le_getLastD hlater List.mem_cons_self
      constructor
      · -- Otherwise the number behind the first window is in no window.
        by_contra hgap
        have hgap := Nat.lt_of_not_le hgap
        obtain ⟨c, hc, hfrom, hto⟩ := hall first (hstart first)
          (hgap.trans_le ((hstart c').trans hlast))
        rcases List.mem_cons.mp hc with rfl | hc
        · exact Nat.lt_irrefl _ hto
        · have hc' : c' ≤ c := by
            rcases List.mem_cons.mp hc with rfl | hc
            · exact le_rfl
            · exact (List.pairwise_cons.mp hlater).1 c hc
          exact Nat.not_lt_of_le ((hmono hc').trans hfrom) hgap
      · intro n hfrom hto
        obtain ⟨c, hc, hwindow⟩ := hall n ((hmono hle).trans hfrom) hto
        rcases List.mem_cons.mp hc with rfl | hc
        · exact ⟨c', List.mem_cons_self, hfrom, hwindow.2.trans_le hle⟩
        · exact ⟨c, hc, hwindow⟩

end Windows

end StreamInfa
