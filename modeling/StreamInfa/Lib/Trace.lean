import Mathlib.Data.List.Basic

/-!
Conditions on each item of a trace and the items before it.

`EachAfter P done xs` says that every item of `xs` satisfies `P` with respect to
`done` and the items of `xs` that precede it; `eachAfter_iff` is the reading by
splits of the trace. `EachAfter.of_filter` reduces a condition on some of the items
to the subtrace they form.
-/

namespace StreamInfa

variable {α : Type*} {P : List α → α → Prop}

/-- Every item of the second list satisfies `P` with respect to the first list and
the items before it. -/
def EachAfter (P : List α → α → Prop) : List α → List α → Prop
  | _, [] => True
  | done, x :: xs => P done x ∧ EachAfter P (done ++ [x]) xs

theorem eachAfter_append {done xs ys : List α} :
    EachAfter P done (xs ++ ys) ↔ EachAfter P done xs ∧ EachAfter P (done ++ xs) ys := by
  induction xs generalizing done with
  | nil => simp [EachAfter]
  | cons x xs ih =>
    simp only [List.cons_append, EachAfter, ih, and_assoc, List.append_assoc, List.nil_append]

theorem eachAfter_iff {done xs : List α} :
    EachAfter P done xs ↔ ∀ pre x post, xs = pre ++ x :: post → P (done ++ pre) x := by
  constructor
  · rintro h pre x post rfl
    exact (eachAfter_append.mp h).2.1
  · intro h
    induction xs generalizing done with
    | nil => trivial
    | cons x xs ih =>
      refine ⟨by simpa using h [] x xs rfl, ih fun pre y post hxs => ?_⟩
      have hy := h (x :: pre) y post (by rw [hxs, List.cons_append])
      rwa [← List.singleton_append, ← List.append_assoc] at hy

/-- A condition that is monotone in what came before, and that only the items
selected by `q` can violate, follows from the subtrace of these items. -/
theorem EachAfter.of_filter {q : α → Bool} {done xs : List α}
    (hmono : ∀ {as bs : List α} {x : α}, as ⊆ bs → P as x → P bs x)
    (hskip : ∀ {as : List α} {x : α}, q x = false → P as x)
    (h : EachAfter P (done.filter q) (xs.filter q)) : EachAfter P done xs := by
  induction xs generalizing done with
  | nil => trivial
  | cons x xs ih =>
    cases hq : q x with
    | true =>
      rw [List.filter_cons_of_pos hq] at h
      refine ⟨hmono (List.filter_subset_self done) h.1, ih ?_⟩
      rw [List.filter_append, List.filter_cons_of_pos hq, List.filter_nil]
      exact h.2
    | false =>
      rw [List.filter_cons_of_neg (by rw [hq]; exact Bool.false_ne_true)] at h
      refine ⟨hskip hq, ih ?_⟩
      rw [List.filter_append, List.filter_cons_of_neg (by rw [hq]; exact Bool.false_ne_true),
        List.filter_nil, List.append_nil]
      exact h

end StreamInfa
