import Mathlib.Data.List.Basic

/-!
Cutting a list into consecutive groups.

`cutFrom closes o xs` feeds `xs` one element at a time into the open group `o`.
After each element, `closes` looks at the whole open group and decides whether it
is closed; the result is the list of closed groups and the group still open at
the end. It is the specification of every accumulator that buffers its input and
emits the buffer at a boundary.

* `flatten_cutFrom`: no element is lost, duplicated or reordered.
* `flatMap_cutFrom`: the same for what is computed from the elements one by one.
* `stampFrom` tags every element with the number of the group that was open when
  it was fed in, and `filter_stampFrom` says that group `i` is exactly the
  elements stamped `i`.
-/

namespace StreamInfa

variable {α : Type*} {closes : List α → Bool}

/-- The closed groups and the open rest after feeding `xs` into the open group. -/
def cutFrom (closes : List α → Bool) : List α → List α → List (List α) × List α
  | o, [] => ([], o)
  | o, x :: xs =>
    if closes (o ++ [x]) then
      ((o ++ [x]) :: (cutFrom closes [] xs).1, (cutFrom closes [] xs).2)
    else cutFrom closes (o ++ [x]) xs

theorem cutFrom_cons_of_closes {o : List α} {x : α} (h : closes (o ++ [x]) = true) (xs : List α) :
    cutFrom closes o (x :: xs) =
      ((o ++ [x]) :: (cutFrom closes [] xs).1, (cutFrom closes [] xs).2) := by
  rw [cutFrom, if_pos h]

theorem cutFrom_cons_of_not_closes {o : List α} {x : α} (h : closes (o ++ [x]) = false)
    (xs : List α) : cutFrom closes o (x :: xs) = cutFrom closes (o ++ [x]) xs := by
  rw [cutFrom, if_neg (by simp [h])]

/-- Feeding in two lists one after the other. -/
theorem cutFrom_append (closes : List α → Bool) (o xs ys : List α) :
    cutFrom closes o (xs ++ ys) =
      ((cutFrom closes o xs).1 ++ (cutFrom closes (cutFrom closes o xs).2 ys).1,
        (cutFrom closes (cutFrom closes o xs).2 ys).2) := by
  induction xs generalizing o with
  | nil => simp [cutFrom]
  | cons x xs ih =>
    cases h : closes (o ++ [x]) with
    | true => simp [cutFrom_cons_of_closes h, ih]
    | false => simp [cutFrom_cons_of_not_closes h, ih]

/-- The groups and the open rest, in order, are the input. -/
theorem flatten_cutFrom (closes : List α → Bool) (o xs : List α) :
    (cutFrom closes o xs).1.flatten ++ (cutFrom closes o xs).2 = o ++ xs := by
  induction xs generalizing o with
  | nil => simp [cutFrom]
  | cons x xs ih =>
    cases h : closes (o ++ [x]) with
    | true =>
      have := ih []
      simp only [cutFrom_cons_of_closes h, List.flatten_cons, List.append_assoc, this]
      simp
    | false => simp [cutFrom_cons_of_not_closes h, ih]

/-- What the elements contribute one by one, the groups and the rest contribute
together. -/
theorem flatMap_cutFrom {β : Type*} (closes : List α → Bool) (f : α → List β) (o xs : List α) :
    (cutFrom closes o xs).1.flatMap (·.flatMap f) ++ (cutFrom closes o xs).2.flatMap f =
      (o ++ xs).flatMap f := by
  rw [← flatten_cutFrom closes o xs, List.flatMap_append]
  congr 1
  induction (cutFrom closes o xs).1 with
  | nil => rfl
  | cons g gs ih => simp [ih]

/-- Every closed group was judged closed. -/
theorem closes_of_mem_cutFrom {o xs g : List α} (h : g ∈ (cutFrom closes o xs).1) :
    closes g = true := by
  induction xs generalizing o with
  | nil => exact absurd h List.not_mem_nil
  | cons x xs ih =>
    cases hc : closes (o ++ [x]) with
    | true =>
      rw [cutFrom_cons_of_closes hc] at h
      rcases List.mem_cons.mp h with rfl | h
      · exact hc
      · exact ih h
    | false =>
      rw [cutFrom_cons_of_not_closes hc] at h
      exact ih h

/-! ### Which group was open -/

/-- Tag every element with the number of the group open when it is fed in; `k` is
the number of the group that is open at the start. -/
def stampFrom (closes : List α → Bool) : ℕ → List α → List α → List (ℕ × α)
  | _, _, [] => []
  | k, o, x :: xs =>
    (k, x) :: (if closes (o ++ [x]) then stampFrom closes (k + 1) [] xs
      else stampFrom closes k (o ++ [x]) xs)

theorem le_of_mem_stampFrom {k : ℕ} {o xs : List α} {s : ℕ × α}
    (h : s ∈ stampFrom closes k o xs) : k ≤ s.1 := by
  induction xs generalizing k o with
  | nil => simp [stampFrom] at h
  | cons x xs ih =>
    rw [stampFrom, List.mem_cons] at h
    rcases h with rfl | h
    · exact Nat.le_refl _
    · split at h
      · exact Nat.le_of_succ_le (ih h)
      · exact ih h

private theorem filter_stampFrom_of_lt {k i : ℕ} {o xs : List α} (h : i < k) :
    (stampFrom closes k o xs).filter (·.1 == i) = [] := by
  rw [List.filter_eq_nil_iff]
  intro s hs
  have := le_of_mem_stampFrom hs
  simp only [beq_iff_eq]
  omega

/-- The elements stamped `k + i` are the `i`-th group after `k`; the open rest
counts as the group after the closed ones. The elements already in the open group
at the start belong to group `k`. -/
theorem filter_stampFrom (closes : List α → Bool) (k i : ℕ) (o xs : List α) :
    (if i = 0 then o else []) ++
        ((stampFrom closes k o xs).filter (·.1 == k + i)).map Prod.snd =
      ((cutFrom closes o xs).1 ++ [(cutFrom closes o xs).2]).getD i [] := by
  induction xs generalizing k i o with
  | nil =>
    cases i with
    | zero => simp [stampFrom, cutFrom]
    | succ i => simp [stampFrom, cutFrom]
  | cons x xs ih =>
    cases h : closes (o ++ [x]) with
    | false =>
      rw [cutFrom_cons_of_not_closes h, ← ih k i (o ++ [x])]
      cases i with
      | zero => simp [stampFrom, h]
      | succ i => simp [stampFrom, h]
    | true =>
      rw [cutFrom_cons_of_closes h]
      cases i with
      | zero => simp [stampFrom, h, filter_stampFrom_of_lt]
      | succ i =>
        -- From the second group on, the stamps are those of a fresh start at `k + 1`.
        have hi := ih (k + 1) i []
        have hk : k + 1 + i = k + (i + 1) := by omega
        simp only [List.cons_append, List.getD_cons_succ, ← hi, hk]
        simp [stampFrom, h]

end StreamInfa
