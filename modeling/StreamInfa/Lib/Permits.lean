import Mathlib.Data.List.Basic

/-!
Permits shared by a list of tasks.

A semaphore hands out `total` permits, and some of the tasks hold one. `Accounted` says that those
left and those held make up the total. The rules are what can happen to a task: it comes
(`Accounted.concat`), it goes on to another state (`Accounted.set`), and it ends
(`Accounted.eraseIdx`), each with the permits that are taken or given back. Under them no more than
`total` tasks hold a permit, and none is left exactly when all are held.
-/

namespace StreamInfa

variable {τ : Type*} {p : τ → Bool} {tasks : List τ} {i : ℕ} {t : τ}

theorem countP_set_add (h : tasks[i]? = some t) (t' : τ) :
    (tasks.set i t').countP p + (if p t then 1 else 0) =
      tasks.countP p + if p t' then 1 else 0 := by
  obtain ⟨hi, rfl⟩ := List.getElem?_eq_some_iff.mp h
  rw [List.countP_set hi]
  have hpos : (if p tasks[i] then 1 else 0) ≤ tasks.countP p := by
    split
    · exact List.countP_pos_iff.mpr ⟨_, List.getElem_mem hi, ‹_›⟩
    · exact Nat.zero_le _
  omega

theorem countP_eraseIdx_add (h : tasks[i]? = some t) :
    (tasks.eraseIdx i).countP p + (if p t then 1 else 0) = tasks.countP p := by
  induction tasks generalizing i with
  | nil => cases h
  | cons t₀ rest ih =>
    cases i with
    | zero =>
      obtain rfl := Option.some.inj h
      rw [List.eraseIdx_cons_zero, List.countP_cons]
    | succ i =>
      rw [List.eraseIdx_cons_succ, List.countP_cons, List.countP_cons, ← ih h]
      omega

/-- The permits left and the permits held by the tasks are `total`. -/
def Accounted (p : τ → Bool) (total available : ℕ) (tasks : List τ) : Prop :=
  available + tasks.countP p = total

namespace Accounted

variable {total available available' : ℕ}

theorem start (p : τ → Bool) (total : ℕ) : Accounted p total total [] := rfl

theorem concat (h : Accounted p total available tasks) (t : τ)
    (havailable : available' + (if p t then 1 else 0) = available) :
    Accounted p total available' (tasks ++ [t]) := by
  rw [Accounted, List.countP_append, List.countP_singleton]
  rw [Accounted] at h
  omega

theorem set (h : Accounted p total available tasks) (hget : tasks[i]? = some t) (t' : τ)
    (havailable : available' + (if p t' then 1 else 0) = available + if p t then 1 else 0) :
    Accounted p total available' (tasks.set i t') := by
  have hcount := countP_set_add (p := p) hget t'
  rw [Accounted] at h ⊢
  omega

theorem eraseIdx (h : Accounted p total available tasks) (hget : tasks[i]? = some t)
    (havailable : available' = available + if p t then 1 else 0) :
    Accounted p total available' (tasks.eraseIdx i) := by
  have hcount := countP_eraseIdx_add (p := p) hget
  rw [Accounted] at h ⊢
  omega

theorem le (h : Accounted p total available tasks) : tasks.countP p ≤ total := by
  rw [Accounted] at h
  omega

end Accounted

end StreamInfa
