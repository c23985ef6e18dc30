import Mathlib.Data.List.Basic

/-!
Runs of a machine given by a partial step function.

A machine is a state type `σ`, an action type `α` and `step : σ → α → Option σ`
(`none`: the action is not enabled). Nondeterminism, such as a scheduler or the
outside world, is the choice of the action list.

* `run_invariant` lifts what one step preserves to whole runs; `run_history` does so
  for invariants that speak of the actions performed so far.
* `Meets step ok s as` says that every step of the run of `as` from `s` is taken
  from a state and with an action satisfying `ok`; `run_invariant_of_meets` and
  `run_history_of_meets` are the invariant rules restricted to such runs.
* `run_length_le` bounds the length of a run by a measure that every step decreases, and
  `exists_run_stuck` completes it to one after which no step is possible.
* `forall_reached_iff_meets`: where `ok` is exactly what a step needs to keep the
  invariant, the runs meeting `ok` are exactly those that keep it throughout.
-/

namespace StreamInfa

variable {σ α : Type*} {step : σ → α → Option σ}

/-- Perform the actions in order; `none` as soon as one is not enabled. -/
def run (step : σ → α → Option σ) : σ → List α → Option σ
  | s, [] => some s
  | s, a :: as => (step s a).bind fun s' => run step s' as

@[simp] theorem run_nil (s : σ) : run step s [] = some s := rfl

theorem run_cons (s : σ) (a : α) (as : List α) :
    run step s (a :: as) = (step s a).bind fun s' => run step s' as := rfl

theorem run_cons_of_step {s s' : σ} {a : α} (h : step s a = some s') (as : List α) :
    run step s (a :: as) = run step s' as := by
  simp [run_cons, h]

/-- A run of `a :: as` is a step followed by a run of `as`. -/
theorem run_cons_eq_some {s t : σ} {a : α} {as : List α} (h : run step s (a :: as) = some t) :
    ∃ s', step s a = some s' ∧ run step s' as = some t := by
  rw [run_cons] at h
  exact Option.bind_eq_some_iff.mp h

/-- What every enabled step preserves, every run preserves. -/
theorem run_invariant {I : σ → Prop} (hstep : ∀ s a s', I s → step s a = some s' → I s')
    {s t : σ} {as : List α} (hs : I s) (h : run step s as = some t) : I t := by
  induction as generalizing s with
  | nil =>
    cases h
    exact hs
  | cons a as ih =>
    obtain ⟨s', hs', hrun⟩ := run_cons_eq_some h
    exact ih (hstep s a s' hs hs') hrun

section Measure

variable {I : σ → Prop} {μ : σ → ℕ} {s t : σ}

/-- A measure that every step decreases bounds the length of the runs. -/
theorem run_length_le (hinv : ∀ s a s', I s → step s a = some s' → I s')
    (hlt : ∀ s a s', I s → step s a = some s' → μ s' < μ s) (hs : I s) {as : List α}
    (h : run step s as = some t) : as.length + μ t ≤ μ s := by
  induction as generalizing s with
  | nil =>
    obtain rfl := Option.some.inj h
    exact Nat.le_of_eq (Nat.zero_add _)
  | cons a as ih =>
    obtain ⟨s', hs', hrun⟩ := run_cons_eq_some h
    have hrest := ih (hinv s a s' hs hs') hrun
    have hstep := hlt s a s' hs hs'
    rw [List.length_cons]
    omega

/-- Where every step decreases a measure, every state is followed by one without a step. -/
theorem exists_run_stuck (hinv : ∀ s a s', I s → step s a = some s' → I s')
    (hlt : ∀ s a s', I s → step s a = some s' → μ s' < μ s) (hs : I s) :
    ∃ as t, run step s as = some t ∧ ∀ a, step t a = none := by
  generalize hn : μ s = n
  induction n using Nat.strongRecOn generalizing s with
  | ind n ih =>
    by_cases hstuck : ∀ a, step s a = none
    · exact ⟨[], s, rfl, hstuck⟩
    · push Not at hstuck
      obtain ⟨a, hne⟩ := hstuck
      obtain ⟨s', hstep⟩ := Option.ne_none_iff_exists'.mp hne
      have hless := hlt s a s' hs hstep
      obtain ⟨as, t, hrun, hend⟩ := ih (μ s') (hn ▸ hless) (hinv s a s' hs hstep) rfl
      exact ⟨a :: as, t, (run_cons_of_step hstep as).trans hrun, hend⟩

end Measure

theorem run_append {s t : σ} {p : List α} (h : run step s p = some t) (as : List α) :
    run step s (p ++ as) = run step t as := by
  induction p generalizing s with
  | nil =>
    cases h
    rfl
  | cons a p ih =>
    obtain ⟨s', hs', hrun⟩ := run_cons_eq_some h
    rw [List.cons_append, run_cons_of_step hs']
    exact ih hrun

/-- A run of `p ++ as` is a run of `p` followed by one of `as`. -/
theorem run_append_eq_some {s t : σ} {p as : List α} (h : run step s (p ++ as) = some t) :
    ∃ u, run step s p = some u ∧ run step u as = some t := by
  induction p generalizing s with
  | nil => exact ⟨s, rfl, h⟩
  | cons a p ih =>
    obtain ⟨s', hs', hrun⟩ := run_cons_eq_some h
    obtain ⟨u, hu, hrest⟩ := ih hrun
    exact ⟨u, (run_cons_of_step hs' p).trans hu, hrest⟩

/-- Every step of the run of `as` from `s` is taken in a state and with an
action that satisfy `ok`. -/
def Meets (step : σ → α → Option σ) (ok : σ → α → Prop) : σ → List α → Prop
  | _, [] => True
  | s, a :: as => ok s a ∧ ∀ s', step s a = some s' → Meets step ok s' as

theorem Meets.cons {ok : σ → α → Prop} {s s' : σ} {a : α} {as : List α} (hok : ok s a)
    (hs' : step s a = some s') (h : Meets step ok s' as) : Meets step ok s (a :: as) := by
  refine ⟨hok, fun s'' hs'' => ?_⟩
  obtain rfl := Option.some.inj (hs'.symm.trans hs'')
  exact h

theorem Meets.imp {ok ok' : σ → α → Prop} (himp : ∀ s a, ok s a → ok' s a) {s : σ} {as : List α}
    (h : Meets step ok s as) : Meets step ok' s as := by
  induction as generalizing s with
  | nil => trivial
  | cons a as ih => exact ⟨himp s a h.1, fun s' hs' => ih (h.2 s' hs')⟩

theorem Meets.and {ok ok' : σ → α → Prop} {s : σ} {as : List α} (h : Meets step ok s as)
    (h' : Meets step ok' s as) : Meets step (fun s a => ok s a ∧ ok' s a) s as := by
  induction as generalizing s with
  | nil => trivial
  | cons a as ih => exact ⟨⟨h.1, h'.1⟩, fun s' hs' => ih (h.2 s' hs') (h'.2 s' hs')⟩

theorem Meets.take {ok : σ → α → Prop} {s : σ} {as : List α} (h : Meets step ok s as) (n : ℕ) :
    Meets step ok s (as.take n) := by
  induction as generalizing s n with
  | nil =>
    rw [List.take_nil]
    trivial
  | cons a as ih =>
    cases n with
    | zero => trivial
    | succ n => exact ⟨h.1, fun s' hs' => ih (h.2 s' hs') n⟩

theorem Meets.left {ok : σ → α → Prop} {s : σ} {p as : List α} (h : Meets step ok s (p ++ as)) :
    Meets step ok s p := by
  have htake := h.take p.length
  rwa [List.take_left] at htake

theorem Meets.right {ok : σ → α → Prop} {s t : σ} {p as : List α}
    (h : Meets step ok s (p ++ as)) (hp : run step s p = some t) : Meets step ok t as := by
  induction p generalizing s with
  | nil =>
    cases hp
    exact h
  | cons a p ih =>
    obtain ⟨s', hs', hrun⟩ := run_cons_eq_some hp
    exact ih (h.2 s' hs') hrun

theorem Meets.append {ok : σ → α → Prop} {s : σ} {p as : List α} (hp : Meets step ok s p)
    (has : ∀ t, run step s p = some t → Meets step ok t as) : Meets step ok s (p ++ as) := by
  induction p generalizing s with
  | nil => exact has s rfl
  | cons a p ih =>
    refine ⟨hp.1, fun s' hs' => ih (hp.2 s' hs') fun t ht => has t ?_⟩
    rw [run_cons_of_step hs', ht]

/-- The invariant rule for runs all of whose steps meet a condition. -/
theorem run_invariant_of_meets {I : σ → Prop} {ok : σ → α → Prop}
    (hstep : ∀ s a s', I s → ok s a → step s a = some s' → I s')
    {s t : σ} {as : List α} (hs : I s) (hok : Meets step ok s as)
    (h : run step s as = some t) : I t := by
  induction as generalizing s with
  | nil =>
    cases h
    exact hs
  | cons a as ih =>
    obtain ⟨s', hs', hrun⟩ := run_cons_eq_some h
    exact ih (hstep s a s' hs hok.1 hs') (hok.2 s' hs') hrun

/-- A condition on the actions alone. -/
theorem meets_of_forall {ok : σ → α → Prop} {s : σ} {as : List α} (h : ∀ a ∈ as, ∀ s, ok s a) :
    Meets step ok s as := by
  induction as generalizing s with
  | nil => trivial
  | cons a as ih =>
    exact ⟨h a List.mem_cons_self s, fun _ _ => ih fun b hb => h b (List.mem_cons_of_mem a hb)⟩

/-- An invariant that may speak of the actions performed so far, for runs all of whose
steps meet a condition. -/
theorem run_history_of_meets {I : List α → σ → Prop} {ok : σ → α → Prop} {s : σ}
    (hstep : ∀ p c a c', run step s p = some c → I p c → ok c a → step c a = some c' →
      I (p ++ [a]) c')
    (hs : I [] s) {as : List α} {t : σ} (hok : Meets step ok s as)
    (h : run step s as = some t) : I as t := by
  -- The actions are split into those done, which `I` speaks of, and those to come.
  suffices hall : ∀ as p c, run step s p = some c → I p c → Meets step ok c as →
      run step c as = some t → I (p ++ as) t
    from hall as [] s rfl hs hok h
  intro as
  induction as with
  | nil =>
    intro p c _ hc _ hrun
    cases hrun
    rwa [List.append_nil]
  | cons a as ih =>
    intro p c hp hc hok hrun
    obtain ⟨c', hc', hrest⟩ := run_cons_eq_some hrun
    have hp' : run step s (p ++ [a]) = some c' := by
      rw [run_append hp, run_cons_of_step hc', run_nil]
    have hI := ih (p ++ [a]) c' hp' (hstep p c a c' hp hc hok.1 hc') (hok.2 c' hc') hrest
    rwa [List.append_assoc, List.singleton_append] at hI

theorem run_history {I : List α → σ → Prop} {s : σ}
    (hstep : ∀ p c a c', run step s p = some c → I p c → step c a = some c' → I (p ++ [a]) c')
    (hs : I [] s) {as : List α} {t : σ} (h : run step s as = some t) : I as t :=
  run_history_of_meets (fun p c a c' hp hc _ => hstep p c a c' hp hc) hs
    (meets_of_forall fun _ _ _ => trivial) h

/-- What holds in every state a run goes through holds before each of its steps. -/
theorem meets_of_reached {P : σ → Prop} {s : σ} {as : List α}
    (h : ∀ n t, run step s (as.take n) = some t → P t) : Meets step (fun s _ => P s) s as := by
  induction as generalizing s with
  | nil => trivial
  | cons a as ih =>
    refine ⟨h 0 s rfl, fun s' hs' => ih fun n t ht => h (n + 1) t ?_⟩
    rw [List.take_succ_cons, run_cons_of_step hs', ht]

/-- When a step from a state satisfying `I` keeps `I` exactly if it meets `ok`, all the
states a run goes through satisfy `I` exactly if all its steps meet `ok`. -/
theorem forall_reached_iff_meets {I : σ → Prop} {ok : σ → α → Prop}
    (hstep : ∀ s a s', I s → step s a = some s' → (I s' ↔ ok s a))
    (hstuck : ∀ s a, step s a = none → ok s a) {s : σ} (hs : I s) (as : List α) :
    (∀ n t, run step s (as.take n) = some t → I t) ↔ Meets step ok s as := by
  induction as generalizing s with
  | nil =>
    refine ⟨fun _ => trivial, fun _ n t ht => ?_⟩
    rw [List.take_nil, run_nil] at ht
    exact Option.some.inj ht ▸ hs
  | cons a as ih =>
    constructor
    · intro hall
      cases hs' : step s a with
      | none => exact ⟨hstuck s a hs', fun _ h => absurd (hs'.symm.trans h) (by simp)⟩
      | some s' =>
        have hI' : I s' := hall 1 s' (by simp [run_cons, hs'])
        refine ⟨(hstep s a s' hs hs').mp hI', fun s'' h => ?_⟩
        obtain rfl := Option.some.inj (hs'.symm.trans h)
        refine (ih hI').mp fun n t ht => hall (n + 1) t ?_
        rw [List.take_succ_cons, run_cons_of_step hs', ht]
    · rintro ⟨hok, hrest⟩ n t ht
      cases n with
      | zero => exact Option.some.inj ht ▸ hs
      | succ n =>
        obtain ⟨s', hs', hrun⟩ := run_cons_eq_some ht
        exact (ih ((hstep s a s' hs hs').mpr hok)).mpr (hrest s' hs') n t hrun

/-- In a run, a condition on the enabled actions is one on all of them. -/
theorem meets_enabled_iff {ok : σ → α → Prop} {s t : σ} {as : List α}
    (h : run step s as = some t) :
    Meets step (fun s a => step s a ≠ none → ok s a) s as ↔ Meets step ok s as := by
  induction as generalizing s with
  | nil => rfl
  | cons a as ih =>
    obtain ⟨s', hs', hrun⟩ := run_cons_eq_some h
    have henabled : step s a ≠ none := by simp [hs']
    refine and_congr ⟨fun hok => hok henabled, fun hok _ => hok⟩ ?_
    refine forall_congr' fun s'' => forall_congr' fun hs'' => ?_
    obtain rfl := Option.some.inj (hs'.symm.trans hs'')
    exact ih hrun

end StreamInfa
