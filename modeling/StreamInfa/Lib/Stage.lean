import Mathlib.Data.List.Basic

/-!
Stages of a pipeline: tasks that take items off a channel and put out items of their own.

A stage is a relation `step`: in state `s` it takes an item, is left in another state and
puts out a list. `Feeds` is what it does with a whole list of items. `Between` is a stage in
the middle of a run: of all that was sent to it, it has taken all but what is still in its
channel. The three rules are the things that can happen: more is sent (`Between.send`), the
stage takes an item (`Between.take`), and the channel is found empty (`Between.drained`). No
interleaving with other stages plays a part, so a chain of stages does what its stages do one
after the other.
-/

namespace StreamInfa

variable {σ α β : Type*}

/-- From state `s`, the stage takes the items one by one; it is left in the last state, and has
put out the last list. -/
inductive Feeds (step : σ → α → σ → List β → Prop) (s : σ) : List α → σ → List β → Prop
  | nil : Feeds step s [] s []
  | concat {xs : List α} {s' s'' : σ} {x : α} {ys zs : List β} (h : Feeds step s xs s' ys)
      (hstep : step s' x s'' zs) : Feeds step s (xs ++ [x]) s'' (ys ++ zs)

/-- A stage started in `s`: it has taken what was sent, up to what its channel holds. -/
def Between (step : σ → α → σ → List β → Prop) (s : σ) (sent channel : List α) (now : σ)
    (out : List β) : Prop :=
  ∃ taken, taken ++ channel = sent ∧ Feeds step s taken now out

section Rules

variable {step : σ → α → σ → List β → Prop} {s now next : σ} {sent channel : List α}
  {out ys : List β}

theorem Between.start (step : σ → α → σ → List β → Prop) (s : σ) : Between step s [] [] s [] :=
  ⟨[], rfl, .nil⟩

theorem Between.send (h : Between step s sent channel now out) (xs : List α) :
    Between step s (sent ++ xs) (channel ++ xs) now out := by
  obtain ⟨taken, rfl, hfeeds⟩ := h
  exact ⟨taken, (List.append_assoc ..).symm, hfeeds⟩

theorem Between.take {x : α} (h : Between step s sent (x :: channel) now out)
    (hstep : step now x next ys) : Between step s sent channel next (out ++ ys) := by
  obtain ⟨taken, rfl, hfeeds⟩ := h
  exact ⟨taken ++ [x], by rw [List.append_assoc, List.singleton_append], hfeeds.concat hstep⟩

theorem Between.drained (h : Between step s sent [] now out) : Feeds step s sent now out := by
  obtain ⟨taken, rfl, hfeeds⟩ := h
  rwa [List.append_nil]

end Rules

end StreamInfa
