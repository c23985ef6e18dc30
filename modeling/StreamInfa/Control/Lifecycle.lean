import StreamInfa.Control.Shared

/-!
The lifecycle of a stream under concurrent operations.

`StreamEntry.Lifecycle` ties the state of an entry to its mode, its timestamps and
its error message. Every `EntryStep` preserves it, so by `sharedStep_lookup` every
run of the shared manager does (`lifecycle_reached`), and no step lowers the rank of
a state (`EntryStep.rank_lt`).
-/

namespace StreamInfa.Control

open StreamStateManager

/-- The position of a state in the lifecycle. -/
def StreamState.rank : StreamState → ℕ
  | .pending => 0
  | .live => 1
  | .processing => 2
  | .ready => 3
  | .error => 4
  | .deleted => 5

/-- A stream ends in READY, ERROR or DELETED. -/
def StreamState.isEnded : StreamState → Bool
  | .ready | .error | .deleted => true
  | .pending | .live | .processing => false

/-- What the state of an entry says about its mode, timestamps and error message. -/
structure StreamEntry.Lifecycle (entry : StreamEntry) : Prop where
  vod_never_live : entry.metadata.ingestMode = .vod →
    entry.state ≠ .live ∧ entry.metadata.startedAt = none
  live_started : entry.metadata.ingestMode = .live →
    entry.state = .live ∨ entry.state = .processing ∨ entry.state = .ready →
    entry.metadata.startedAt.isSome = true
  ended : entry.metadata.endedAt.isSome = entry.state.isEnded
  message : entry.errorMessage.isSome = true → entry.state = .error ∨ entry.state = .deleted

/-! ### One step -/

/-- A valid transition goes up, but for ERROR to ERROR. -/
theorem rank_lt_of_isValidTransition {current target : StreamState} {ingestMode : IngestMode}
    (h : isValidTransition current target ingestMode = true) (hne : target ≠ current) :
    current.rank < target.rank := by
  rcases isValidTransition_cases h with
    ⟨rfl, hcurrent⟩ | ⟨rfl, rfl, -⟩ | ⟨rfl, rfl, -⟩ | ⟨rfl, rfl, -⟩ | ⟨rfl, rfl⟩ | ⟨rfl | rfl, rfl⟩
  · cases current with
    | error => exact absurd rfl hne
    | deleted => exact absurd rfl hcurrent
    | pending | live | processing | ready => decide
  all_goals decide

theorem StreamEntry.Lifecycle.created (m : StreamStateManager) (streamId : StreamId)
    (ingestMode : IngestMode) (now : DateTime) :
    (m.createStream streamId ingestMode now).1.Lifecycle where
  vod_never_live _ := ⟨by simp [createStream], rfl⟩
  live_started _ h := by simp [createStream] at h
  ended := rfl
  message h := by simp [createStream] at h

/-- An entry that is neither in ERROR nor DELETED has no message. -/
theorem StreamEntry.Lifecycle.no_message {entry : StreamEntry} (hentry : entry.Lifecycle)
    (herror : entry.state ≠ .error) (hdeleted : entry.state ≠ .deleted) :
    entry.errorMessage = none := by
  cases hmessage : entry.errorMessage with
  | none => rfl
  | some text =>
    rcases hentry.message (by rw [hmessage]; rfl) with h | h
    · exact absurd h herror
    · exact absurd h hdeleted

/-- A valid transition stamps what its target state asks for. -/
theorem StreamEntry.Lifecycle.moveTo {entry : StreamEntry} {newState : StreamState}
    (hentry : entry.Lifecycle) (now : DateTime)
    (h : isValidTransition entry.state newState entry.metadata.ingestMode = true) :
    (entry.moveTo newState now).Lifecycle := by
  rw [StreamEntry.moveTo, if_pos h]
  have hended := hentry.ended
  rcases isValidTransition_cases h with ⟨rfl, -⟩ | ⟨hcur, rfl, hmode⟩ | ⟨hcur, rfl, hmode⟩ |
    ⟨hcur, rfl, hmode⟩ | ⟨hcur, rfl⟩ | ⟨-, rfl⟩
  -- to ERROR
  · refine ⟨fun hvod => ⟨by simp, (hentry.vod_never_live hvod).2⟩, ?_, rfl, fun _ => Or.inl rfl⟩
    intro _ hstate
    simp at hstate
  -- PENDING to LIVE
  · have hnone := hentry.no_message (by simp [hcur]) (by simp [hcur])
    refine ⟨fun hvod => absurd (hmode.symm.trans hvod) (by simp), fun _ _ => rfl, ?_, ?_⟩
    · rw [hcur] at hended
      exact hended
    · simp [hnone]
  -- LIVE to PROCESSING
  · have hnone := hentry.no_message (by simp [hcur]) (by simp [hcur])
    refine ⟨fun hvod => absurd (hmode.symm.trans hvod) (by simp), ?_, ?_, ?_⟩
    · intro _ _
      exact hentry.live_started hmode (Or.inl hcur)
    · rw [hcur] at hended
      exact hended
    · simp [hnone]
  -- PENDING to PROCESSING
  · have hnone := hentry.no_message (by simp [hcur]) (by simp [hcur])
    refine ⟨fun hvod => ⟨by simp, (hentry.vod_never_live hvod).2⟩, ?_, ?_, ?_⟩
    · intro hlive _
      exact absurd (hmode.symm.trans hlive) (by simp)
    · rw [hcur] at hended
      exact hended
    · simp [hnone]
  -- PROCESSING to READY
  · have hnone := hentry.no_message (by simp [hcur]) (by simp [hcur])
    refine ⟨fun hvod => ⟨by simp, (hentry.vod_never_live hvod).2⟩, ?_, rfl, ?_⟩
    · intro hlive _
      exact hentry.live_started hlive (Or.inr (Or.inl hcur))
    · simp [hnone]
  -- READY or ERROR to DELETED
  · refine ⟨fun hvod => ⟨by simp, (hentry.vod_never_live hvod).2⟩, ?_, rfl, fun _ => Or.inr rfl⟩
    intro _ hstate
    simp at hstate

theorem StreamEntry.Lifecycle.failed {entry : StreamEntry} (hentry : entry.Lifecycle)
    (errorMessage : Text) (now : DateTime) : (entry.failed errorMessage now).Lifecycle where
  vod_never_live hvod := ⟨by simp [StreamEntry.failed], (hentry.vod_never_live hvod).2⟩
  live_started _ hstate := by simp [StreamEntry.failed] at hstate
  ended := rfl
  message _ := Or.inl rfl

/-- A step leaves only entries that satisfy the lifecycle. -/
theorem EntryStep.lifecycle {e e' : Option StreamEntry} (h : EntryStep e e')
    (he : ∀ entry, e = some entry → entry.Lifecycle) :
    ∀ entry, e' = some entry → entry.Lifecycle := by
  intro entry' hentry'
  cases h with
  | same => exact he entry' hentry'
  | created m streamId ingestMode now =>
    obtain rfl := Option.some.inj hentry'
    exact .created m streamId ingestMode now
  | moved now hvalid =>
    obtain rfl := Option.some.inj hentry'
    exact (he _ rfl).moveTo now hvalid
  | failed hstate errorMessage now =>
    obtain rfl := Option.some.inj hentry'
    exact (he _ rfl).failed errorMessage now
  | tracked entry renditions expected mediaInfo =>
    obtain rfl := Option.some.inj hentry'
    exact { he entry rfl with }
  | removed => cases hentry'

/-- A step that changes the state of an entry raises its rank. -/
theorem EntryStep.rank_lt {entry entry' : StreamEntry}
    (h : EntryStep (some entry) (some entry')) (hne : entry'.state ≠ entry.state) :
    entry.state.rank < entry'.state.rank := by
  cases h with
  | same | tracked => exact absurd rfl hne
  | moved now hvalid =>
    rw [StreamEntry.moveTo, if_pos hvalid] at hne ⊢
    exact rank_lt_of_isValidTransition hvalid hne
  | failed hstate errorMessage now =>
    have hvalid : isValidTransition entry.state .error entry.metadata.ingestMode = true :=
      decide_eq_true hstate
    exact rank_lt_of_isValidTransition hvalid hne

/-! ### Whole runs -/

theorem lifecycle_reached {t : SharedManager} {as : List ManagerAction}
    (h : run sharedStep .new as = some t) :
    ∀ id entry, t.streams.lookup id = some entry → entry.Lifecycle := by
  refine run_invariant (I := fun s => ∀ id entry, s.streams.lookup id = some entry →
    entry.Lifecycle) ?_ ?_ h
  · intro s a s' hs hstep id
    exact (sharedStep_lookup hstep id).lifecycle (hs id)
  · intro id entry hentry
    simp [SharedManager.new] at hentry

/-- **The stream lifecycle.** After every run of operations, interleaved in any way,
every entry satisfies the lifecycle; a further step that changes the state of an entry
raises its rank, and does not change a DELETED one; an operation that returns an
error leaves the manager as it is. -/
theorem lifecycle_of_every_run {t : SharedManager} {as : List ManagerAction}
    (h : run sharedStep .new as = some t) :
    (∀ id entry, t.streams.lookup id = some entry → entry.Lifecycle) ∧
    (∀ a t' id entry entry', sharedStep t a = some t' → t.streams.lookup id = some entry →
      t'.streams.lookup id = some entry' →
      (entry'.state ≠ entry.state → entry.state.rank < entry'.state.rank) ∧
      (entry.state = .deleted → entry'.state = .deleted)) ∧
    (∀ id newState now e, t.manager.transition id newState now = .error e →
      sharedStep t (.transition id newState now) = some t) ∧
    (∀ id message now e, t.manager.transitionToError id message now = .error e →
      sharedStep t (.transitionToError id message now) = some t) ∧
    (∀ i id now e t', t.operations[i]? = some (.marking id) →
      t.manager.transition id .ready now = .error e →
      sharedStep t (.finishComplete i now) = some t' → t'.manager = t.manager) := by
  refine ⟨lifecycle_reached h, ?_, ?_, ?_, ?_⟩
  · intro a t' id entry entry' hstep hentry hentry'
    have hmove := sharedStep_lookup hstep id
    rw [hentry, hentry'] at hmove
    refine ⟨hmove.rank_lt, fun hdeleted => ?_⟩
    by_contra hne
    have hrank := hmove.rank_lt (by rwa [hdeleted])
    rw [hdeleted] at hrank
    cases hstate : entry'.state <;> rw [hstate] at hrank <;> revert hrank <;> decide
  · intro id newState now e herror
    rcases transitionSection_cases t id newState now with ⟨-, heq⟩ | ⟨_, -, -, hok, -⟩
    · exact congrArg some heq
    · exact absurd (herror.symm.trans hok) (by simp)
  · intro id message now e herror
    rcases errorSection_cases t id message now with ⟨-, heq⟩ | ⟨_, -, -, hok, -⟩
    · exact congrArg some heq
    · exact absurd (herror.symm.trans hok) (by simp)
  · intro i id now e t' hmarking herror hstep
    simp only [sharedStep, hmarking] at hstep
    obtain rfl := Option.some.inj hstep
    rcases transitionSection_cases { t with operations := t.operations.eraseIdx i } id .ready now
      with ⟨-, heq⟩ | ⟨_, -, -, hok, -⟩
    · rw [heq]
      rfl
    · exact absurd (herror.symm.trans hok) (by simp)

/-- An error arrives between the two sections of `mark_rendition_complete`. -/
def refusedRun : List ManagerAction :=
  [.create ⟨1⟩ .live ⟨0⟩, .transition ⟨1⟩ .live ⟨1⟩, .setExpected ⟨1⟩ 1, .adjust 0,
    .updateProgress ⟨1⟩ ['a'] 0 ⟨2⟩, .transition ⟨1⟩ .processing ⟨3⟩, .noteComplete ⟨1⟩ ['a'],
    .transitionToError ⟨1⟩ ['e'] ⟨4⟩, .finishComplete 2 ⟨5⟩]

/-- The automatic transition is then refused and the stream stays in ERROR. -/
theorem lifecycle_of_refusedRun :
    ∃ t, run sharedStep .new refusedRun = some t ∧
      (t.streams.lookup ⟨1⟩).map (fun entry => entry.state) = some .error ∧
      ∀ id entry, t.streams.lookup id = some entry → entry.Lifecycle :=
  ⟨_, rfl, rfl, (@lifecycle_of_every_run _ refusedRun rfl).1⟩

end StreamInfa.Control
