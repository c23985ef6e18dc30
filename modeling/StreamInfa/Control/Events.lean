import StreamInfa.Control.State

/-!
Pipeline events and the event handler (`src/control/events.rs`).

The handler is the only reader of the event channel, so the order in which it
takes the events is the order of the list given to `runControl`; the one operation
the pipeline performs directly on the manager, `set_expected_renditions`, is a step
of its own.

Each operation touches one stream. `ControlStep.onEntry` is its effect on that
stream's entry, and `lookup_runControl` says that the entry of a stream evolves by
the stream's own steps alone, whatever happens to the others.
-/

namespace StreamInfa.Control

/-- Events sent from the data plane to the control plane. -/
inductive PipelineEvent where
  | streamStarted (streamId : StreamId) (mediaInfo : MediaInfo)
  | segmentProduced (streamId : StreamId) (rendition : Text) (sequence : ℕ)
  | streamEnded (streamId : StreamId)
  | streamError (streamId : StreamId) (error : Text)
  | vodProgress (streamId : StreamId) (percent : ℚ)
  | renditionComplete (streamId : StreamId) (rendition : Text)
deriving DecidableEq, Repr

def PipelineEvent.streamId : PipelineEvent → StreamId
  | .streamStarted s _ | .segmentProduced s _ _ | .streamEnded s | .streamError s _
  | .vodProgress s _ | .renditionComplete s _ => s

/-- The manager after a fallible operation whose error is only logged. -/
def orUnchanged (m : StreamStateManager)
    (result : Except StateError (StreamEntry × StreamStateManager)) : StreamStateManager :=
  match result with
  | .ok (_, m') => m'
  | .error _ => m

/-- One turn of the event handler's loop. -/
def handleEvent (m : StreamStateManager) (event : PipelineEvent) (now : DateTime) :
    StreamStateManager :=
  match event with
  | .streamStarted streamId mediaInfo =>
    (orUnchanged m (m.transition streamId .live now)).setMediaInfo streamId mediaInfo
  | .segmentProduced streamId rendition sequence =>
    m.updateRenditionProgress streamId rendition sequence now
  | .streamEnded streamId => orUnchanged m (m.transition streamId .processing now)
  | .streamError streamId error => orUnchanged m (m.transitionToError streamId error now)
  | .vodProgress _ _ => m
  | .renditionComplete streamId rendition => (m.markRenditionComplete streamId rendition now).2

/-- What reaches the manager from a stream's tasks: an event through the channel, or
the transcode pipeline's call of `set_expected_renditions`. -/
inductive ControlStep where
  | event (e : PipelineEvent)
  | expect (streamId : StreamId) (count : ℕ)
deriving DecidableEq, Repr

def ControlStep.streamId : ControlStep → StreamId
  | .event e => e.streamId
  | .expect s _ => s

def controlStep (m : StreamStateManager) : ControlStep × DateTime → StreamStateManager
  | (.event e, now) => handleEvent m e now
  | (.expect streamId count, _) => m.setExpectedRenditions streamId count

/-- Take the steps in order, each at its clock reading. -/
def runControl (m : StreamStateManager) (steps : List (ControlStep × DateTime)) :
    StreamStateManager :=
  steps.foldl controlStep m

/-! ### The effect on one stream -/

/-- A valid transition of an entry; an invalid one leaves it as it is. -/
def StreamEntry.moveTo (entry : StreamEntry) (newState : StreamState) (now : DateTime) :
    StreamEntry :=
  if StreamStateManager.isValidTransition entry.state newState entry.metadata.ingestMode then
    { entry with
      metadata := StreamStateManager.stampTransition entry.metadata newState now
      state := newState }
  else entry

/-- What a step does to the entry of its stream. -/
def ControlStep.onEntry (now : DateTime) (entry : StreamEntry) : ControlStep → StreamEntry
  | .event (.streamStarted _ mediaInfo) =>
    let entry := entry.moveTo .live now
    { entry with metadata := { entry.metadata with mediaInfo := some mediaInfo } }
  | .event (.segmentProduced _ rendition sequence) =>
    let status := StreamStateManager.renditionStatus entry.renditions rendition
    { entry with
      renditions := entry.renditions.insert rendition
        { status with segmentsProduced := sequence, lastSegmentTime := some now } }
  | .event (.streamEnded _) => entry.moveTo .processing now
  | .event (.streamError _ error) =>
    if entry.state = .deleted then entry
    else
      { entry with
        metadata := { entry.metadata with endedAt := some now }
        state := .error
        errorMessage := some error }
  | .event (.vodProgress _ _) => entry
  | .event (.renditionComplete _ rendition) =>
    let (entry, shouldTransition) := StreamStateManager.noteRenditionComplete entry rendition
    if shouldTransition then entry.moveTo .ready now else entry
  | .expect _ count => { entry with expectedRenditions := some count }

section Lookup

variable {m : StreamStateManager} {streamId other : StreamId} {now : DateTime}

theorem lookup_setEntry_self (entry : StreamEntry) (current : StreamState) :
    (m.setEntry streamId entry current).streams.lookup streamId = some entry :=
  AList.lookup_insert _

theorem lookup_setEntry_ne (entry : StreamEntry) (current : StreamState)
    (hne : other ≠ streamId) :
    (m.setEntry streamId entry current).streams.lookup other = m.streams.lookup other :=
  AList.lookup_insert_ne hne

theorem lookup_transition_self (newState : StreamState) :
    (orUnchanged m (m.transition streamId newState now)).streams.lookup streamId =
      (m.streams.lookup streamId).map fun entry => entry.moveTo newState now := by
  unfold StreamStateManager.transition
  cases h : m.streams.lookup streamId with
  | none => simp only [orUnchanged, h, Option.map_none]
  | some entry =>
    simp only [StreamEntry.moveTo, Option.map_some]
    split
    · exact lookup_setEntry_self _ _
    · exact h

theorem lookup_transition_ne (newState : StreamState) (hne : other ≠ streamId) :
    (orUnchanged m (m.transition streamId newState now)).streams.lookup other =
      m.streams.lookup other := by
  unfold StreamStateManager.transition
  cases m.streams.lookup streamId with
  | none => rfl
  | some entry =>
    dsimp only
    split
    · exact lookup_setEntry_ne _ _ hne
    · rfl

theorem lookup_transitionToError_self (error : Text) :
    (orUnchanged m (m.transitionToError streamId error now)).streams.lookup streamId =
      (m.streams.lookup streamId).map fun entry =>
        ControlStep.onEntry now entry (.event (.streamError streamId error)) := by
  unfold StreamStateManager.transitionToError
  cases h : m.streams.lookup streamId with
  | none => simp only [orUnchanged, h, Option.map_none]
  | some entry =>
    simp only [ControlStep.onEntry, Option.map_some]
    split
    · exact h
    · exact lookup_setEntry_self _ _

theorem lookup_transitionToError_ne (error : Text) (hne : other ≠ streamId) :
    (orUnchanged m (m.transitionToError streamId error now)).streams.lookup other =
      m.streams.lookup other := by
  unfold StreamStateManager.transitionToError
  cases m.streams.lookup streamId with
  | none => rfl
  | some entry =>
    dsimp only
    split
    · rfl
    · exact lookup_setEntry_ne _ _ hne

/-- `markRenditionComplete` ends, whichever way its second section goes, in a
manager that `transition` would leave. -/
theorem markRenditionComplete_eq {entry : StreamEntry} (rendition : Text)
    (h : m.streams.lookup streamId = some entry) :
    (m.markRenditionComplete streamId rendition now).2 =
      let noted := StreamStateManager.noteRenditionComplete entry rendition
      let m' := { m with streams := m.streams.insert streamId noted.1 }
      if noted.2 then orUnchanged m' (m'.transition streamId .ready now) else m' := by
  simp only [StreamStateManager.markRenditionComplete, h]
  split
  · unfold orUnchanged
    cases StreamStateManager.transition _ streamId .ready now with
    | error e => rfl
    | ok result => rfl
  · rfl

theorem lookup_markRenditionComplete_self (rendition : Text) :
    (m.markRenditionComplete streamId rendition now).2.streams.lookup streamId =
      (m.streams.lookup streamId).map fun entry =>
        ControlStep.onEntry now entry (.event (.renditionComplete streamId rendition)) := by
  cases h : m.streams.lookup streamId with
  | none => simp only [StreamStateManager.markRenditionComplete, h, Option.map_none]
  | some entry =>
    rw [markRenditionComplete_eq rendition h]
    simp only [ControlStep.onEntry, Option.map_some]
    split
    · rw [lookup_transition_self, AList.lookup_insert, Option.map_some]
    · exact AList.lookup_insert _

theorem lookup_markRenditionComplete_ne (rendition : Text) (hne : other ≠ streamId) :
    (m.markRenditionComplete streamId rendition now).2.streams.lookup other =
      m.streams.lookup other := by
  cases h : m.streams.lookup streamId with
  | none => simp only [StreamStateManager.markRenditionComplete, h]
  | some entry =>
    rw [markRenditionComplete_eq rendition h]
    dsimp only
    split
    · rw [lookup_transition_ne _ hne]
      exact AList.lookup_insert_ne hne
    · exact AList.lookup_insert_ne hne

end Lookup

/-- A step changes the entry of its own stream, by `onEntry`. -/
theorem lookup_controlStep_self (m : StreamStateManager) (step : ControlStep) (now : DateTime) :
    (controlStep m (step, now)).streams.lookup step.streamId =
      (m.streams.lookup step.streamId).map fun entry => step.onEntry now entry := by
  cases step with
  | expect streamId count => exact Map.lookup_adjust_self _ _ _
  | event e =>
    cases e with
    | streamStarted streamId mediaInfo =>
      simp only [controlStep, handleEvent, StreamStateManager.setMediaInfo,
        StreamStateManager.modifyEntry, ControlStep.streamId, PipelineEvent.streamId,
        Map.lookup_adjust_self, lookup_transition_self, Option.map_map]
      rfl
    | segmentProduced streamId rendition sequence => exact Map.lookup_adjust_self _ _ _
    | streamEnded streamId => exact lookup_transition_self _
    | streamError streamId error => exact lookup_transitionToError_self _
    | vodProgress streamId percent => exact Option.map_id'.symm
    | renditionComplete streamId rendition => exact lookup_markRenditionComplete_self _

/-- A step leaves the entries of the other streams alone. -/
theorem lookup_controlStep_ne (m : StreamStateManager) {step : ControlStep} {other : StreamId}
    (now : DateTime) (hne : other ≠ step.streamId) :
    (controlStep m (step, now)).streams.lookup other = m.streams.lookup other := by
  cases step with
  | expect streamId count => exact Map.lookup_adjust_ne _ _ hne
  | event e =>
    cases e with
    | streamStarted streamId mediaInfo =>
      refine (Map.lookup_adjust_ne _ _ hne).trans ?_
      exact lookup_transition_ne _ hne
    | segmentProduced streamId rendition sequence => exact Map.lookup_adjust_ne _ _ hne
    | streamEnded streamId => exact lookup_transition_ne _ hne
    | streamError streamId error => exact lookup_transitionToError_ne _ hne
    | vodProgress streamId percent => rfl
    | renditionComplete streamId rendition => exact lookup_markRenditionComplete_ne _ hne

/-- The steps that concern one stream, in order. -/
def ownSteps (streamId : StreamId) (steps : List (ControlStep × DateTime)) :
    List (ControlStep × DateTime) :=
  steps.filter fun s => s.1.streamId = streamId

/-- The entry after a sequence of the stream's own steps. -/
def StreamEntry.after (entry : StreamEntry) (steps : List (ControlStep × DateTime)) :
    StreamEntry :=
  steps.foldl (fun entry s => s.1.onEntry s.2 entry) entry

/-- The entry of a stream evolves by the stream's own steps. -/
theorem lookup_runControl (m : StreamStateManager) (streamId : StreamId)
    (steps : List (ControlStep × DateTime)) :
    (runControl m steps).streams.lookup streamId =
      (m.streams.lookup streamId).map fun entry => entry.after (ownSteps streamId steps) := by
  induction steps generalizing m with
  | nil => exact Option.map_id'.symm
  | cons s steps ih =>
    obtain ⟨step, now⟩ := s
    have hrun : runControl m ((step, now) :: steps) =
        runControl (controlStep m (step, now)) steps := rfl
    rw [hrun, ih]
    by_cases howner : step.streamId = streamId
    · subst howner
      rw [lookup_controlStep_self, Option.map_map]
      simp only [ownSteps, List.filter_cons, decide_true, if_true]
      rfl
    · rw [lookup_controlStep_ne m now (Ne.symm howner)]
      simp only [ownSteps, List.filter_cons, decide_eq_true_eq, if_neg howner]

end StreamInfa.Control
