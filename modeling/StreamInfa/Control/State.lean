import StreamInfa.Core.Error
import StreamInfa.Lib.Map

/-!
The stream state manager (`src/control/state.rs`).

Every operation takes the clock reading it would make (`now`). An operation that
fails returns its error and no manager: the state is unchanged. The gauges the
source publishes after each operation are read from `stateCounts`.
-/

namespace StreamInfa.Control

/-- Stream lifecycle states. -/
inductive StreamState where
  | pending
  | live
  | processing
  | ready
  | error
  | deleted
deriving DecidableEq, Repr

def StreamState.toText : StreamState → Text
  | .pending => "pending".toList
  | .live => "live".toList
  | .processing => "processing".toList
  | .ready => "ready".toList
  | .error => "error".toList
  | .deleted => "deleted".toList

/-- State of a single rendition within a stream. -/
inductive RenditionState where
  | active
  | complete
deriving DecidableEq, Repr

/-- Per-rendition progress. -/
structure RenditionStatus where
  rendition : Text
  segmentsProduced : ℕ
  lastSegmentTime : Option DateTime
  status : RenditionState
deriving DecidableEq, Repr

/-- A tracked stream with its current state and metadata. -/
structure StreamEntry where
  state : StreamState
  metadata : StreamMetadata
  errorMessage : Option Text
  renditions : Map Text RenditionStatus
  expectedRenditions : Option ℕ

/-- The in-memory stream state manager, with one counter per state. -/
structure StreamStateManager where
  streams : Map StreamId StreamEntry
  stateCounts : StreamState → ℤ

namespace StreamStateManager

def new : StreamStateManager := ⟨∅, fun _ => 0⟩

/-- Replace the entry of a stream and move it between the state counters. -/
def setEntry (m : StreamStateManager) (streamId : StreamId) (entry : StreamEntry)
    (current : StreamState) : StreamStateManager where
  streams := m.streams.insert streamId entry
  stateCounts s :=
    m.stateCounts s - (if s = current then 1 else 0) + (if s = entry.state then 1 else 0)

/-- Create a new stream in PENDING state. -/
def createStream (m : StreamStateManager) (streamId : StreamId) (ingestMode : IngestMode)
    (now : DateTime) : StreamEntry × StreamStateManager :=
  let entry : StreamEntry :=
    { state := .pending
      metadata := StreamMetadata.new streamId ingestMode now
      errorMessage := none
      renditions := ∅
      expectedRenditions := none }
  (entry,
    { streams := m.streams.insert streamId entry
      stateCounts := fun s => m.stateCounts s + if s = .pending then 1 else 0 })

/-- The transitions of the media lifecycle. ERROR is reachable from any state but
DELETED. -/
def isValidTransition (current target : StreamState) (ingestMode : IngestMode) : Bool :=
  if target = .error then decide (current ≠ .deleted)
  else
    match current, target, ingestMode with
    | .pending, .live, .live => true
    | .live, .processing, .live => true
    | .pending, .processing, .vod => true
    | .processing, .ready, _ => true
    | .ready, .deleted, _ => true
    | .error, .deleted, _ => true
    | _, _, _ => false

/-- The timestamps a transition into `newState` sets. -/
def stampTransition (metadata : StreamMetadata) (newState : StreamState) (now : DateTime) :
    StreamMetadata :=
  match newState with
  | .live => { metadata with startedAt := some now }
  | .ready | .error | .deleted => { metadata with endedAt := some now }
  | .pending | .processing => metadata

/-- Transition a stream to a new state, enforcing valid transitions. -/
def transition (m : StreamStateManager) (streamId : StreamId) (newState : StreamState)
    (now : DateTime) : Except StateError (StreamEntry × StreamStateManager) :=
  match m.streams.lookup streamId with
  | none => .error (.streamNotFound streamId)
  | some entry =>
    if isValidTransition entry.state newState entry.metadata.ingestMode then
      let updated :=
        { entry with
          metadata := stampTransition entry.metadata newState now
          state := newState }
      .ok (updated, m.setEntry streamId updated entry.state)
    else .error (.invalidTransition streamId entry.state.toText newState.toText)

/-- Transition a stream to ERROR with an error message. -/
def transitionToError (m : StreamStateManager) (streamId : StreamId) (errorMessage : Text)
    (now : DateTime) : Except StateError (StreamEntry × StreamStateManager) :=
  match m.streams.lookup streamId with
  | none => .error (.streamNotFound streamId)
  | some entry =>
    if entry.state = .deleted then
      .error (.invalidTransition streamId entry.state.toText StreamState.error.toText)
    else
      let updated :=
        { entry with
          metadata := { entry.metadata with endedAt := some now }
          state := .error
          errorMessage := some errorMessage }
      .ok (updated, m.setEntry streamId updated entry.state)

/-- Modify the entry of a stream, if there is one, through a mutable reference. -/
def modifyEntry (m : StreamStateManager) (streamId : StreamId) (f : StreamEntry → StreamEntry) :
    StreamStateManager :=
  { m with streams := m.streams.adjust streamId f }

/-- Set media info for a stream. -/
def setMediaInfo (m : StreamStateManager) (streamId : StreamId) (mediaInfo : MediaInfo) :
    StreamStateManager :=
  m.modifyEntry streamId fun entry =>
    { entry with metadata := { entry.metadata with mediaInfo := some mediaInfo } }

/-- Set the expected number of renditions for a stream. -/
def setExpectedRenditions (m : StreamStateManager) (streamId : StreamId) (count : ℕ) :
    StreamStateManager :=
  m.modifyEntry streamId fun entry => { entry with expectedRenditions := some count }

/-- The status of a rendition, created on first use. -/
def renditionStatus (renditions : Map Text RenditionStatus) (rendition : Text) : RenditionStatus :=
  (renditions.lookup rendition).getD
    { rendition := rendition, segmentsProduced := 0, lastSegmentTime := none, status := .active }

/-- Update rendition progress for a stream. -/
def updateRenditionProgress (m : StreamStateManager) (streamId : StreamId) (rendition : Text)
    (sequence : ℕ) (now : DateTime) : StreamStateManager :=
  m.modifyEntry streamId fun entry =>
    let status := renditionStatus entry.renditions rendition
    { entry with
      renditions := entry.renditions.insert rendition
        { status with segmentsProduced := sequence, lastSegmentTime := some now } }

/-- The number of renditions marked complete. -/
def completeCount (entry : StreamEntry) : ℕ :=
  entry.renditions.values.countP fun r => r.status = .complete

/-- Set the status of a rendition that has one. -/
def setComplete (entry : StreamEntry) (rendition : Text) : StreamEntry :=
  { entry with
    renditions := entry.renditions.adjust rendition fun status =>
      { status with status := .complete } }

/-- The first critical section of `mark_rendition_complete`: mark the rendition and
decide whether the stream is done. -/
def noteRenditionComplete (entry : StreamEntry) (rendition : Text) : StreamEntry × Bool :=
  let entry := setComplete entry rendition
  match entry.expectedRenditions with
  | some expected =>
    (entry, decide (entry.state = .processing ∧ completeCount entry ≥ expected))
  | none => (entry, false)

/-- Mark a rendition as complete. If all expected renditions are complete,
auto-transition from PROCESSING to READY. -/
def markRenditionComplete (m : StreamStateManager) (streamId : StreamId) (rendition : Text)
    (now : DateTime) : Option StreamEntry × StreamStateManager :=
  match m.streams.lookup streamId with
  | none => (none, m)
  | some entry =>
    let (entry, shouldTransition) := noteRenditionComplete entry rendition
    let m := { m with streams := m.streams.insert streamId entry }
    if shouldTransition then
      match m.transition streamId .ready now with
      | .ok (updated, m) => (some updated, m)
      | .error _ => (none, m)
    else (m.streams.lookup streamId, m)

/-- Remove a stream record entirely. -/
def removeStream (m : StreamStateManager) (streamId : StreamId) : Bool × StreamStateManager :=
  match m.streams.lookup streamId with
  | none => (false, m)
  | some entry =>
    (true,
      { streams := m.streams.erase streamId
        stateCounts := fun s => m.stateCounts s - if s = entry.state then 1 else 0 })

end StreamStateManager

end StreamInfa.Control
