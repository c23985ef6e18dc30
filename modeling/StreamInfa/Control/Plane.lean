import StreamInfa.Control.Shared

/-!
The control plane: the event handler and the other tasks that use the manager.

The event handler takes one event at a time from the channel. StreamStarted and
RenditionComplete access the map twice, and the other tasks may act in between
(`Handler`). The other tasks are the HTTP handlers, the RTMP connections, the
transcode pipelines and the cleanup task; each of their map accesses is one step.

No task but the event handler requests READY. `planeStep_cases` says what a step can do
to the entry of a stream, `planeStep_marking` when the handler is about to move a stream
to READY.
-/

namespace StreamInfa.Control

open StreamStateManager

/-- Where the event handler stands. -/
inductive Handler where
  | idle
  /-- StreamStarted: the transition is done, the media info is to be set. -/
  | informing (streamId : StreamId) (mediaInfo : MediaInfo)
  /-- RenditionComplete: the stream is to be moved to READY. -/
  | marking (streamId : StreamId)
deriving DecidableEq, Repr

/-- The manager, the event handler, and the stream ids in use so far. -/
structure ControlPlane where
  manager : StreamStateManager
  handler : Handler
  used : List StreamId

inductive PlaneAction where
  /-- The event handler takes an event. -/
  | handle (event : PipelineEvent) (now : DateTime)
  /-- The event handler makes its second access. -/
  | resume (now : DateTime)
  /-- `create_stream` with an id from `StreamId::new`: POST, upload, unbound stream key. -/
  | create (streamId : StreamId) (ingestMode : IngestMode) (now : DateTime)
  /-- `create_stream` by a connection that found no record for the stream of its key. -/
  | attach (streamId : StreamId) (now : DateTime)
  /-- The transcode pipeline's `set_expected_renditions`. -/
  | expect (streamId : StreamId) (count : ℕ)
  /-- The upload's transition to PROCESSING and its `set_media_info`. -/
  | process (streamId : StreamId) (now : DateTime)
  | inform (streamId : StreamId) (mediaInfo : MediaInfo)
  /-- The transition to DELETED of the delete handler and of the cleanup task. -/
  | delete (streamId : StreamId) (now : DateTime)
  /-- The removal of a tombstone. -/
  | remove (streamId : StreamId)
deriving DecidableEq, Repr

/-- The first map access of the event handler for an event. -/
def handleSection (m : StreamStateManager) (event : PipelineEvent) (now : DateTime) :
    StreamStateManager × Handler :=
  match event with
  | .streamStarted streamId mediaInfo =>
    (orUnchanged m (m.transition streamId .live now), .informing streamId mediaInfo)
  | .renditionComplete streamId rendition =>
    match m.streams.lookup streamId with
    | none => (m, .idle)
    | some entry =>
      let (entry, shouldTransition) := noteRenditionComplete entry rendition
      ({ m with streams := m.streams.insert streamId entry },
        if shouldTransition then .marking streamId else .idle)
  | event => (handleEvent m event now, .idle)

/-- The second map access. -/
def resumeSection (m : StreamStateManager) (now : DateTime) : Handler → StreamStateManager
  | .idle => m
  | .informing streamId mediaInfo => m.setMediaInfo streamId mediaInfo
  | .marking streamId => orUnchanged m (m.transition streamId .ready now)

/-- The handler's sections without interruption are `handleEvent`. -/
theorem resumeSection_handleSection (m : StreamStateManager) (event : PipelineEvent)
    (now : DateTime) :
    resumeSection (handleSection m event now).1 now (handleSection m event now).2 =
      handleEvent m event now := by
  cases event with
  | streamStarted streamId mediaInfo => rfl
  | segmentProduced streamId rendition sequence => rfl
  | streamEnded streamId => rfl
  | streamError streamId error => rfl
  | vodProgress streamId percent => rfl
  | renditionComplete streamId rendition =>
    cases h : m.streams.lookup streamId with
    | none => simp only [handleSection, h, resumeSection, handleEvent, markRenditionComplete]
    | some entry =>
      rw [handleEvent, markRenditionComplete_eq rendition h]
      simp only [handleSection, h]
      cases (noteRenditionComplete entry rendition).2 <;> rfl

def ControlPlane.start : ControlPlane := ⟨.new, .idle, []⟩

def planeStep (c : ControlPlane) : PlaneAction → Option ControlPlane
  | .handle event now =>
    if c.handler = .idle then
      some { c with
        manager := (handleSection c.manager event now).1
        handler := (handleSection c.manager event now).2 }
    else none
  | .resume now =>
    some { c with manager := resumeSection c.manager now c.handler, handler := .idle }
  | .create streamId ingestMode now =>
    if streamId ∉ c.used then
      some { c with
        manager := (c.manager.createStream streamId ingestMode now).2
        used := streamId :: c.used }
    else none
  | .attach streamId now =>
    some { c with
      manager := (c.manager.createStream streamId .live now).2
      used := streamId :: c.used }
  | .expect streamId count =>
    some { c with manager := c.manager.setExpectedRenditions streamId count }
  | .process streamId now =>
    some { c with manager := orUnchanged c.manager (c.manager.transition streamId .processing now) }
  | .inform streamId mediaInfo =>
    some { c with manager := c.manager.setMediaInfo streamId mediaInfo }
  | .delete streamId now =>
    some { c with manager := orUnchanged c.manager (c.manager.transition streamId .deleted now) }
  | .remove streamId => some { c with manager := (c.manager.removeStream streamId).2 }

/-! ### What a step does to a stream -/

/-- The action puts a new record for the stream. -/
def PlaneAction.creates (streamId : StreamId) : PlaneAction → Bool
  | .create id _ _ | .attach id _ => decide (id = streamId)
  | _ => false

/-- What an action that does not create the stream can do to its entry. -/
inductive EntryChange (c : ControlPlane) (a : PlaneAction) (streamId : StreamId) :
    Option StreamEntry → Option StreamEntry → Prop where
  | same (e : Option StreamEntry) : EntryChange c a streamId e e
  | started (entry : StreamEntry) (now : DateTime) (hidle : c.handler = .idle) :
      EntryChange c a streamId (some entry) (some (entry.moveTo .live now))
  | processed (entry : StreamEntry) (now : DateTime) :
      EntryChange c a streamId (some entry) (some (entry.moveTo .processing now))
  | deleted (entry : StreamEntry) (now : DateTime) :
      EntryChange c a streamId (some entry) (some (entry.moveTo .deleted now))
  | failed (entry : StreamEntry) (errorMessage : Text) (now : DateTime) :
      EntryChange c a streamId (some entry) (some (entry.failed errorMessage now))
  | readied (entry : StreamEntry) (now : DateTime) (ha : a = .resume now)
      (hmarking : c.handler = .marking streamId) :
      EntryChange c a streamId (some entry) (some (entry.moveTo .ready now))
  | produced (entry : StreamEntry) (rendition : Text) (sequence : ℕ) (now : DateTime)
      (ha : a = .handle (.segmentProduced streamId rendition sequence) now) :
      EntryChange c a streamId (some entry)
        (some { entry with
          renditions := entry.renditions.insert rendition
            { renditionStatus entry.renditions rendition with
              segmentsProduced := sequence, lastSegmentTime := some now } })
  | completed (entry : StreamEntry) (rendition : Text) (now : DateTime)
      (ha : a = .handle (.renditionComplete streamId rendition) now) :
      EntryChange c a streamId (some entry) (some (setComplete entry rendition))
  | expected (entry : StreamEntry) (count : ℕ) (ha : a = .expect streamId count) :
      EntryChange c a streamId (some entry) (some { entry with expectedRenditions := some count })
  | informed (entry : StreamEntry) (mediaInfo : MediaInfo) :
      EntryChange c a streamId (some entry)
        (some { entry with metadata := { entry.metadata with mediaInfo := some mediaInfo } })
  | removed (e : Option StreamEntry) : EntryChange c a streamId e none

section Change

variable {c c' : ControlPlane} {a : PlaneAction} {streamId : StreamId}

theorem entryChange_adjust {f : StreamEntry → StreamEntry} (id : StreamId)
    (hf : id = streamId → ∀ entry, EntryChange c a streamId (some entry) (some (f entry))) :
    EntryChange c a streamId (c.manager.streams.lookup streamId)
      ((c.manager.modifyEntry id f).streams.lookup streamId) := by
  by_cases hid : id = streamId
  · subst hid
    rw [modifyEntry, Map.lookup_adjust_self]
    cases c.manager.streams.lookup id with
    | none => exact .same none
    | some entry => exact hf rfl entry
  · rw [modifyEntry, Map.lookup_adjust_ne _ _ (Ne.symm hid)]
    exact .same _

theorem entryChange_transition {newState : StreamState} {now : DateTime} (id : StreamId)
    (hf : id = streamId → ∀ entry,
      EntryChange c a streamId (some entry) (some (entry.moveTo newState now))) :
    EntryChange c a streamId (c.manager.streams.lookup streamId)
      ((orUnchanged c.manager (c.manager.transition id newState now)).streams.lookup streamId) := by
  by_cases hid : id = streamId
  · subst hid
    rw [lookup_transition_self]
    cases c.manager.streams.lookup id with
    | none => exact .same none
    | some entry => exact hf rfl entry
  · rw [lookup_transition_ne _ (Ne.symm hid)]
    exact .same _

theorem streams_handleSection_complete (m : StreamStateManager) (id : StreamId) (rendition : Text)
    (now : DateTime) :
    (handleSection m (.renditionComplete id rendition) now).1.streams =
      (m.modifyEntry id fun entry => setComplete entry rendition).streams := by
  simp only [handleSection, modifyEntry, Map.adjust]
  cases m.streams.lookup id with
  | none => rfl
  | some entry => simp only [noteRenditionComplete_fst]

theorem entryChange_handle {event : PipelineEvent} {now : DateTime} (hidle : c.handler = .idle) :
    EntryChange c (.handle event now) streamId (c.manager.streams.lookup streamId)
      ((handleSection c.manager event now).1.streams.lookup streamId) := by
  cases event with
  | streamStarted id mediaInfo =>
    exact entryChange_transition id fun _ entry => .started entry now hidle
  | segmentProduced id rendition sequence =>
    refine entryChange_adjust id fun hid entry => ?_
    subst hid
    exact .produced entry rendition sequence now rfl
  | streamEnded id => exact entryChange_transition id fun _ entry => .processed entry now
  | streamError id error =>
    by_cases hid : id = streamId
    · subst hid
      rw [handleSection, handleEvent, lookup_transitionToError_self]
      · cases c.manager.streams.lookup id with
        | none => exact .same none
        | some entry =>
          simp only [Option.map_some, ControlStep.onEntry]
          split
          · exact .same _
          · exact .failed entry error now
      all_goals simp
    · rw [handleSection, handleEvent, lookup_transitionToError_ne _ (Ne.symm hid)]
      · exact .same _
      all_goals simp
  | vodProgress id percent => exact .same _
  | renditionComplete id rendition =>
    rw [streams_handleSection_complete]
    refine entryChange_adjust id fun hid entry => ?_
    subst hid
    exact .completed entry rendition now rfl

theorem entryChange_create {id : StreamId} (ingestMode : IngestMode) (now : DateTime)
    (hid : id ≠ streamId) :
    EntryChange c a streamId (c.manager.streams.lookup streamId)
      ((c.manager.createStream id ingestMode now).2.streams.lookup streamId) := by
  have hlookup : (c.manager.createStream id ingestMode now).2.streams.lookup streamId =
      c.manager.streams.lookup streamId := AList.lookup_insert_ne (Ne.symm hid)
  rw [hlookup]
  exact .same _

theorem entryChange_resume {now : DateTime} :
    EntryChange c (.resume now) streamId (c.manager.streams.lookup streamId)
      ((resumeSection c.manager now c.handler).streams.lookup streamId) := by
  cases hhandler : c.handler with
  | idle => exact .same _
  | informing id mediaInfo => exact entryChange_adjust id fun _ entry => .informed entry mediaInfo
  | marking id =>
    refine entryChange_transition id fun hid entry => ?_
    subst hid
    exact .readied entry now rfl hhandler

theorem entryChange_remove (id : StreamId) :
    EntryChange c a streamId (c.manager.streams.lookup streamId)
      ((c.manager.removeStream id).2.streams.lookup streamId) := by
  unfold removeStream
  cases c.manager.streams.lookup id with
  | none => exact .same _
  | some entry =>
    by_cases hid : id = streamId
    · subst hid
      exact (AList.lookup_erase id c.manager.streams).symm ▸ .removed _
    · exact (AList.lookup_erase_ne (Ne.symm hid)).symm ▸ .same _

/-- A step creates the stream, in live mode or under a new id, or changes its entry. -/
theorem planeStep_cases (h : planeStep c a = some c') (streamId : StreamId) :
    (a.creates streamId = true ∧ ∃ ingestMode now, (ingestMode = .live ∨ streamId ∉ c.used) ∧
      c'.manager = (c.manager.createStream streamId ingestMode now).2) ∨
    (a.creates streamId = false ∧ EntryChange c a streamId (c.manager.streams.lookup streamId)
      (c'.manager.streams.lookup streamId)) := by
  cases a with
  | handle event now =>
    simp only [planeStep] at h
    split at h
    · rename_i hidle
      obtain rfl := Option.some.inj h
      exact Or.inr ⟨rfl, entryChange_handle hidle⟩
    · cases h
  | resume now =>
    obtain rfl := Option.some.inj h
    exact Or.inr ⟨rfl, entryChange_resume⟩
  | create id ingestMode now =>
    simp only [planeStep] at h
    split at h
    · rename_i hfresh
      obtain rfl := Option.some.inj h
      by_cases hid : id = streamId
      · subst hid
        exact Or.inl ⟨decide_eq_true rfl, ingestMode, now, Or.inr hfresh, rfl⟩
      · exact Or.inr ⟨decide_eq_false hid, entryChange_create ingestMode now hid⟩
    · cases h
  | attach id now =>
    obtain rfl := Option.some.inj h
    by_cases hid : id = streamId
    · subst hid
      exact Or.inl ⟨decide_eq_true rfl, .live, now, Or.inl rfl, rfl⟩
    · exact Or.inr ⟨decide_eq_false hid, entryChange_create .live now hid⟩
  | expect id count =>
    obtain rfl := Option.some.inj h
    refine Or.inr ⟨rfl, entryChange_adjust id fun hid entry => ?_⟩
    subst hid
    exact .expected entry count rfl
  | process id now =>
    obtain rfl := Option.some.inj h
    exact Or.inr ⟨rfl, entryChange_transition id fun _ entry => .processed entry now⟩
  | inform id mediaInfo =>
    obtain rfl := Option.some.inj h
    exact Or.inr ⟨rfl, entryChange_adjust id fun _ entry => .informed entry mediaInfo⟩
  | delete id now =>
    obtain rfl := Option.some.inj h
    exact Or.inr ⟨rfl, entryChange_transition id fun _ entry => .deleted entry now⟩
  | remove id =>
    obtain rfl := Option.some.inj h
    exact Or.inr ⟨rfl, entryChange_remove id⟩

/-- The handler is left marking a stream by a RenditionComplete that finds it done, and
stays so until it resumes. -/
theorem planeStep_marking (h : planeStep c a = some c')
    (hmarking : c'.handler = .marking streamId) :
    (c.handler = .marking streamId ∧ ∀ now, a ≠ .resume now) ∨
    ∃ rendition now entry noted, a = .handle (.renditionComplete streamId rendition) now ∧
      c.manager.streams.lookup streamId = some entry ∧
      noteRenditionComplete entry rendition = (noted, true) ∧
      c'.manager.streams = c.manager.streams.insert streamId noted := by
  cases a with
  | handle event now =>
    simp only [planeStep] at h
    split at h
    · obtain rfl := Option.some.inj h
      dsimp only at hmarking
      cases event with
      | renditionComplete id rendition =>
        right
        simp only [handleSection] at hmarking ⊢
        cases hentry : c.manager.streams.lookup id with
        | none => simp [hentry] at hmarking
        | some entry =>
          simp only [hentry] at hmarking ⊢
          cases hnoted : (noteRenditionComplete entry rendition).2 with
          | false => simp [hnoted] at hmarking
          | true =>
            simp only [hnoted, if_true, Handler.marking.injEq] at hmarking
            subst hmarking
            exact ⟨rendition, now, entry, _, rfl, hentry, Prod.ext rfl hnoted, rfl⟩
      | streamStarted | segmentProduced | streamEnded | streamError | vodProgress =>
        simp [handleSection] at hmarking
    · cases h
  | resume now =>
    obtain rfl := Option.some.inj h
    cases hmarking
  | create id ingestMode now =>
    simp only [planeStep] at h
    split at h
    · obtain rfl := Option.some.inj h
      exact Or.inl ⟨hmarking, by simp⟩
    · cases h
  | attach | expect | process | inform | delete | remove =>
    obtain rfl := Option.some.inj h
    exact Or.inl ⟨hmarking, by simp⟩

end Change

end StreamInfa.Control
