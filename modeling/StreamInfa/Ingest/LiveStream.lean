import StreamInfa.Ingest.Attach
import StreamInfa.Ingest.Connection
import StreamInfa.Package.Runner
import StreamInfa.Transcode.Pipeline

/-!
The tasks of a live stream, from StreamStarted to the end.

`RtmpConnection::handle` runs the demux loop and spawns the transcode pipeline, the
packager and the storage writer. Frames and segments pass through channels; the tasks
report to the event handler through the event channel. The channels are unbounded
here, which only adds interleavings; the pipeline's own cancellation token is never
cancelled.

The error of a transcode pipeline that fails is only logged. The demux loop finds the
frame channel closed and ends as after any other end of the stream, with StreamEnded,
so the stream stays in PROCESSING. It ends in ERROR exactly if the demux loop itself
gives up, after ten errors in a row (`TooManyErrors`).

`LiveOutcome` lists what a step of the tasks can do, and `liveStep_outcome` says that these
are all.
-/

namespace StreamInfa.Ingest

open Control Transcode Package

/-! ### The tasks -/

/-- What a live stream is started with. -/
structure LiveConfig where
  streamId : StreamId
  mediaInfo : MediaInfo
  demuxer : FlvDemuxer
  sourceFps : ℚ
  ladder : List TranscodeProfile
  keyframeIntervalSecs : ℕ
  packaging : PackagingConfig

inductive TranscodeTask where
  | starting
  | decoding (accumulators : List SegmentAccumulator) (consecutiveDecodeErrors : ℕ)
  | returned (result : Except TranscodeError Unit)

/-- The receiver of the frame channel is gone. -/
def TranscodeTask.hasReturned : TranscodeTask → Bool
  | .returned _ => true
  | .starting | .decoding .. => false

/-- The tasks with their channels; `none` is a task that has ended. -/
structure LiveTasks where
  manager : StreamStateManager
  events : List PipelineEvent
  demux : Option DemuxLoop
  frames : List DemuxedFrame
  transcode : TranscodeTask
  segments : List EncodedSegment
  packager : Option Packager
  writing : Bool

/-- How a turn of the demux loop begins: shutdown, inactivity timeout, the connection
closed or reset, another read error, or a message. -/
inductive ReadResult where
  | cancelled
  | inactive
  | closed
  | failed
  | message (msg : RtmpMessage)
deriving DecidableEq, Repr

inductive LiveAction where
  | read (result : ReadResult)
  /-- The transcode pipeline selects its renditions. -/
  | launch
  /-- It takes a frame. -/
  | decode
  /-- It finds the frame channel closed and empty. -/
  | flush
  | package (now : DateTime)
  /-- The packager finds the segment channel closed and empty. -/
  | packagerEnd
  | writerEnd
  | handle (now : DateTime)
deriving DecidableEq, Repr

/-- One turn of the demux loop. The frame to send, if any, is left in the loop's state;
`closed`: the frame channel is closed. -/
def demuxTurn (closed : Bool) (loop : DemuxLoop) :
    ReadResult → DemuxLoop × Option (Except IngestError Unit)
  | .cancelled | .inactive | .closed => ({ loop with frames := [] }, some (.ok ()))
  | .failed =>
    let consecutiveErrors := loop.consecutiveErrors + 1
    ({ loop with consecutiveErrors := consecutiveErrors, frames := [] },
      if maxConsecutiveErrors ≤ consecutiveErrors then
        some (.error (.validationFailed ("too many consecutive read errors (".toList ++
          decimal consecutiveErrors ++ ")".toList)))
      else none)
  | .message msg =>
    let (loop, result) := demuxHandler { loop with frames := [] } msg
    if closed ∧ loop.frames ≠ [] then (loop, some (.ok ())) else (loop, result)

/-- The event the connection sends at the end of its demux loop. -/
def endEvent (streamId : StreamId) : Except IngestError Unit → PipelineEvent
  | .ok () => .streamEnded streamId
  | .error e => .streamError streamId e.toText

def maxConsecutiveDecodeErrors : ℕ := 10

section Steps

variable (cfg : LiveConfig)

def LiveConfig.renditions : List SelectedRendition :=
  selectRenditions cfg.mediaInfo.videoWidth cfg.mediaInfo.videoHeight cfg.ladder

/-- One accumulator per rendition, with a target of three keyframe intervals. -/
def LiveConfig.accumulators : List SegmentAccumulator :=
  cfg.renditions.map fun r =>
    SegmentAccumulator.new cfg.streamId r.id (cfg.keyframeIntervalSecs * 3) r.width r.height
      r.videoBitrateKbps r.audioBitrateKbps r.profile r.level cfg.sourceFps

def LiveConfig.packagerEnv : PackagerEnv := ⟨cfg.streamId, cfg.packaging, false⟩

def LiveTasks.start (m : StreamStateManager) : LiveTasks where
  manager := m
  events := [.streamStarted cfg.streamId cfg.mediaInfo]
  demux := some ⟨cfg.demuxer, 0, []⟩
  frames := []
  transcode := .starting
  segments := []
  packager := some (Packager.start none)
  writing := true

/-- The demux loop after a turn, with the end of the connection. -/
def LiveTasks.read (s : LiveTasks) (loop : DemuxLoop) (result : ReadResult) : LiveTasks :=
  match demuxTurn s.transcode.hasReturned loop result with
  | (loop, none) => { s with demux := some loop, frames := s.frames ++ loop.frames }
  | (_, some result) =>
    { s with demux := none, events := s.events ++ [endEvent cfg.streamId result] }

/-- A frame in the transcode pipeline. -/
def LiveTasks.decode (s : LiveTasks) (accs : List SegmentAccumulator) (errors : ℕ)
    (frame : DemuxedFrame) (frames : List DemuxedFrame) : LiveTasks :=
  let (accs, segments, result) := processFrame s.packager.isNone accs frame
  let s := { s with frames := frames, segments := s.segments ++ segments }
  match result with
  | .ok () => { s with transcode := .decoding accs 0 }
  | .error _ =>
    let errors := errors + 1
    if maxConsecutiveDecodeErrors ≤ errors then
      { s with transcode := .returned (.error (.consecutiveDecodeErrors cfg.streamId errors)) }
    else { s with transcode := .decoding accs errors }

def liveStep (s : LiveTasks) : LiveAction → Option LiveTasks
  | .read result => s.demux.map fun loop => s.read cfg loop result
  | .launch =>
    match s.transcode with
    | .starting =>
      if cfg.renditions = [] then
        some { s with
          transcode := .returned (.error
            (.ffmpegInit "no renditions selected for source resolution".toList)) }
      else
        some { s with
          manager := s.manager.setExpectedRenditions cfg.streamId cfg.renditions.length
          transcode := .decoding cfg.accumulators 0 }
    | _ => none
  | .decode =>
    match s.transcode, s.frames with
    | .decoding accs errors, frame :: frames => some (s.decode cfg accs errors frame frames)
    | _, _ => none
  | .flush =>
    match s.transcode, s.frames, s.demux with
    | .decoding accs _, [], none =>
      some { s with
        transcode := .returned (.ok ())
        segments := s.segments ++
          if s.packager.isNone then [] else accs.filterMap fun acc => acc.flush }
    | _, _, _ => none
  | .package now =>
    match s.packager, s.segments with
    | some p, segment :: segments =>
      match handleSegment cfg.packagerEnv { p with events := [] } segment now with
      | .ok p =>
        some { s with packager := some p, segments := segments, events := s.events ++ p.events }
      | .error p =>
        some { s with packager := none, segments := segments, events := s.events ++ p.events }
    | _, _ => none
  | .packagerEnd =>
    match s.packager, s.segments, s.transcode with
    | some _, [], .returned _ => some { s with packager := none }
    | _, _, _ => none
  | .writerEnd => if s.packager.isNone ∧ s.writing then some { s with writing := false } else none
  | .handle now =>
    match s.events with
    | [] => none
    | event :: events =>
      some { s with manager := handleEvent s.manager event now, events := events }

end Steps

/-- What a step of the tasks does. -/
inductive LiveOutcome (cfg : LiveConfig) (s : LiveTasks) : LiveAction → LiveTasks → Prop
  | read {loop : DemuxLoop} (hdemux : s.demux = some loop) (result : ReadResult) :
      LiveOutcome cfg s (.read result) (s.read cfg loop result)
  | refused (hstarting : s.transcode = .starting) (hnone : cfg.renditions = []) :
      LiveOutcome cfg s .launch { s with
        transcode := .returned (.error
          (.ffmpegInit "no renditions selected for source resolution".toList)) }
  | launched (hstarting : s.transcode = .starting) (hsome : cfg.renditions ≠ []) :
      LiveOutcome cfg s .launch { s with
        manager := s.manager.setExpectedRenditions cfg.streamId cfg.renditions.length
        transcode := .decoding cfg.accumulators 0 }
  | decoded {accs : List SegmentAccumulator} {errors : ℕ} {frame : DemuxedFrame}
      {frames : List DemuxedFrame} (htranscode : s.transcode = .decoding accs errors)
      (hframes : s.frames = frame :: frames) :
      LiveOutcome cfg s .decode (s.decode cfg accs errors frame frames)
  | flushed {accs : List SegmentAccumulator} {errors : ℕ}
      (htranscode : s.transcode = .decoding accs errors) (hframes : s.frames = [])
      (hdemux : s.demux = none) :
      LiveOutcome cfg s .flush { s with
        transcode := .returned (.ok ())
        segments := s.segments ++
          if s.packager.isNone then [] else accs.filterMap fun acc => acc.flush }
  | packaged {p p' : Packager} {segment : EncodedSegment} {segments : List EncodedSegment}
      {now : DateTime} (hp : s.packager = some p) (hsegments : s.segments = segment :: segments)
      (hturn : handleSegment cfg.packagerEnv { p with events := [] } segment now = .ok p') :
      LiveOutcome cfg s (.package now) { s with
        packager := some p', segments := segments, events := s.events ++ p'.events }
  | broken {p p' : Packager} {segment : EncodedSegment} {segments : List EncodedSegment}
      {now : DateTime} (hp : s.packager = some p) (hsegments : s.segments = segment :: segments)
      (hturn : handleSegment cfg.packagerEnv { p with events := [] } segment now = .error p') :
      LiveOutcome cfg s (.package now) { s with
        packager := none, segments := segments, events := s.events ++ p'.events }
  | packagerEnded {p : Packager} {result : Except TranscodeError Unit}
      (hp : s.packager = some p) (hsegments : s.segments = [])
      (htranscode : s.transcode = .returned result) :
      LiveOutcome cfg s .packagerEnd { s with packager := none }
  | writerEnded (hpackager : s.packager.isNone) (hwriting : s.writing) :
      LiveOutcome cfg s .writerEnd { s with writing := false }
  | handled {event : PipelineEvent} {events : List PipelineEvent} (now : DateTime)
      (hevents : s.events = event :: events) :
      LiveOutcome cfg s (.handle now)
        { s with manager := handleEvent s.manager event now, events := events }

theorem liveStep_outcome {cfg : LiveConfig} {s s' : LiveTasks} {a : LiveAction}
    (hstep : liveStep cfg s a = some s') : LiveOutcome cfg s a s' := by
  cases a with
  | read result =>
    obtain ⟨loop, hdemux, rfl⟩ := Option.map_eq_some_iff.mp hstep
    exact .read hdemux result
  | launch =>
    simp only [liveStep] at hstep
    split at hstep
    · rename_i hstarting
      split at hstep
      · rename_i hnone
        obtain rfl := Option.some.inj hstep
        exact .refused hstarting hnone
      · rename_i hsome
        obtain rfl := Option.some.inj hstep
        exact .launched hstarting hsome
    · cases hstep
  | decode =>
    simp only [liveStep] at hstep
    split at hstep
    · rename_i htranscode hframes
      obtain rfl := Option.some.inj hstep
      exact .decoded htranscode hframes
    · cases hstep
  | flush =>
    simp only [liveStep] at hstep
    split at hstep
    · rename_i htranscode hframes hdemux
      obtain rfl := Option.some.inj hstep
      exact .flushed htranscode hframes hdemux
    · cases hstep
  | package now =>
    simp only [liveStep] at hstep
    split at hstep
    · rename_i hp hsegments
      split at hstep
      · rename_i hturn
        obtain rfl := Option.some.inj hstep
        exact .packaged hp hsegments hturn
      · rename_i hturn
        obtain rfl := Option.some.inj hstep
        exact .broken hp hsegments hturn
    · cases hstep
  | packagerEnd =>
    simp only [liveStep] at hstep
    split at hstep
    · rename_i hp hsegments htranscode
      obtain rfl := Option.some.inj hstep
      exact .packagerEnded hp hsegments htranscode
    · cases hstep
  | writerEnd =>
    simp only [liveStep] at hstep
    split at hstep
    · rename_i hend
      obtain rfl := Option.some.inj hstep
      exact .writerEnded hend.1 hend.2
    · cases hstep
  | handle now =>
    simp only [liveStep] at hstep
    split at hstep
    · cases hstep
    · rename_i hevents
      obtain rfl := Option.some.inj hstep
      exact .handled now hevents

/-- All tasks have ended and all events are handled. -/
structure LiveTasks.Finished (s : LiveTasks) : Prop where
  demux : s.demux = none
  transcode : s.transcode.hasReturned = true
  packager : s.packager = none
  writing : s.writing = false
  events : s.events = []

/-- A read fails when the errors counted in a row have come one short of the limit. -/
def TooManyErrors (cfg : LiveConfig) (m : StreamStateManager) (p : List LiveAction) : Prop :=
  ∃ before after s loop, p = before ++ .read .failed :: after ∧
    run (liveStep cfg) (.start cfg m) before = some s ∧ s.demux = some loop ∧
    maxConsecutiveErrors ≤ loop.consecutiveErrors + 1

/-! ### The record of the stream -/

/-- State and mode of the record of a stream. -/
def summary (m : StreamStateManager) (streamId : StreamId) : Option (StreamState × IngestMode) :=
  (m.streams.lookup streamId).map fun entry => (entry.state, entry.metadata.ingestMode)

section Summary

variable {m : StreamStateManager} {streamId : StreamId}

theorem summary_eq_some {state : StreamState} {mode : IngestMode}
    (h : summary m streamId = some (state, mode)) :
    ∃ entry, m.streams.lookup streamId = some entry ∧ entry.state = state ∧
      entry.metadata.ingestMode = mode := by
  obtain ⟨entry, hentry, heq⟩ := Option.map_eq_some_iff.mp h
  obtain ⟨hstate, hmode⟩ := Prod.mk.inj heq
  exact ⟨entry, hentry, hstate, hmode⟩

theorem summary_handleEvent (event : PipelineEvent) (now : DateTime) :
    summary (handleEvent m event now) event.streamId =
      (m.streams.lookup event.streamId).map fun entry =>
        ((ControlStep.onEntry now entry (.event event)).state,
          (ControlStep.onEntry now entry (.event event)).metadata.ingestMode) := by
  have hlookup := lookup_controlStep_self m (.event event) now
  simp only [ControlStep.streamId, controlStep] at hlookup
  rw [summary, hlookup, Option.map_map]
  rfl

theorem summary_streamStarted (mediaInfo : MediaInfo) (now : DateTime)
    (h : summary m streamId = some (.pending, .live)) :
    summary (handleEvent m (.streamStarted streamId mediaInfo) now) streamId =
      some (.live, .live) := by
  obtain ⟨entry, hentry, hstate, hmode⟩ := summary_eq_some h
  refine (summary_handleEvent (.streamStarted streamId mediaInfo) now).trans ?_
  simp only [PipelineEvent.streamId, hentry, Option.map_some, ControlStep.onEntry,
    StreamEntry.moveTo, hstate, hmode]
  simp [StreamStateManager.isValidTransition, StreamStateManager.stampTransition, hmode]

theorem summary_streamEnded (now : DateTime) (h : summary m streamId = some (.live, .live)) :
    summary (handleEvent m (.streamEnded streamId) now) streamId = some (.processing, .live) := by
  obtain ⟨entry, hentry, hstate, hmode⟩ := summary_eq_some h
  refine (summary_handleEvent (.streamEnded streamId) now).trans ?_
  simp only [PipelineEvent.streamId, hentry, Option.map_some, ControlStep.onEntry,
    StreamEntry.moveTo, hstate, hmode]
  simp [StreamStateManager.isValidTransition, StreamStateManager.stampTransition, hmode]

theorem summary_streamError (error : Text) (now : DateTime)
    (h : summary m streamId = some (.live, .live)) :
    summary (handleEvent m (.streamError streamId error) now) streamId = some (.error, .live) := by
  obtain ⟨entry, hentry, hstate, hmode⟩ := summary_eq_some h
  refine (summary_handleEvent (.streamError streamId error) now).trans ?_
  simp [PipelineEvent.streamId, hentry, ControlStep.onEntry, hstate, hmode]

/-- Events that neither start, end nor complete anything leave the summary alone. -/
theorem summary_handleEvent_quiet {event : PipelineEvent} (now : DateTime)
    (hlife : (startsOrEnds event && decide (event.streamId = streamId)) = false)
    (hcomplete : ∀ r, event ≠ .renditionComplete streamId r) :
    summary (handleEvent m event now) streamId = summary m streamId := by
  by_cases hid : event.streamId = streamId
  · subst hid
    rw [summary_handleEvent]
    cases event with
    | streamStarted | streamEnded | streamError => simp [startsOrEnds] at hlife
    | renditionComplete id r => exact absurd rfl (hcomplete r)
    | segmentProduced | vodProgress => rfl
  · have hlookup := @lookup_controlStep_ne m (.event event) _ now (Ne.symm hid)
    simp only [controlStep] at hlookup
    rw [summary, hlookup]
    rfl

theorem summary_setExpectedRenditions (id : StreamId) (count : ℕ) :
    summary (m.setExpectedRenditions id count) streamId = summary m streamId := by
  rw [summary, StreamStateManager.setExpectedRenditions, StreamStateManager.modifyEntry]
  by_cases hid : id = streamId
  · subst hid
    rw [Map.lookup_adjust_self, Option.map_map]
    rfl
  · rw [Map.lookup_adjust_ne _ _ (Ne.symm hid)]
    rfl

end Summary

/-! ### The end of the demux loop -/

theorem demuxHandler_ne_error (loop : DemuxLoop) (msg : RtmpMessage) (e : IngestError) :
    (demuxHandler loop msg).2 ≠ some (.error e) := by
  -- The count was reset when the message was read, so one error is not too many.
  simp only [demuxHandler]
  split
  all_goals first | simp; done | (split <;> simp [maxConsecutiveErrors])

/-- A turn ends the loop with an error exactly if a read fails at the limit. -/
theorem demuxTurn_eq_error {closed : Bool} {loop next : DemuxLoop} {r : ReadResult}
    {e : IngestError} (h : demuxTurn closed loop r = (next, some (.error e))) :
    r = .failed ∧ maxConsecutiveErrors ≤ loop.consecutiveErrors + 1 := by
  cases r with
  | cancelled | inactive | closed => cases h
  | failed =>
    simp only [demuxTurn] at h
    split at h
    · rename_i hlimit
      exact ⟨rfl, hlimit⟩
    · cases h
  | message msg =>
    simp only [demuxTurn] at h
    split at h
    · cases h
    · exact absurd (congrArg Prod.snd h) (demuxHandler_ne_error _ msg e)

theorem demuxTurn_failed {closed : Bool} {loop next : DemuxLoop}
    {result : Option (Except IngestError Unit)}
    (h : demuxTurn closed loop .failed = (next, result))
    (hlimit : maxConsecutiveErrors ≤ loop.consecutiveErrors + 1) :
    ∃ e, result = some (.error e) := by
  simp only [demuxTurn, if_pos hlimit, Prod.mk.injEq] at h
  exact ⟨_, h.2.symm⟩

section History

variable {cfg : LiveConfig} {m : StreamStateManager} {p : List LiveAction} {s : LiveTasks}
  {a : LiveAction}

theorem tooManyErrors_concat (hrun : run (liveStep cfg) (.start cfg m) p = some s) :
    TooManyErrors cfg m (p ++ [a]) ↔ TooManyErrors cfg m p ∨ a = .read .failed ∧
      ∃ loop, s.demux = some loop ∧ maxConsecutiveErrors ≤ loop.consecutiveErrors + 1 := by
  constructor
  · rintro ⟨before, after, s₀, loop, heq, hbefore, hdemux, hlimit⟩
    rcases List.eq_nil_or_concat after with rfl | ⟨after', last, rfl⟩
    · obtain ⟨rfl, ha⟩ := List.append_inj' heq rfl
      obtain rfl : a = .read .failed := by simpa using ha
      obtain rfl := Option.some.inj (hbefore.symm.trans hrun)
      exact Or.inr ⟨rfl, loop, hdemux, hlimit⟩
    · rw [List.concat_eq_append, ← List.cons_append, ← List.append_assoc] at heq
      obtain ⟨rfl, -⟩ := List.append_inj' heq rfl
      exact Or.inl ⟨before, after', s₀, loop, rfl, hbefore, hdemux, hlimit⟩
  · rintro (⟨before, after, s₀, loop, rfl, hbefore, hdemux, hlimit⟩ | ⟨rfl, loop, hdemux, hlimit⟩)
    · exact ⟨before, after ++ [a], s₀, loop, by simp, hbefore, hdemux, hlimit⟩
    · exact ⟨p, [], s, loop, rfl, hrun, hdemux, hlimit⟩

end History

/-! ### The invariant -/

/-- What the connection has sent at the end of its demux loop. -/
inductive EndsAs (streamId : StreamId) (failed : Prop) (s : LiveTasks) :
    List PipelineEvent → Prop where
  | running (loop : DemuxLoop) (hdemux : s.demux = some loop) (hok : ¬ failed) :
      EndsAs streamId failed s []
  | ended (hdemux : s.demux = none) (hok : ¬ failed) :
      EndsAs streamId failed s [.streamEnded streamId]
  | error (hdemux : s.demux = none) (hfailed : failed) (message : Text) :
      EndsAs streamId failed s [.streamError streamId message]

/-- How far the event handler has come with the start and the end of the stream.
`failed`: the demux loop has given up. -/
inductive LiveProgress (streamId : StreamId) (failed : Prop) (s : LiveTasks) : Prop where
  | starting (mediaInfo : MediaInfo) (ends : List PipelineEvent)
      (hends : EndsAs streamId failed s ends)
      (hevents : lifecycleEvents s.events streamId = .streamStarted streamId mediaInfo :: ends)
      (hsummary : summary s.manager streamId = some (.pending, .live))
  | live (ends : List PipelineEvent) (hends : EndsAs streamId failed s ends)
      (hevents : lifecycleEvents s.events streamId = ends)
      (hsummary : summary s.manager streamId = some (.live, .live))
  | processing (hdemux : s.demux = none) (hevents : lifecycleEvents s.events streamId = [])
      (hok : ¬ failed) (hsummary : summary s.manager streamId = some (.processing, .live))
  | error (hdemux : s.demux = none) (hevents : lifecycleEvents s.events streamId = [])
      (hfailed : failed) (hsummary : summary s.manager streamId = some (.error, .live))

section Invariant

variable {streamId : StreamId} {failed failed' : Prop} {s s' : LiveTasks}

theorem EndsAs.congr {ends : List PipelineEvent} (h : EndsAs streamId failed s ends)
    (hdemux : s'.demux = s.demux) (hfailed : failed' ↔ failed) :
    EndsAs streamId failed' s' ends := by
  cases h with
  | running loop hd hok => exact .running loop (hdemux.trans hd) (mt hfailed.mp hok)
  | ended hd hok => exact .ended (hdemux.trans hd) (mt hfailed.mp hok)
  | error hd hf message => exact .error (hdemux.trans hd) (hfailed.mpr hf) message

/-- A step that neither touches the demux loop, the start and the end of the stream, nor
its summary. -/
theorem LiveProgress.congr (h : LiveProgress streamId failed s) (hdemux : s'.demux = s.demux)
    (hfailed : failed' ↔ failed)
    (hevents : lifecycleEvents s'.events streamId = lifecycleEvents s.events streamId)
    (hsummary : summary s'.manager streamId = summary s.manager streamId) :
    LiveProgress streamId failed' s' := by
  cases h with
  | starting mediaInfo ends hends he hs =>
    exact .starting mediaInfo ends (hends.congr hdemux hfailed) (hevents.trans he)
      (hsummary.trans hs)
  | live ends hends he hs =>
    exact .live ends (hends.congr hdemux hfailed) (hevents.trans he) (hsummary.trans hs)
  | processing hd he hok hs =>
    exact .processing (hdemux.trans hd) (hevents.trans he) (mt hfailed.mp hok) (hsummary.trans hs)
  | error hd he hf hs =>
    exact .error (hdemux.trans hd) (hevents.trans he) (hfailed.mpr hf) (hsummary.trans hs)

/-- The demux loop ends and sends its event. -/
theorem LiveProgress.finish (h : LiveProgress streamId failed s) {loop : DemuxLoop}
    (hdemux : s.demux = some loop) {event : PipelineEvent}
    (hends : EndsAs streamId failed' s' [event])
    (hevents : s'.events = s.events ++ [event])
    (hown : (startsOrEnds event && decide (event.streamId = streamId)) = true)
    (hmanager : s'.manager = s.manager) : LiveProgress streamId failed' s' := by
  have hconcat := lifecycleEvents_concat s.events event streamId
  rw [hown, ← hevents] at hconcat
  have hnil : ∀ ends, EndsAs streamId failed s ends → ends = [] := by
    intro ends he
    cases he with
    | running => rfl
    | ended hd | error hd => exact absurd (hdemux.symm.trans hd) (by simp)
  cases h with
  | starting mediaInfo ends he hq hs =>
    obtain rfl := hnil ends he
    rw [hq] at hconcat
    exact .starting mediaInfo [event] hends hconcat (hmanager ▸ hs)
  | live ends he hq hs =>
    obtain rfl := hnil ends he
    rw [hq] at hconcat
    exact .live [event] hends hconcat (hmanager ▸ hs)
  | processing hd | error hd => exact absurd (hdemux.symm.trans hd) (by simp)

/-- The event handler takes the next event. -/
theorem LiveProgress.handle (h : LiveProgress streamId failed s) {event : PipelineEvent}
    {events : List PipelineEvent} (hevents : s.events = event :: events) (now : DateTime)
    (hcomplete : ∀ r, event ≠ .renditionComplete streamId r) :
    LiveProgress streamId failed
      { s with manager := handleEvent s.manager event now, events := events } := by
  have hcons := lifecycleEvents_cons event events streamId
  rw [← hevents] at hcons
  cases hown : startsOrEnds event && decide (event.streamId = streamId) with
  | false =>
    rw [hown] at hcons
    exact h.congr rfl Iff.rfl hcons.symm (summary_handleEvent_quiet now hown hcomplete)
  | true =>
    rw [hown] at hcons
    cases h with
    | starting mediaInfo ends hends hq hs =>
      obtain ⟨rfl, hrest⟩ := List.cons.inj (hcons.symm.trans hq)
      exact .live ends (hends.congr rfl Iff.rfl) hrest (summary_streamStarted mediaInfo now hs)
    | live ends hends hq hs =>
      rw [hq] at hcons
      cases hends with
      | running => cases hcons
      | ended hd hok =>
        obtain ⟨rfl, hrest⟩ := List.cons.inj hcons
        exact .processing hd hrest.symm hok (summary_streamEnded now hs)
      | error hd hf message =>
        obtain ⟨rfl, hrest⟩ := List.cons.inj hcons
        exact .error hd hrest.symm hf (summary_streamError message now hs)
    | processing _ hq | error _ hq => exact absurd (hcons.symm.trans hq) (by simp)

end Invariant

/-- The pipeline has returned without an error. -/
def TranscodeTask.succeeded : TranscodeTask → Bool
  | .returned (.ok ()) => true
  | .returned (.error _) | .starting | .decoding .. => false

/-- As long as the pipeline has not ended well, no rendition is complete. -/
structure Unfinished (cfg : LiveConfig) (failed : Prop) (s : LiveTasks) : Prop where
  segments : ∀ segment ∈ s.segments, segment.isLast = false
  events : ∀ r, .renditionComplete cfg.streamId r ∉ s.events
  progress : LiveProgress cfg.streamId failed s

structure LiveInvariant (cfg : LiveConfig) (failed : Prop) (s : LiveTasks) : Prop where
  opened : ∀ p, s.packager = some p → p.Open
  gaveUp : failed → s.demux = none
  unfinished : s.transcode.succeeded = false → Unfinished cfg failed s

section Steps

variable {cfg : LiveConfig} {failed : Prop} {s s' : LiveTasks}

theorem notMem_concat {r : Text} {streamId : StreamId} {events : List PipelineEvent}
    {event : PipelineEvent} (h : .renditionComplete streamId r ∉ events)
    (hevent : event ≠ .renditionComplete streamId r) :
    .renditionComplete streamId r ∉ events ++ [event] := by
  intro hmem
  rcases List.mem_append.mp hmem with hmem | hmem
  · exact h hmem
  · exact hevent (List.mem_singleton.mp hmem).symm

/-- A turn of the demux loop. `failed'`: the loop has given up, now or before. -/
theorem LiveInvariant.read {failed' : Prop} (h : LiveInvariant cfg failed s) {loop : DemuxLoop}
    (hdemux : s.demux = some loop) (r : ReadResult)
    (hfailed : failed' ↔ failed ∨ r = .failed ∧ maxConsecutiveErrors ≤ loop.consecutiveErrors + 1) :
    LiveInvariant cfg failed' (s.read cfg loop r) := by
  have hnot : ¬ failed := fun hf => absurd ((h.gaveUp hf).symm.trans hdemux) (by simp)
  unfold LiveTasks.read
  cases hturn : demuxTurn s.transcode.hasReturned loop r with
  | mk next result =>
    cases result with
    | none =>
      have hnot' : ¬ failed' := by
        rw [hfailed]
        rintro (hf | ⟨rfl, hlimit⟩)
        · exact hnot hf
        · obtain ⟨e, he⟩ := demuxTurn_failed hturn hlimit
          cases he
      refine ⟨h.opened, fun hf => absurd hf hnot', fun hs => ?_⟩
      obtain ⟨hsegments, hevents, hprogress⟩ := h.unfinished hs
      refine ⟨hsegments, hevents, ?_⟩
      have hends : ∀ ends, EndsAs cfg.streamId failed s ends →
          EndsAs cfg.streamId failed'
            { s with demux := some next, frames := s.frames ++ next.frames } ends := by
        intro ends he
        cases he with
        | running => exact .running next rfl hnot'
        | ended hd | error hd => exact absurd (hdemux.symm.trans hd) (by simp)
      cases hprogress with
      | starting mediaInfo ends he hq hsum => exact .starting mediaInfo ends (hends ends he) hq hsum
      | live ends he hq hsum => exact .live ends (hends ends he) hq hsum
      | processing hd | error hd => exact absurd (hdemux.symm.trans hd) (by simp)
    | some result =>
      refine ⟨h.opened, fun _ => rfl, fun hs => ?_⟩
      obtain ⟨hsegments, hevents, hprogress⟩ := h.unfinished hs
      cases result with
      | ok =>
        have hnot' : ¬ failed' := by
          rw [hfailed]
          rintro (hf | ⟨rfl, hlimit⟩)
          · exact hnot hf
          · obtain ⟨e, he⟩ := demuxTurn_failed hturn hlimit
            cases he
        refine ⟨hsegments, fun r => notMem_concat (hevents r) (by simp [endEvent]), ?_⟩
        exact hprogress.finish hdemux (.ended rfl hnot') rfl
          (by simp [startsOrEnds, PipelineEvent.streamId]) rfl
      | error e =>
        have hfailed' : failed' := hfailed.mpr (Or.inr (demuxTurn_eq_error hturn))
        refine ⟨hsegments, fun r => notMem_concat (hevents r) (by simp [endEvent]), ?_⟩
        exact hprogress.finish hdemux (.error rfl hfailed' e.toText) rfl
          (by simp [startsOrEnds, PipelineEvent.streamId]) rfl

theorem LiveInvariant.decode (h : LiveInvariant cfg failed s) {accs : List SegmentAccumulator}
    {errors : ℕ} (htranscode : s.transcode = .decoding accs errors) (frame : DemuxedFrame)
    (frames : List DemuxedFrame) :
    LiveInvariant cfg failed (s.decode cfg accs errors frame frames) := by
  obtain ⟨hsegments, hevents, hprogress⟩ := h.unfinished (by rw [htranscode]; rfl)
  have hlast : ∀ segment ∈ s.segments ++ (processFrame s.packager.isNone accs frame).2.1,
      segment.isLast = false := by
    intro segment hmem
    rcases List.mem_append.mp hmem with hmem | hmem
    · exact hsegments segment hmem
    · exact isLast_processFrame _ _ _ segment hmem
  simp only [LiveTasks.decode]
  split
  · exact ⟨h.opened, h.gaveUp, fun _ => ⟨hlast, hevents, hprogress.congr rfl Iff.rfl rfl rfl⟩⟩
  · split
    all_goals
      exact ⟨h.opened, h.gaveUp, fun _ => ⟨hlast, hevents, hprogress.congr rfl Iff.rfl rfl rfl⟩⟩

/-- A packager whose channels are open does not stop, and keeps them open. -/
theorem packaged_open {p : Packager} (hopen : p.Open) {segment : EncodedSegment} {now : DateTime}
    {result : Except Packager Packager}
    (hturn : handleSegment cfg.packagerEnv { p with events := [] } segment now = result) :
    ∃ p', result = .ok p' ∧ p'.Open ∧ p'.events = segmentEvents cfg.packagerEnv segment := by
  have hopen' : ({ p with events := [] } : Packager).Open :=
    ⟨hopen.room, hopen.published, hopen.opened⟩
  obtain ⟨p', hok, hopened, -, hevents, -⟩ := handleSegment_open cfg.packagerEnv segment now hopen'
  exact ⟨p', hturn.symm.trans hok, hopened, hevents⟩

theorem LiveInvariant.package (h : LiveInvariant cfg failed s) {p' : Packager}
    {segment : EncodedSegment} {segments : List EncodedSegment}
    (hsegments : s.segments = segment :: segments) (hopen' : p'.Open)
    (hevents' : p'.events = segmentEvents cfg.packagerEnv segment) :
    LiveInvariant cfg failed
      { s with packager := some p', segments := segments, events := s.events ++ p'.events } := by
  refine ⟨fun q hq => Option.some.inj hq ▸ hopen', h.gaveUp, fun hs => ?_⟩
  obtain ⟨hlast, hevents, hprogress⟩ := h.unfinished hs
  have hsegment : segment.isLast = false := by
    apply hlast
    rw [hsegments]
    exact List.mem_cons_self
  -- A segment that is not the last one of its rendition completes nothing.
  have hsent : p'.events =
      [.segmentProduced cfg.streamId segment.rendition.asStr segment.sequence] := by
    rw [hevents', segmentEvents, hsegment]
    rfl
  refine ⟨fun other hother => hlast other ?_, fun r => ?_, ?_⟩
  · rw [hsegments]
    exact List.mem_cons_of_mem _ hother
  · rw [hsent]
    exact notMem_concat (hevents r) (by simp)
  · refine hprogress.congr rfl Iff.rfl ?_ rfl
    rw [hsent, lifecycleEvents_concat]
    exact List.append_nil _

theorem LiveInvariant.handle (h : LiveInvariant cfg failed s) {event : PipelineEvent}
    {events : List PipelineEvent} (hevents : s.events = event :: events) (now : DateTime) :
    LiveInvariant cfg failed
      { s with manager := handleEvent s.manager event now, events := events } := by
  refine ⟨h.opened, h.gaveUp, fun hs => ?_⟩
  obtain ⟨hlast, hnone, hprogress⟩ := h.unfinished hs
  rw [hevents] at hnone
  refine ⟨hlast, fun r hmem => hnone r (List.mem_cons_of_mem _ hmem), ?_⟩
  refine hprogress.handle hevents now fun r hr => hnone r ?_
  rw [hr]
  exact List.mem_cons_self

/-- The steps other than turns of the demux loop. -/
theorem LiveInvariant.step (h : LiveInvariant cfg failed s) {a : LiveAction}
    (ha : ∀ r, a ≠ .read r) (hstep : liveStep cfg s a = some s') : LiveInvariant cfg failed s' := by
  cases liveStep_outcome hstep with
  | read hdemux r => exact absurd rfl (ha r)
  | refused hstarting hnone =>
    obtain ⟨hlast, hcomplete, hprogress⟩ := h.unfinished (by rw [hstarting]; rfl)
    exact ⟨h.opened, h.gaveUp, fun _ => ⟨hlast, hcomplete, hprogress.congr rfl Iff.rfl rfl rfl⟩⟩
  | launched hstarting hsome =>
    obtain ⟨hlast, hcomplete, hprogress⟩ := h.unfinished (by rw [hstarting]; rfl)
    refine ⟨h.opened, h.gaveUp, fun _ => ⟨hlast, hcomplete, ?_⟩⟩
    exact hprogress.congr rfl Iff.rfl rfl (summary_setExpectedRenditions _ _)
  | decoded htranscode hframes => exact h.decode htranscode _ _
  | flushed htranscode hframes hdemux => exact ⟨h.opened, h.gaveUp, fun hs => by cases hs⟩
  | packaged hp hsegments hturn =>
    obtain ⟨p', hok, hopen', hevents'⟩ := packaged_open (h.opened _ hp) hturn
    obtain rfl := Except.ok.inj hok
    exact h.package hsegments hopen' hevents'
  | broken hp hsegments hturn =>
    obtain ⟨p', hok, -⟩ := packaged_open (h.opened _ hp) hturn
    cases hok
  | packagerEnded hp hsegments htranscode =>
    refine ⟨fun p hnone => ?_, h.gaveUp, fun hs => ?_⟩
    · cases hnone
    · obtain ⟨hlast, hcomplete, hprogress⟩ := h.unfinished hs
      exact ⟨hlast, hcomplete, hprogress.congr rfl Iff.rfl rfl rfl⟩
  | writerEnded hpackager hwriting =>
    refine ⟨h.opened, h.gaveUp, fun hs => ?_⟩
    obtain ⟨hlast, hcomplete, hprogress⟩ := h.unfinished hs
    exact ⟨hlast, hcomplete, hprogress.congr rfl Iff.rfl rfl rfl⟩
  | handled now hevents => exact h.handle hevents now

end Steps

/-! ### Whole runs -/

section Runs

variable {cfg : LiveConfig} {m : StreamStateManager} {as : List LiveAction} {s : LiveTasks}

theorem liveInvariant_of_run (hrecord : summary m cfg.streamId = some (.pending, .live))
    (hrun : run (liveStep cfg) (.start cfg m) as = some s) :
    LiveInvariant cfg (TooManyErrors cfg m as) s := by
  refine run_history (I := fun p s => LiveInvariant cfg (TooManyErrors cfg m p) s) ?_ ?_ hrun
  · intro p c a c' hp hI hstep
    by_cases ha : ∃ r, a = .read r
    · obtain ⟨r, rfl⟩ := ha
      obtain ⟨loop, hdemux, rfl⟩ := Option.map_eq_some_iff.mp hstep
      refine hI.read hdemux r ?_
      rw [tooManyErrors_concat hp]
      refine or_congr Iff.rfl ⟨?_, ?_⟩
      · rintro ⟨hr, loop', hdemux', hlimit⟩
        obtain rfl := Option.some.inj (hdemux.symm.trans hdemux')
        exact ⟨LiveAction.read.inj hr, hlimit⟩
      · rintro ⟨rfl, hlimit⟩
        exact ⟨rfl, loop, hdemux, hlimit⟩
    · have hsame : TooManyErrors cfg m (p ++ [a]) = TooManyErrors cfg m p := by
        rw [eq_iff_iff, tooManyErrors_concat hp]
        refine or_iff_left ?_
        rintro ⟨rfl, -⟩
        exact ha ⟨.failed, rfl⟩
      rw [hsame]
      exact hI.step (fun r hr => ha ⟨r, hr⟩) hstep
  · have hnone : ¬ TooManyErrors cfg m [] := by
      rintro ⟨before, after, -, -, heq, -⟩
      simp at heq
    refine ⟨?_, fun hf => absurd hf hnone,
      fun _ => ⟨by simp [LiveTasks.start], by simp [LiveTasks.start], ?_⟩⟩
    · intro p hp
      exact Option.some.inj hp ▸ Packager.open_start
    · refine .starting cfg.mediaInfo [] (.running ⟨cfg.demuxer, 0, []⟩ rfl hnone) ?_ hrecord
      simp [LiveTasks.start, lifecycleEvents, startsOrEnds, PipelineEvent.streamId]

/-- **A failed live transcode ends in ERROR exactly if the demux loop gives up.** When
`run_live` has returned an error, all tasks of the stream have ended and all events
are handled, the stream is in ERROR if the demux loop has counted too many errors in
a row, and left in PROCESSING otherwise. -/
theorem failed_transcode_iff (hrecord : summary m cfg.streamId = some (.pending, .live))
    (hrun : run (liveStep cfg) (.start cfg m) as = some s) {e : TranscodeError}
    (hfailed : s.transcode = .returned (.error e)) (hfinished : s.Finished) :
    (summary s.manager cfg.streamId = some (.error, .live) ↔ TooManyErrors cfg m as) ∧
    (¬ TooManyErrors cfg m as → summary s.manager cfg.streamId = some (.processing, .live)) := by
  have hinvariant := liveInvariant_of_run hrecord hrun
  have hprogress := (hinvariant.unfinished (by rw [hfailed]; rfl)).progress
  have hevents : lifecycleEvents s.events cfg.streamId = [] := by
    rw [hfinished.events]
    rfl
  have hover : ∀ ends, EndsAs cfg.streamId (TooManyErrors cfg m as) s ends → ends ≠ [] := by
    intro ends hends
    cases hends with
    | running loop hdemux => exact absurd (hfinished.demux.symm.trans hdemux) (by simp)
    | ended | error => simp
  cases hprogress with
  | starting _ _ _ hq => exact absurd (hevents.symm.trans hq) (by simp)
  | live ends hends hq => exact absurd (hq.symm.trans hevents) (hover ends hends)
  | processing _ _ hok hsummary =>
    rw [hsummary]
    exact ⟨⟨fun h => by simp at h, fun h => absurd h hok⟩, fun _ => rfl⟩
  | error _ _ hgaveUp hsummary =>
    rw [hsummary]
    exact ⟨⟨fun _ => hgaveUp, fun _ => rfl⟩, fun h => absurd hgaveUp h⟩

end Runs

/-! ### A ladder without rungs -/

/-- A stream whose pipeline fails at once: the configured ladder is empty. -/
def emptyLadder : LiveConfig where
  streamId := ⟨1⟩
  mediaInfo := encoderMedia
  demuxer := { FlvDemuxer.new ⟨1⟩ with hasVideoSeqHeader := true }
  sourceFps := 30
  ladder := []
  keyframeIntervalSecs := 2
  packaging := ⟨5, 7⟩

/-- An audio frame in MP3. -/
def mp3Message : RtmpMessage := ⟨.audio, 0, 1, [0x2f, 0x00]⟩

/-- The next frame finds the channel closed. -/
def unnoticedRun : List LiveAction :=
  [.launch, .read (.message mp3Message), .handle ⟨1⟩, .handle ⟨2⟩, .packagerEnd, .writerEnd]

/-- The pipeline has failed, everything has ended, and the stream is left in
PROCESSING. -/
theorem failed_transcode_left_processing :
    ∃ s e, run (liveStep emptyLadder) (.start emptyLadder createdManager) unnoticedRun = some s ∧
      s.transcode = .returned (.error e) ∧ s.Finished ∧
      summary s.manager ⟨1⟩ = some (.processing, .live) :=
  ⟨_, _, rfl, rfl, ⟨rfl, rfl, rfl, rfl, rfl⟩, rfl⟩

/-- The connection breaks down as well. -/
def brokenRun : List LiveAction :=
  .launch :: List.replicate 10 (.read .failed) ++
    [.handle ⟨1⟩, .handle ⟨2⟩, .packagerEnd, .writerEnd]

theorem failed_transcode_iff_brokenRun :
    TooManyErrors emptyLadder createdManager brokenRun ∧
    ∃ s e, run (liveStep emptyLadder) (.start emptyLadder createdManager) brokenRun = some s ∧
      s.transcode = .returned (.error e) ∧ s.Finished ∧
      summary s.manager ⟨1⟩ = some (.error, .live) := by
  have herrors : TooManyErrors emptyLadder createdManager brokenRun :=
    ⟨.launch :: List.replicate 9 (.read .failed),
      [.handle ⟨1⟩, .handle ⟨2⟩, .packagerEnd, .writerEnd], _, _, rfl, rfl, rfl, by decide⟩
  refine ⟨herrors, _, _, rfl, rfl, ⟨rfl, rfl, rfl, rfl, rfl⟩, ?_⟩
  exact (@failed_transcode_iff emptyLadder createdManager brokenRun _ rfl rfl _ rfl
    ⟨rfl, rfl, rfl, rfl, rfl⟩).1.mpr herrors

end StreamInfa.Ingest
