import StreamInfa.Ingest.Cadence
import StreamInfa.Ingest.LivePipeline

/-!
The tasks of an uploaded file (`start_vod_pipeline_from_file` of `src/delivery/handlers.rs`, built
without FFmpeg).

The feeder reads the temp file piece by piece and sends each piece as a frame; behind it run the
transcode pipeline, the packager and the event handler, as behind a live connection. Here a
transcode pipeline that fails reports its error. A task lets go of its channels when its function
returns, so before it reports: the pipeline can flush what a failed feeder has sent and the stream
can become READY, before the error arrives. The pipeline's cancellation token is never
cancelled.

`VodOutcome` lists what a step of the tasks can do. The tasks cannot block each other
(`settled_iff`), and **`vod_run_bounded`**: however they interleave, they are done after a number of
steps that the length of the file and the number of renditions bound.
-/

namespace StreamInfa.Ingest

open Control Transcode Package

/-! ### The tasks -/

/-- What the pipeline of an uploaded file is started with. -/
structure VodConfig where
  streamId : StreamId
  file : Bytes
  sourceWidth : UInt32
  sourceHeight : UInt32
  sourceFps : ℚ
  ladder : List TranscodeProfile
  keyframeIntervalSecs : ℕ
  packaging : PackagingConfig

/-- Where the feeder stands. -/
inductive Feeder where
  | opening
  | reading (rest : Bytes) (bytesRead frameIdx : ℕ)
  /-- The frame is sent, its progress is not. -/
  | sent (rest : Bytes) (bytesRead frameIdx : ℕ)
  /-- The end of the file is reached and the frame channel closed. -/
  | closing
  /-- The temp file is about to be removed. -/
  | removing
  | done
  /-- The feeder has returned an error. -/
  | failed (error : Text)
  /-- The error is reported. -/
  | aborted
deriving DecidableEq, Repr

/-- The feeder has not let go of the frame channel yet. -/
def Feeder.isFeeding : Feeder → Bool
  | .opening | .reading .. | .sent .. => true
  | .closing | .removing | .done | .failed _ | .aborted => false

/-- How opening the temp file fails. -/
inductive OpenFault where
  | notOpened (e : Text)
  | notStatted (e : Text)
deriving DecidableEq, Repr

def OpenFault.toText : OpenFault → Text
  | .notOpened e => "failed to open temp file: ".toList ++ e
  | .notStatted e => "failed to stat temp file: ".toList ++ e

/-- The tasks with their channels. -/
structure VodTasks where
  manager : StreamStateManager
  events : List PipelineEvent
  /-- The gauge that VodProgress sets and the end of the record clears. -/
  vodProgress : Option ℚ
  tempFile : Bool
  feeder : Feeder
  frames : List DemuxedFrame
  transcode : TranscodeTask
  /-- The error of the transcode pipeline is reported. -/
  reported : Bool
  segments : List EncodedSegment
  packager : Packager
  packaging : Bool

inductive VodAction where
  | openFile (fault : Option OpenFault)
  /-- The feeder reads that many bytes, none at the end of the file. -/
  | read (result : Except Text ℕ)
  | progress
  | conclude
  | remove (removed : Bool)
  | reportFeeder
  | launch
  | decode
  | flush
  | reportTranscode
  | package (now : DateTime)
  | packagerEnd
  | handle (now : DateTime)
deriving DecidableEq, Repr

/-- The feeder's buffer: `16 * 1024`. -/
def readBufferLen : ℕ := 16384

/-- What a read of a file can return while the bytes are left. -/
def IsRead (rest : Bytes) (n : ℕ) : Prop :=
  n ≤ readBufferLen ∧ n ≤ rest.length ∧ (n = 0 → rest = [])

instance (rest : Bytes) (n : ℕ) : Decidable (IsRead rest n) :=
  inferInstanceAs (Decidable (_ ∧ _ ∧ _))

section Steps

variable (cfg : VodConfig)

def VodConfig.renditions : List SelectedRendition :=
  selectRenditions cfg.sourceWidth cfg.sourceHeight cfg.ladder

/-- One accumulator per rendition, with a target of three keyframe intervals. -/
def VodConfig.accumulators : List SegmentAccumulator :=
  cfg.renditions.map fun r =>
    SegmentAccumulator.new cfg.streamId r.id (cfg.keyframeIntervalSecs * 3) r.width r.height
      r.videoBitrateKbps r.audioBitrateKbps r.profile r.level cfg.sourceFps

def VodConfig.packagerEnv : PackagerEnv := ⟨cfg.streamId, cfg.packaging, true⟩

/-- The frame of a piece of the file. -/
def VodConfig.frameAt (frameIdx : ℕ) (data : Bytes) : DemuxedFrame where
  streamId := cfg.streamId
  track := .video .h264 cfg.sourceWidth cfg.sourceHeight
  pts := Int64.ofNat (frameIdx * ptsStep)
  dts := Int64.ofNat (frameIdx * ptsStep)
  keyframe := frameIdx % keyframeEvery = 0
  data := data

/-- How much of the file is read, in percent. -/
def VodConfig.percent (bytesRead : ℕ) : ℚ :=
  min (bytesRead / (max cfg.file.length 1 : ℕ) * 100) 100

def VodTasks.start (m : StreamStateManager) : VodTasks where
  manager := m
  events := []
  vodProgress := none
  tempFile := true
  feeder := .opening
  frames := []
  transcode := .starting
  reported := false
  segments := []
  packager := Packager.start none
  packaging := true

/-- The feeder after a read of `n` bytes. -/
def VodTasks.feed (s : VodTasks) (rest : Bytes) (bytesRead frameIdx n : ℕ) : VodTasks :=
  if n = 0 then { s with feeder := .closing }
  else if s.transcode.hasReturned then
    { s with feeder := .failed "failed to enqueue VOD frame: channel closed".toList }
  else
    { s with
      frames := s.frames ++ [cfg.frameAt frameIdx (rest.take n)]
      feeder := .sent (rest.drop n) (bytesRead + n) frameIdx }

/-- A frame in the transcode pipeline. -/
def VodTasks.decode (s : VodTasks) (accs : List SegmentAccumulator) (errors : ℕ)
    (frame : DemuxedFrame) (frames : List DemuxedFrame) : VodTasks :=
  let (accs, segments, result) := processFrame (!s.packaging) accs frame
  let s := { s with frames := frames, segments := s.segments ++ segments }
  match result with
  | .ok () => { s with transcode := .decoding accs 0 }
  | .error _ =>
    let errors := errors + 1
    if maxConsecutiveDecodeErrors ≤ errors then
      { s with transcode := .returned (.error (.consecutiveDecodeErrors cfg.streamId errors)) }
    else { s with transcode := .decoding accs errors }

/-- The final multivariant playlist, behind the packager's loop. -/
def finishPackager (env : PackagerEnv) (p : Packager) : Packager :=
  if p.renditionInfos = [] then p else (writeMasterPlaylist env p).getD p

/-- Whether handling the event takes the record to READY or to ERROR. The transition then sets the
gauges of the stream to 0 (`clear_stream_metrics`). -/
def clearsMetrics (m : StreamStateManager) : PipelineEvent → Bool
  | .streamError streamId _ => (m.streams.lookup streamId).any fun entry => entry.state ≠ .deleted
  | .renditionComplete streamId rendition =>
    (m.streams.lookup streamId).any fun entry =>
      let (entry, shouldTransition) := StreamStateManager.noteRenditionComplete entry rendition
      shouldTransition &&
        StreamStateManager.isValidTransition entry.state .ready entry.metadata.ingestMode
  | .streamStarted .. | .segmentProduced .. | .streamEnded _ | .vodProgress .. => false

/-- A turn of the event handler, with what it does to the progress gauge. -/
def VodTasks.handle (s : VodTasks) (event : PipelineEvent) (events : List PipelineEvent)
    (now : DateTime) : VodTasks :=
  { s with
    manager := handleEvent s.manager event now
    events := events
    vodProgress := match event with
      | .vodProgress _ percent => some percent
      | _ => if clearsMetrics s.manager event then some 0 else s.vodProgress }

def vodStep (s : VodTasks) : VodAction → Option VodTasks
  | .openFile fault =>
    match s.feeder, fault with
    | .opening, none =>
      some { s with
        feeder := .reading cfg.file 0 0
        events := s.events ++ [.vodProgress cfg.streamId 0] }
    | .opening, some fault => some { s with feeder := .failed fault.toText }
    | _, _ => none
  | .read result =>
    match s.feeder, result with
    | .reading .., .error e =>
      some { s with feeder := .failed ("failed to read temp file: ".toList ++ e) }
    | .reading rest bytesRead frameIdx, .ok n =>
      if IsRead rest n then some (s.feed cfg rest bytesRead frameIdx n) else none
    | _, _ => none
  | .progress =>
    match s.feeder with
    | .sent rest bytesRead frameIdx =>
      some { s with
        feeder := .reading rest bytesRead (frameIdx + 1)
        events := s.events ++ [.vodProgress cfg.streamId (cfg.percent bytesRead)] }
    | _ => none
  | .conclude =>
    match s.feeder with
    | .closing =>
      some { s with
        feeder := .removing
        events := s.events ++ [.vodProgress cfg.streamId 100] }
    | _ => none
  | .remove removed =>
    match s.feeder with
    | .removing => some { s with feeder := .done, tempFile := s.tempFile && !removed }
    | _ => none
  | .reportFeeder =>
    match s.feeder with
    | .failed error =>
      some { s with feeder := .aborted, events := s.events ++ [.streamError cfg.streamId error] }
    | _ => none
  | .launch =>
    match s.transcode with
    | .starting =>
      if cfg.renditions = [] then
        some { s with
          transcode := .returned (.error
            (.ffmpegInit "no renditions selected for source resolution".toList)) }
      else
        some { s with
          manager := s.manager.setExpectedRenditions cfg.streamId cfg.renditions.length
          transcode := .decoding cfg.accumulators 0 }
    | _ => none
  | .decode =>
    match s.transcode, s.frames with
    | .decoding accs errors, frame :: frames => some (s.decode cfg accs errors frame frames)
    | _, _ => none
  | .flush =>
    match s.transcode, s.frames, s.feeder.isFeeding with
    | .decoding accs _, [], false =>
      some { s with
        transcode := .returned (.ok ())
        segments := s.segments ++
          if s.packaging then accs.filterMap fun acc => acc.flush else [] }
    | _, _, _ => none
  | .reportTranscode =>
    match s.transcode, s.reported with
    | .returned (.error e), false =>
      some { s with
        reported := true
        events := s.events ++ [.streamError cfg.streamId e.toText] }
    | _, _ => none
  | .package now =>
    match s.packaging, s.segments with
    | true, segment :: segments =>
      match handleSegment cfg.packagerEnv { s.packager with events := [] } segment now with
      | .ok p =>
        some { s with packager := p, segments := segments, events := s.events ++ p.events }
      | .error p =>
        some { s with
          packager := finishPackager cfg.packagerEnv p
          packaging := false
          segments := segments
          events := s.events ++ p.events }
    | _, _ => none
  | .packagerEnd =>
    match s.packaging, s.segments, s.transcode with
    | true, [], .returned _ =>
      some { s with
        packager := finishPackager cfg.packagerEnv s.packager
        packaging := false }
    | _, _, _ => none
  | .handle now =>
    match s.events with
    | [] => none
    | event :: events => some (s.handle event events now)

end Steps

/-! ### What a step can do -/

/-- What a step of the tasks does. -/
inductive VodOutcome (cfg : VodConfig) (s : VodTasks) : VodAction → VodTasks → Prop
  | opened (hfeeder : s.feeder = .opening) :
      VodOutcome cfg s (.openFile none) { s with
        feeder := .reading cfg.file 0 0
        events := s.events ++ [.vodProgress cfg.streamId 0] }
  | notOpened (hfeeder : s.feeder = .opening) (fault : OpenFault) :
      VodOutcome cfg s (.openFile (some fault)) { s with feeder := .failed fault.toText }
  | readFailed {rest : Bytes} {bytesRead frameIdx : ℕ}
      (hfeeder : s.feeder = .reading rest bytesRead frameIdx) (e : Text) :
      VodOutcome cfg s (.read (.error e))
        { s with feeder := .failed ("failed to read temp file: ".toList ++ e) }
  | endOfFile {bytesRead frameIdx : ℕ} (hfeeder : s.feeder = .reading [] bytesRead frameIdx) :
      VodOutcome cfg s (.read (.ok 0)) { s with feeder := .closing }
  | refusedFrame {rest : Bytes} {bytesRead frameIdx n : ℕ}
      (hfeeder : s.feeder = .reading rest bytesRead frameIdx) (hn : n ≠ 0) (hread : IsRead rest n)
      (hreturned : s.transcode.hasReturned = true) :
      VodOutcome cfg s (.read (.ok n))
        { s with feeder := .failed "failed to enqueue VOD frame: channel closed".toList }
  | fed {rest : Bytes} {bytesRead frameIdx n : ℕ}
      (hfeeder : s.feeder = .reading rest bytesRead frameIdx) (hn : n ≠ 0) (hread : IsRead rest n)
      (hopen : s.transcode.hasReturned = false) :
      VodOutcome cfg s (.read (.ok n)) { s with
        frames := s.frames ++ [cfg.frameAt frameIdx (rest.take n)]
        feeder := .sent (rest.drop n) (bytesRead + n) frameIdx }
  | progressed {rest : Bytes} {bytesRead frameIdx : ℕ}
      (hfeeder : s.feeder = .sent rest bytesRead frameIdx) :
      VodOutcome cfg s .progress { s with
        feeder := .reading rest bytesRead (frameIdx + 1)
        events := s.events ++ [.vodProgress cfg.streamId (cfg.percent bytesRead)] }
  | concluded (hfeeder : s.feeder = .closing) :
      VodOutcome cfg s .conclude { s with
        feeder := .removing
        events := s.events ++ [.vodProgress cfg.streamId 100] }
  | removed (hfeeder : s.feeder = .removing) (removed : Bool) :
      VodOutcome cfg s (.remove removed)
        { s with feeder := .done, tempFile := s.tempFile && !removed }
  | aborted {error : Text} (hfeeder : s.feeder = .failed error) :
      VodOutcome cfg s .reportFeeder
        { s with feeder := .aborted, events := s.events ++ [.streamError cfg.streamId error] }
  | refused (hstarting : s.transcode = .starting) (hnone : cfg.renditions = []) :
      VodOutcome cfg s .launch { s with
        transcode := .returned (.error
          (.ffmpegInit "no renditions selected for source resolution".toList)) }
  | launched (hstarting : s.transcode = .starting) (hsome : cfg.renditions ≠ []) :
      VodOutcome cfg s .launch { s with
        manager := s.manager.setExpectedRenditions cfg.streamId cfg.renditions.length
        transcode := .decoding cfg.accumulators 0 }
  | decoded {accs : List SegmentAccumulator} {errors : ℕ} {frame : DemuxedFrame}
      {frames : List DemuxedFrame} (htranscode : s.transcode = .decoding accs errors)
      (hframes : s.frames = frame :: frames) :
      VodOutcome cfg s .decode (s.decode cfg accs errors frame frames)
  | flushed {accs : List SegmentAccumulator} {errors : ℕ}
      (htranscode : s.transcode = .decoding accs errors) (hframes : s.frames = [])
      (hfeeder : s.feeder.isFeeding = false) :
      VodOutcome cfg s .flush { s with
        transcode := .returned (.ok ())
        segments := s.segments ++
          if s.packaging then accs.filterMap fun acc => acc.flush else [] }
  | reported {e : TranscodeError} (htranscode : s.transcode = .returned (.error e))
      (hreported : s.reported = false) :
      VodOutcome cfg s .reportTranscode { s with
        reported := true
        events := s.events ++ [.streamError cfg.streamId e.toText] }
  | packaged {p : Packager} {segment : EncodedSegment} {segments : List EncodedSegment}
      {now : DateTime} (hpackaging : s.packaging = true)
      (hsegments : s.segments = segment :: segments)
      (hturn : handleSegment cfg.packagerEnv { s.packager with events := [] } segment now = .ok p) :
      VodOutcome cfg s (.package now)
        { s with packager := p, segments := segments, events := s.events ++ p.events }
  | broken {p : Packager} {segment : EncodedSegment} {segments : List EncodedSegment}
      {now : DateTime} (hpackaging : s.packaging = true)
      (hsegments : s.segments = segment :: segments)
      (hturn : handleSegment cfg.packagerEnv { s.packager with events := [] } segment now =
        .error p) :
      VodOutcome cfg s (.package now) { s with
        packager := finishPackager cfg.packagerEnv p
        packaging := false
        segments := segments
        events := s.events ++ p.events }
  | packagerEnded {result : Except TranscodeError Unit} (hpackaging : s.packaging = true)
      (hsegments : s.segments = []) (htranscode : s.transcode = .returned result) :
      VodOutcome cfg s .packagerEnd { s with
        packager := finishPackager cfg.packagerEnv s.packager
        packaging := false }
  | handled {event : PipelineEvent} {events : List PipelineEvent} (now : DateTime)
      (hevents : s.events = event :: events) :
      VodOutcome cfg s (.handle now) (s.handle event events now)

theorem vodStep_outcome {cfg : VodConfig} {s s' : VodTasks} {a : VodAction}
    (hstep : vodStep cfg s a = some s') : VodOutcome cfg s a s' := by
  cases a with
  | openFile fault =>
    simp only [vodStep] at hstep
    split at hstep
    · rename_i hfeeder
      obtain rfl := Option.some.inj hstep
      exact .opened hfeeder
    · rename_i hfeeder
      obtain rfl := Option.some.inj hstep
      exact .notOpened hfeeder _
    · cases hstep
  | read result =>
    simp only [vodStep] at hstep
    split at hstep
    · rename_i hfeeder
      obtain rfl := Option.some.inj hstep
      exact .readFailed hfeeder _
    · rename_i hfeeder
      split at hstep
      · rename_i hread
        obtain rfl := Option.some.inj hstep
        unfold VodTasks.feed
        split
        · rename_i hn
          subst hn
          obtain rfl := hread.2.2 rfl
          exact .endOfFile hfeeder
        · rename_i hn
          split
          · rename_i hreturned
            exact .refusedFrame hfeeder hn hread hreturned
          · rename_i hopen
            exact .fed hfeeder hn hread (Bool.eq_false_iff.mpr hopen)
      · cases hstep
    · cases hstep
  | progress =>
    simp only [vodStep] at hstep
    split at hstep
    · rename_i hfeeder
      obtain rfl := Option.some.inj hstep
      exact .progressed hfeeder
    · cases hstep
  | conclude =>
    simp only [vodStep] at hstep
    split at hstep
    · rename_i hfeeder
      obtain rfl := Option.some.inj hstep
      exact .concluded hfeeder
    · cases hstep
  | remove removed =>
    simp only [vodStep] at hstep
    split at hstep
    · rename_i hfeeder
      obtain rfl := Option.some.inj hstep
      exact .removed hfeeder removed
    · cases hstep
  | reportFeeder =>
    simp only [vodStep] at hstep
    split at hstep
    · rename_i hfeeder
      obtain rfl := Option.some.inj hstep
      exact .aborted hfeeder
    · cases hstep
  | launch =>
    simp only [vodStep] at hstep
    split at hstep
    · rename_i hstarting
      split at hstep
      · rename_i hnone
        obtain rfl := Option.some.inj hstep
        exact .refused hstarting hnone
      · rename_i hsome
        obtain rfl := Option.some.inj hstep
        exact .launched hstarting hsome
    · cases hstep
  | decode =>
    simp only [vodStep] at hstep
    split at hstep
    · rename_i htranscode hframes
      obtain rfl := Option.some.inj hstep
      exact .decoded htranscode hframes
    · cases hstep
  | flush =>
    simp only [vodStep] at hstep
    split at hstep
    · rename_i htranscode hframes hfeeder
      obtain rfl := Option.some.inj hstep
      exact .flushed htranscode hframes hfeeder
    · cases hstep
  | reportTranscode =>
    simp only [vodStep] at hstep
    split at hstep
    · rename_i htranscode hreported
      obtain rfl := Option.some.inj hstep
      exact .reported htranscode hreported
    · cases hstep
  | package now =>
    simp only [vodStep] at hstep
    split at hstep
    · rename_i hpackaging hsegments
      split at hstep
      · rename_i hturn
        obtain rfl := Option.some.inj hstep
        exact .packaged hpackaging hsegments hturn
      · rename_i hturn
        obtain rfl := Option.some.inj hstep
        exact .broken hpackaging hsegments hturn
    · cases hstep
  | packagerEnd =>
    simp only [vodStep] at hstep
    split at hstep
    · rename_i hpackaging hsegments htranscode
      obtain rfl := Option.some.inj hstep
      exact .packagerEnded hpackaging hsegments htranscode
    · cases hstep
  | handle now =>
    simp only [vodStep] at hstep
    split at hstep
    · cases hstep
    · rename_i hevents
      obtain rfl := Option.some.inj hstep
      exact .handled now hevents

/-! ### The end of a run -/

/-- All tasks are done, and all events are handled. -/
structure VodTasks.Settled (s : VodTasks) : Prop where
  feeder : s.feeder = .done ∨ s.feeder = .aborted
  transcode : s.transcode = .returned (.ok ()) ∨
    ∃ e, s.transcode = .returned (.error e) ∧ s.reported = true
  packaging : s.packaging = false
  events : s.events = []

section Settled

variable {cfg : VodConfig} {s s' : VodTasks}

theorem VodTasks.Settled.step_eq_none (h : s.Settled) (a : VodAction) : vodStep cfg s a = none := by
  cases hstep : vodStep cfg s a with
  | none => rfl
  | some s' =>
    have hfeeder := h.feeder
    have htranscode := h.transcode
    have hpackaging := h.packaging
    have hevents := h.events
    cases vodStep_outcome hstep with
    | opened hf | notOpened hf | readFailed hf | endOfFile hf | refusedFrame hf | fed hf
    | progressed hf | concluded hf | removed hf | aborted hf =>
      rw [hf] at hfeeder
      simp at hfeeder
    | refused ht | launched ht | decoded ht | flushed ht =>
      rw [ht] at htranscode
      simp at htranscode
    | reported ht hr =>
      rw [ht, hr] at htranscode
      simp at htranscode
    | packaged hp | broken hp | packagerEnded hp =>
      rw [hp] at hpackaging
      cases hpackaging
    | handled now he =>
      rw [he] at hevents
      cases hevents

theorem feeder_of_stuck (h : ∀ a, vodStep cfg s a = none) :
    s.feeder = .done ∨ s.feeder = .aborted := by
  cases hfeeder : s.feeder with
  | opening => simpa [vodStep, hfeeder] using h (.openFile none)
  | reading => simpa [vodStep, hfeeder] using h (.read (.error []))
  | sent => simpa [vodStep, hfeeder] using h .progress
  | closing => simpa [vodStep, hfeeder] using h .conclude
  | removing => simpa [vodStep, hfeeder] using h (.remove true)
  | failed => simpa [vodStep, hfeeder] using h .reportFeeder
  | done => exact .inl rfl
  | aborted => exact .inr rfl

theorem transcode_of_stuck (h : ∀ a, vodStep cfg s a = none) :
    s.transcode = .returned (.ok ()) ∨
      ∃ e, s.transcode = .returned (.error e) ∧ s.reported = true := by
  cases htranscode : s.transcode with
  | starting =>
    have hlaunch := h .launch
    simp only [vodStep, htranscode] at hlaunch
    split at hlaunch <;> cases hlaunch
  | decoding =>
    have hfeeding : s.feeder.isFeeding = false := by
      rcases feeder_of_stuck h with hfeeder | hfeeder <;> rw [hfeeder] <;> rfl
    cases hframes : s.frames with
    | nil => simpa [vodStep, htranscode, hframes, hfeeding] using h .flush
    | cons => simpa [vodStep, htranscode, hframes] using h .decode
  | returned result =>
    rcases result with e | ⟨⟩
    · refine .inr ⟨e, rfl, ?_⟩
      cases hreported : s.reported with
      | true => rfl
      | false => simpa [vodStep, htranscode, hreported] using h .reportTranscode
    · exact .inl rfl

theorem packaging_of_stuck (h : ∀ a, vodStep cfg s a = none) : s.packaging = false := by
  cases hpackaging : s.packaging with
  | false => rfl
  | true =>
    cases hsegments : s.segments with
    | nil =>
      rcases transcode_of_stuck h with htranscode | ⟨e, htranscode, -⟩
      · simpa [vodStep, hpackaging, hsegments, htranscode] using h .packagerEnd
      · simpa [vodStep, hpackaging, hsegments, htranscode] using h .packagerEnd
    | cons =>
      have hturn := h (.package ⟨0⟩)
      simp only [vodStep, hpackaging, hsegments] at hturn
      split at hturn <;> cases hturn

/-- The tasks cannot block each other: as long as they are not done, one of them can go on. -/
theorem settled_iff : s.Settled ↔ ∀ a, vodStep cfg s a = none := by
  refine ⟨fun h => h.step_eq_none, fun h => ?_⟩
  refine ⟨feeder_of_stuck h, transcode_of_stuck h, packaging_of_stuck h, ?_⟩
  cases hevents : s.events with
  | nil => rfl
  | cons => simpa [vodStep, hevents] using h (.handle ⟨0⟩)

end Settled

/-! ### What is left to be done -/

/-- The steps that a frame is worth: its turn in the pipeline and, for each rendition, a turn of
the packager with two events. -/
def VodConfig.frameWork (cfg : VodConfig) : ℕ := 3 * cfg.renditions.length + 1

/-- The steps that the feeder is still worth. Each byte can be read by itself, which is worth a
read, a frame, and its progress with the event. -/
def VodConfig.feederWork (cfg : VodConfig) : Feeder → ℕ
  | .opening => (cfg.frameWork + 3) * cfg.file.length + 6
  | .reading rest _ _ => (cfg.frameWork + 3) * rest.length + 4
  | .sent rest _ _ => (cfg.frameWork + 3) * rest.length + 6
  | .closing => 3
  | .failed _ => 2
  | .removing => 1
  | .done | .aborted => 0

/-- The steps that the transcode pipeline is still worth, the frames apart. -/
def VodConfig.transcodeWork (cfg : VodConfig) (reported : Bool) : TranscodeTask → ℕ
  | .starting => 3 * cfg.renditions.length + 4
  | .decoding .. => 3 * cfg.renditions.length + 3
  | .returned (.error _) => if reported then 0 else 2
  | .returned (.ok ()) => 0

/-- The steps that all tasks are still worth. -/
def VodTasks.work (cfg : VodConfig) (s : VodTasks) : ℕ :=
  cfg.feederWork s.feeder + cfg.frameWork * s.frames.length +
    cfg.transcodeWork s.reported s.transcode + 3 * s.segments.length + s.events.length +
      s.packaging.toNat

/-- There is an accumulator for each rendition. -/
def OnePerRendition (cfg : VodConfig) (s : VodTasks) : Prop :=
  ∀ accs errors, s.transcode = .decoding accs errors → accs.length = cfg.renditions.length

section Work

variable {cfg : VodConfig} {s s' : VodTasks} {a : VodAction}

theorem length_fanOut_le (closed : Bool) (packet : EncodedPacket)
    (accs : List SegmentAccumulator) : (fanOut closed packet accs).2.1.length ≤ accs.length := by
  induction accs with
  | nil => exact Nat.le_refl 0
  | cons acc accs ih =>
    simp only [fanOut]
    split
    · exact ih.trans (Nat.le_succ _)
    · split
      · exact Nat.zero_le _
      · exact Nat.succ_le_succ ih

/-- A frame sends at most one segment for each rendition. -/
theorem length_processFrame (closed : Bool) (accs : List SegmentAccumulator)
    (frame : DemuxedFrame) :
    (processFrame closed accs frame).1.length = accs.length ∧
      (processFrame closed accs frame).2.1.length ≤ accs.length := by
  refine ⟨?_, ?_⟩
  · have hsame := congrArg List.length (renditions_processFrame closed accs frame).1
    rwa [List.length_map, List.length_map] at hsame
  · have hle := length_fanOut_le closed (.ofFrame frame) (accs.map (takeAudioParams frame))
    rwa [List.length_map] at hle

theorem length_segmentEvents_le (env : PackagerEnv) (segment : EncodedSegment) :
    (segmentEvents env segment).length ≤ 2 := by
  unfold segmentEvents
  split
  · exact Nat.le_refl 2
  · exact Nat.le_succ 1

theorem OnePerRendition.decode (h : OnePerRendition cfg s) {accs : List SegmentAccumulator}
    {errors : ℕ} (htranscode : s.transcode = .decoding accs errors) (frame : DemuxedFrame)
    (frames : List DemuxedFrame) : OnePerRendition cfg (s.decode cfg accs errors frame frames) := by
  have hlen := (length_processFrame (!s.packaging) accs frame).1.trans (h accs errors htranscode)
  intro accs' errors' hdecoding
  simp only [VodTasks.decode] at hdecoding
  split at hdecoding
  · obtain ⟨rfl, -⟩ := TranscodeTask.decoding.inj hdecoding
    exact hlen
  · split at hdecoding
    · cases hdecoding
    · obtain ⟨rfl, -⟩ := TranscodeTask.decoding.inj hdecoding
      exact hlen

theorem OnePerRendition.step (h : OnePerRendition cfg s) (hstep : vodStep cfg s a = some s') :
    OnePerRendition cfg s' := by
  cases vodStep_outcome hstep with
  | refused | flushed =>
    intro accs errors hdecoding
    cases hdecoding
  | launched hstarting hsome =>
    intro accs errors hdecoding
    obtain ⟨rfl, -⟩ := TranscodeTask.decoding.inj hdecoding
    exact List.length_map _
  | decoded htranscode hframes => exact h.decode htranscode _ _
  | _ => exact h

/-- A turn of the pipeline uses up its frame. -/
theorem work_decode (h : OnePerRendition cfg s) {accs : List SegmentAccumulator} {errors : ℕ}
    {frame : DemuxedFrame} {frames : List DemuxedFrame}
    (htranscode : s.transcode = .decoding accs errors) (hframes : s.frames = frame :: frames) :
    (s.decode cfg accs errors frame frames).work cfg < s.work cfg := by
  have hsegments := (length_processFrame (!s.packaging) accs frame).2
  rw [h accs errors htranscode] at hsegments
  have hcons : cfg.frameWork * s.frames.length = cfg.frameWork * frames.length + cfg.frameWork := by
    rw [hframes, List.length_cons, Nat.mul_succ]
  have hframe : cfg.frameWork = 3 * cfg.renditions.length + 1 := rfl
  rcases hturn : processFrame (!s.packaging) accs frame with ⟨accs', segments, _ | ⟨⟩⟩
  · simp only [hturn] at hsegments
    simp only [VodTasks.work, hcons, htranscode, VodConfig.transcodeWork, VodTasks.decode, hturn]
    split
    · simp only [List.length_append]
      split <;> omega
    · simp only [List.length_append]
      omega
  · simp only [hturn] at hsegments
    simp only [VodTasks.work, hcons, htranscode, VodConfig.transcodeWork, VodTasks.decode, hturn,
      List.length_append]
    omega

/-- Every step leaves less to be done. -/
theorem work_lt (h : OnePerRendition cfg s) (hstep : vodStep cfg s a = some s') :
    s'.work cfg < s.work cfg := by
  cases vodStep_outcome hstep with
  | opened hfeeder | notOpened hfeeder | readFailed hfeeder | endOfFile hfeeder
  | refusedFrame hfeeder | progressed hfeeder | concluded hfeeder | removed hfeeder
  | aborted hfeeder =>
    simp only [VodTasks.work, hfeeder, VodConfig.feederWork, List.length_append,
      List.length_singleton]
    omega
  | @fed rest bytesRead frameIdx n hfeeder hn hread =>
    -- At least one byte is read, and a byte is worth its frame.
    have hbytes : rest.length = (rest.drop n).length + n := by
      rw [List.length_drop]
      exact (Nat.sub_add_cancel hread.2.1).symm
    have hone : cfg.frameWork + 3 ≤ (cfg.frameWork + 3) * n :=
      Nat.le_mul_of_pos_right _ (Nat.pos_of_ne_zero hn)
    simp only [VodTasks.work, hfeeder, VodConfig.feederWork, List.length_append,
      List.length_singleton, Nat.mul_succ]
    rw [hbytes, Nat.mul_add]
    omega
  | refused hstarting =>
    simp only [VodTasks.work, hstarting, VodConfig.transcodeWork]
    split <;> omega
  | launched hstarting =>
    simp only [VodTasks.work, hstarting, VodConfig.transcodeWork]
    omega
  | decoded htranscode hframes => exact work_decode h htranscode hframes
  | @flushed accs errors htranscode hframes hfeeder =>
    have hflushed : (accs.filterMap fun acc => acc.flush).length ≤ cfg.renditions.length := by
      rw [← h accs errors htranscode]
      exact List.length_filterMap_le _ _
    simp only [VodTasks.work, htranscode, VodConfig.transcodeWork, List.length_append]
    split
    · omega
    · rw [List.length_nil]
      omega
  | reported htranscode hreported =>
    simp only [VodTasks.work, htranscode, hreported, VodConfig.transcodeWork, List.length_append,
      List.length_singleton]
    simp only [if_true, Bool.false_eq_true, if_false]
    omega
  | @packaged p segment segments now hpackaging hsegments hturn =>
    have hemits := emits_handleSegment cfg.packagerEnv { s.packager with events := [] } segment now
    rw [hturn] at hemits
    have hlen : p.events.length ≤ 2 := by
      rw [show p.events = segmentEvents cfg.packagerEnv segment from hemits]
      exact length_segmentEvents_le _ _
    simp only [VodTasks.work, hsegments, List.length_cons, List.length_append]
    omega
  | @broken p segment segments now hpackaging hsegments hturn =>
    have hemits := emits_handleSegment cfg.packagerEnv { s.packager with events := [] } segment now
    rw [hturn] at hemits
    have hnone : p.events = [] := hemits
    simp only [VodTasks.work, hpackaging, hsegments, List.length_cons, hnone, List.append_nil,
      Bool.toNat_true, Bool.toNat_false]
    omega
  | packagerEnded hpackaging =>
    simp only [VodTasks.work, hpackaging, Bool.toNat_true, Bool.toNat_false]
    omega
  | handled now hevents =>
    simp only [VodTasks.work, VodTasks.handle, hevents, List.length_cons]
    omega

theorem onePerRendition_start (cfg : VodConfig) (m : StreamStateManager) :
    OnePerRendition cfg (.start m) := by
  intro accs errors hdecoding
  cases hdecoding

/-- Every run can be gone on with until all tasks are done. -/
theorem exists_settled {m : StreamStateManager} {as : List VodAction}
    (hrun : run (vodStep cfg) (.start m) as = some s) :
    ∃ more t, run (vodStep cfg) s more = some t ∧ t.Settled := by
  have hinv : ∀ s a s', OnePerRendition cfg s → vodStep cfg s a = some s' →
      OnePerRendition cfg s' := fun s a s' h hstep => h.step hstep
  have hlt : ∀ s a s', OnePerRendition cfg s → vodStep cfg s a = some s' →
      s'.work cfg < s.work cfg := fun s a s' h hstep => work_lt h hstep
  have hreached := run_invariant hinv (onePerRendition_start cfg m) hrun
  obtain ⟨more, t, hmore, hstuck⟩ := exists_run_stuck hinv hlt hreached
  exact ⟨more, t, hmore, settled_iff.mpr hstuck⟩

end Work

/-- **The pipeline of an uploaded file comes to an end.** However its tasks interleave, whatever
the file system and the clock do: a run is no longer than a multiple of the length of the file, for
each rendition, and every run can be gone on with until all tasks are done. -/
theorem vod_run_bounded (cfg : VodConfig) (m : StreamStateManager) (as : List VodAction)
    (s : VodTasks) (hrun : run (vodStep cfg) (.start m) as = some s) :
    as.length ≤ (3 * cfg.renditions.length + 4) * (cfg.file.length + 1) + 7 ∧
      ∃ more t, run (vodStep cfg) (.start m) (as ++ more) = some t ∧ t.Settled := by
  constructor
  · have hbound := run_length_le (fun s a s' h hstep => h.step hstep)
      (fun s a s' h hstep => work_lt h hstep) (onePerRendition_start cfg m) hrun
    have hweight : cfg.frameWork + 3 = 3 * cfg.renditions.length + 4 := rfl
    have hwork : (VodTasks.start m).work cfg =
        (3 * cfg.renditions.length + 4) * (cfg.file.length + 1) + 7 := by
      simp only [VodTasks.work, VodTasks.start, VodConfig.feederWork, VodConfig.transcodeWork,
        hweight, List.length_nil, Bool.toNat_true, Nat.mul_succ]
      omega
    omega
  · obtain ⟨more, t, hmore, hsettled⟩ := exists_settled hrun
    exact ⟨more, t, (run_append hrun more).trans hmore, hsettled⟩

/-- A feeder that is done neither opens nor reads. -/
theorem done_of_run {cfg : VodConfig} {s t : VodTasks} {as : List VodAction}
    (hdone : s.feeder = .done) (hrun : run (vodStep cfg) s as = some t) :
    t.feeder = .done ∧ ∀ a ∈ as, (∀ fault, a ≠ .openFile fault) ∧ ∀ result, a ≠ .read result := by
  refine run_history (I := fun p t => t.feeder = .done ∧
    ∀ a ∈ p, (∀ fault, a ≠ .openFile fault) ∧ ∀ result, a ≠ .read result) ?_
    ⟨hdone, fun a ha => absurd ha List.not_mem_nil⟩ hrun
  rintro p c a c' _ ⟨hfeeder, hbefore⟩ hstep
  have hsame : c'.feeder = .done → (∀ fault, a ≠ .openFile fault) →
      (∀ result, a ≠ .read result) → c'.feeder = .done ∧
        ∀ b ∈ p ++ [a], (∀ fault, b ≠ .openFile fault) ∧ ∀ result, b ≠ .read result := by
    intro hnext hopen hread
    refine ⟨hnext, fun b hb => ?_⟩
    rcases List.mem_append.mp hb with hb | hb
    · exact hbefore b hb
    · rw [List.mem_singleton.mp hb]
      exact ⟨hopen, hread⟩
  cases vodStep_outcome hstep with
  | opened hf | notOpened hf | readFailed hf | endOfFile hf | refusedFrame hf | fed hf
  | progressed hf | concluded hf | removed hf | aborted hf =>
    rw [hf] at hfeeder
    cases hfeeder
  | decoded =>
    refine hsame ?_ (by simp) (by simp)
    unfold VodTasks.decode
    rcases processFrame _ _ _ with ⟨accs', segments, _ | ⟨⟩⟩
    · dsimp only
      split <;> exact hfeeder
    · exact hfeeder
  | _ => exact hsame hfeeder (by simp) (by simp)

/-! ### A short file -/

/-- A short file is read at once, sent and removed before the pipeline takes a frame. -/
def fedAtOnce (cfg : VodConfig) : List VodAction :=
  [.openFile none, .launch, .read (.ok cfg.file.length), .progress, .read (.ok 0), .conclude,
    .remove true]

theorem run_fedAtOnce {cfg : VodConfig} (hfile : cfg.file ≠ [])
    (hshort : cfg.file.length ≤ readBufferLen) (hsome : cfg.renditions ≠ [])
    (m : StreamStateManager) :
    ∃ s, run (vodStep cfg) (.start m) (fedAtOnce cfg) = some s ∧ s.feeder = .done := by
  have hlen : cfg.file.length ≠ 0 := fun hzero => hfile (List.length_eq_zero_iff.mp hzero)
  have hread : IsRead cfg.file cfg.file.length :=
    ⟨hshort, Nat.le_refl _, fun hzero => absurd hzero hlen⟩
  have hrest : IsRead (cfg.file.drop cfg.file.length) 0 :=
    ⟨Nat.zero_le _, Nat.zero_le _, fun _ => List.drop_length⟩
  simp only [fedAtOnce, run, vodStep, VodTasks.start, VodTasks.feed, if_neg hsome, if_neg hlen,
    if_pos hread, if_pos hrest, TranscodeTask.hasReturned, Option.bind_some, if_true,
    Bool.false_eq_true, if_false]
  exact ⟨_, rfl, rfl⟩

/-- A file of one byte, with a ladder of one rung. -/
def oneByte : VodConfig where
  streamId := ⟨7⟩
  file := [0x2A]
  sourceWidth := 1920
  sourceHeight := 1080
  sourceFps := 30
  ladder := [
    ⟨"1080p".toList, 1920, 1080, 3500, 128, "high".toList, "4.1".toList, "medium".toList⟩]
  keyframeIntervalSecs := 2
  packaging := ⟨6, 5⟩

theorem run_oneByte (m : StreamStateManager) :
    ∃ s, run (vodStep oneByte) (.start m) (fedAtOnce oneByte) = some s ∧ s.feeder = .done :=
  run_fedAtOnce (List.cons_ne_nil _ _) (by decide) (by decide) m

theorem vod_run_bounded_oneByte : ∃ more t,
    run (vodStep oneByte) (.start .new) (fedAtOnce oneByte ++ more) = some t ∧ t.Settled := by
  obtain ⟨s, hrun, -⟩ := run_oneByte .new
  exact (vod_run_bounded oneByte .new (fedAtOnce oneByte) s hrun).2

end StreamInfa.Ingest
