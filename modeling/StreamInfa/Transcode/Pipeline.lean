import StreamInfa.Core.Error
import StreamInfa.Transcode.Segment

/-!
The live transcode pipeline (`src/transcode/pipeline.rs`, built without FFmpeg): the
choice of renditions and the fan-out of a frame to the renditions' accumulators.

`processFrame` sends a segment wherever an accumulator closes one; it fails when the
packager has gone and its channel is closed. Short of that, no segment it sends is a
rendition's last: those come from the flush at the end of the stream.
-/

namespace StreamInfa.Transcode

/-! ### Renditions -/

/-- A rung of the configured ladder. -/
structure TranscodeProfile where
  name : Text
  width : UInt32
  height : UInt32
  bitrateKbps : UInt32
  audioBitrateKbps : UInt32
  profile : Text
  level : Text
  preset : Text
deriving DecidableEq, Repr

/-- A selected rendition with its encoding parameters. -/
structure SelectedRendition where
  id : RenditionId
  width : UInt32
  height : UInt32
  videoBitrateKbps : UInt32
  audioBitrateKbps : UInt32
  profile : Text
  level : Text
  preset : Text
deriving DecidableEq, Repr

def nameToRenditionId (name : Text) : RenditionId :=
  if name = "high".toList then .high
  else if name = "medium".toList then .medium
  else if name = "low".toList then .low
  else .source

/-- The rungs that fit the input; for an input smaller than all of them, one rendition
at its own resolution with the settings of the last rung. -/
def selectRenditions (inputWidth inputHeight : UInt32) (ladder : List TranscodeProfile) :
    List SelectedRendition :=
  let fitting := ladder.filter fun r => r.width ≤ inputWidth ∧ r.height ≤ inputHeight
  let selected := fitting.map fun r =>
    { id := nameToRenditionId r.name
      width := r.width
      height := r.height
      videoBitrateKbps := r.bitrateKbps
      audioBitrateKbps := r.audioBitrateKbps
      profile := r.profile
      level := r.level
      preset := r.preset : SelectedRendition }
  if selected = [] then
    match ladder.getLast? with
    | some lowest =>
      [{ id := .source
         width := inputWidth
         height := inputHeight
         videoBitrateKbps := lowest.bitrateKbps
         audioBitrateKbps := lowest.audioBitrateKbps
         profile := lowest.profile
         level := lowest.level
         preset := lowest.preset }]
    | none => []
  else selected

/-- Only an empty ladder leaves a source without renditions. -/
theorem selectRenditions_eq_nil_iff (inputWidth inputHeight : UInt32)
    (ladder : List TranscodeProfile) :
    selectRenditions inputWidth inputHeight ladder = [] ↔ ladder = [] := by
  constructor
  · intro h
    simp only [selectRenditions] at h
    split at h
    · split at h
      · cases h
      · rename_i hlast
        exact List.getLast?_eq_none_iff.mp hlast
    · rename_i hne
      exact absurd h hne
  · rintro rfl
    rfl

/-! ### Frames -/

/-- The packet a frame is passed through as. -/
def EncodedPacket.ofFrame (frame : DemuxedFrame) : EncodedPacket :=
  ⟨frame.pts, frame.dts, frame.keyframe, frame.data, frame.track.isAudio⟩

/-- The audio parameters of an audio frame. -/
def takeAudioParams (frame : DemuxedFrame) (acc : SegmentAccumulator) : SegmentAccumulator :=
  match frame.track with
  | .audio _ sampleRate channels => acc.setAudioParams sampleRate channels
  | .video .. => acc

/-- Feed a packet to the accumulators in turn, up to the first segment that cannot be
sent: the accumulators, the segments sent, and whether all went well. -/
def fanOut (closed : Bool) (packet : EncodedPacket) :
    List SegmentAccumulator → List SegmentAccumulator × List EncodedSegment × Bool
  | [] => ([], [], true)
  | acc :: accs =>
    match acc.push packet with
    | (none, acc) =>
      let (accs, segments, sent) := fanOut closed packet accs
      (acc :: accs, segments, sent)
    | (some segment, acc) =>
      if closed then (acc :: accs, [], false)
      else
        let (accs, segments, sent) := fanOut closed packet accs
        (acc :: accs, segment :: segments, sent)

/-- Process a demuxed frame through all rendition accumulators. `closed`: the packager
has dropped its end of the segment channel. -/
def processFrame (closed : Bool) (accs : List SegmentAccumulator) (frame : DemuxedFrame) :
    List SegmentAccumulator × List EncodedSegment × Except TranscodeError Unit :=
  let (accs, segments, sent) :=
    fanOut closed (.ofFrame frame) (accs.map (takeAudioParams frame))
  (accs, segments, if sent then .ok () else .error (.cancelled frame.streamId))

/-- A push keeps to the rendition of the accumulator; it numbers a segment that it closes and
counts on. -/
theorem push_outcome (acc : SegmentAccumulator) (packet : EncodedPacket) :
    (acc.push packet).2.rendition = acc.rendition ∧
      ((acc.push packet).1 = none ∧ (acc.push packet).2.nextSequence = acc.nextSequence ∨
        ∃ segment, (acc.push packet).1 = some segment ∧ segment.rendition = acc.rendition ∧
          segment.sequence = acc.nextSequence ∧
          (acc.push packet).2.nextSequence = acc.nextSequence + 1) := by
  have hrendition : (acc.buffer packet).rendition = acc.rendition := by
    cases hs : acc.segmentStartPts <;> cases ha : packet.isAudio <;>
      simp [SegmentAccumulator.buffer, hs, ha]
  have hnext := (SegmentAccumulator.buffer_fixed acc packet).1
  simp only [SegmentAccumulator.push]
  split
  · split
    · exact ⟨hrendition, Or.inr ⟨_, rfl, hrendition, hnext, congrArg (· + 1) hnext⟩⟩
    · exact ⟨hrendition, Or.inl ⟨rfl, hnext⟩⟩
  · exact ⟨hrendition, Or.inl ⟨rfl, hnext⟩⟩

/-- The segment of a flush is the next one of the accumulator's rendition. -/
theorem flush_outcome {acc : SegmentAccumulator} {segment : EncodedSegment}
    (h : acc.flush = some segment) :
    segment.rendition = acc.rendition ∧ segment.sequence = acc.nextSequence := by
  unfold SegmentAccumulator.flush at h
  split at h
  · cases h
  · obtain rfl := Option.some.inj h
    exact ⟨rfl, rfl⟩

/-- The audio parameters are all that changes before a packet is pushed. -/
theorem takeAudioParams_outcome (frame : DemuxedFrame) (acc : SegmentAccumulator) :
    (takeAudioParams frame acc).rendition = acc.rendition ∧
      (takeAudioParams frame acc).nextSequence = acc.nextSequence := by
  unfold takeAudioParams
  split <;> exact ⟨rfl, rfl⟩

theorem isLast_push {acc acc' : SegmentAccumulator} {packet : EncodedPacket}
    {segment : EncodedSegment} (h : acc.push packet = (some segment, acc')) :
    segment.isLast = false := by
  simp only [SegmentAccumulator.push] at h
  split at h
  · split at h
    · obtain ⟨hsegment, -⟩ := Prod.mk.inj h
      obtain rfl := Option.some.inj hsegment
      rfl
    · simp at h
  · simp at h

/-- Segments sent while frames are processed are not the last ones. -/
theorem isLast_fanOut (closed : Bool) (packet : EncodedPacket) (accs : List SegmentAccumulator) :
    ∀ segment ∈ (fanOut closed packet accs).2.1, segment.isLast = false := by
  induction accs with
  | nil => simp [fanOut]
  | cons acc accs ih =>
    intro segment hmem
    simp only [fanOut] at hmem
    split at hmem
    · exact ih segment hmem
    · rename_i first acc' hpush
      split at hmem
      · cases hmem
      · rcases List.mem_cons.mp hmem with rfl | hmem
        · exact isLast_push hpush
        · exact ih segment hmem

theorem isLast_processFrame (closed : Bool) (accs : List SegmentAccumulator)
    (frame : DemuxedFrame) :
    ∀ segment ∈ (processFrame closed accs frame).2.1, segment.isLast = false :=
  isLast_fanOut closed _ _

end StreamInfa.Transcode
