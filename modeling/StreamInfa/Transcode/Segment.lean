import StreamInfa.Core.Types
import StreamInfa.Lib.Cut

/-!
Segment boundary detection (`src/transcode/segment.rs`).

`SegmentAccumulator.push` buffers packets and emits a segment at the first video
keyframe at or past the target duration; the keyframe that triggers the cut is the
last packet of the segment it closes. `flush` emits what is left as the final
segment, unless no video is buffered.

The second half is what the accumulator is for: `closesSegment` judges a group of
packets by itself, `cutFrom closesSegment` is the segmentation it specifies, and
`pushAll_eq_cut` says that the accumulator computes it.
-/

namespace StreamInfa.Transcode

/-- An encoded packet from the encoder, before segmentation. -/
structure EncodedPacket where
  pts : Int64
  dts : Int64
  keyframe : Bool
  data : Bytes
  isAudio : Bool
deriving DecidableEq, Repr

/-- Accumulates encoded packets and emits segments at keyframes. -/
structure SegmentAccumulator where
  streamId : StreamId
  rendition : RenditionId
  targetDurationSecs : ℚ
  videoBuffer : Bytes
  audioBuffer : Bytes
  segmentStartPts : Option Int64
  segmentKeyframePts : Option Int64
  lastPts : Int64
  nextSequence : ℕ
  hasAudio : Bool
  audioSampleRate : UInt32
  audioChannels : UInt8
  width : UInt32
  height : UInt32
  videoBitrateKbps : UInt32
  audioBitrateKbps : UInt32
  profile : Text
  level : Text
  frameRate : ℚ
deriving DecidableEq, Repr

/-- A distance between two timestamps, in seconds of the 90 kHz clock. -/
def ticksToSecs (ticks : Int64) : ℚ := (ticks.toInt : ℚ) / 90000

namespace SegmentAccumulator

def new (streamId : StreamId) (rendition : RenditionId) (targetDurationSecs : ℚ)
    (width height videoBitrateKbps audioBitrateKbps : UInt32) (profile level : Text)
    (frameRate : ℚ) : SegmentAccumulator where
  streamId := streamId
  rendition := rendition
  targetDurationSecs := targetDurationSecs
  videoBuffer := []
  audioBuffer := []
  segmentStartPts := none
  segmentKeyframePts := none
  lastPts := 0
  nextSequence := 0
  hasAudio := false
  audioSampleRate := 48000
  audioChannels := 2
  width := width
  height := height
  videoBitrateKbps := videoBitrateKbps
  audioBitrateKbps := audioBitrateKbps
  profile := profile
  level := level
  frameRate := frameRate

def setAudioParams (acc : SegmentAccumulator) (sampleRate : UInt32) (channels : UInt8) :
    SegmentAccumulator :=
  { acc with audioSampleRate := sampleRate, audioChannels := channels }

/-- Emit the accumulated data as a segment. An empty audio buffer is left alone
and reported as no audio. -/
def emitSegment (acc : SegmentAccumulator) (isLast : Bool) :
    EncodedSegment × SegmentAccumulator :=
  let startPts := acc.segmentStartPts.getD 0
  let emitAudio := acc.hasAudio && !acc.audioBuffer.isEmpty
  let segment : EncodedSegment :=
    { streamId := acc.streamId
      rendition := acc.rendition
      sequence := acc.nextSequence
      durationSecs := ticksToSecs (acc.lastPts - startPts)
      ptsStart := startPts
      videoData := acc.videoBuffer
      audioData := if emitAudio then some acc.audioBuffer else none
      audioSampleRate := acc.audioSampleRate
      audioChannels := acc.audioChannels
      isLast := isLast
      width := acc.width
      height := acc.height
      videoBitrateKbps := acc.videoBitrateKbps
      audioBitrateKbps := acc.audioBitrateKbps
      profile := acc.profile
      level := acc.level
      frameRate := acc.frameRate }
  (segment,
    { acc with
      videoBuffer := []
      audioBuffer := if emitAudio then [] else acc.audioBuffer
      nextSequence := acc.nextSequence + 1
      segmentStartPts := none
      segmentKeyframePts := none })

/-- The state after buffering a packet, before the boundary check. -/
def buffer (acc : SegmentAccumulator) (packet : EncodedPacket) : SegmentAccumulator :=
  let acc :=
    match acc.segmentStartPts with
    | some _ => acc
    | none =>
      { acc with
        segmentStartPts := some packet.pts
        segmentKeyframePts :=
          if packet.keyframe && !packet.isAudio then some packet.pts
          else acc.segmentKeyframePts }
  let acc := { acc with lastPts := packet.pts }
  if packet.isAudio then
    { acc with hasAudio := true, audioBuffer := acc.audioBuffer ++ packet.data }
  else { acc with videoBuffer := acc.videoBuffer ++ packet.data }

/-- Feed a packet; a segment comes out when a boundary was reached. -/
def push (acc : SegmentAccumulator) (packet : EncodedPacket) :
    Option EncodedSegment × SegmentAccumulator :=
  let acc := acc.buffer packet
  if !packet.isAudio && packet.keyframe then
    let start := acc.segmentStartPts.getD 0
    if acc.targetDurationSecs ≤ ticksToSecs (packet.pts - start) then
      (some (acc.emitSegment false).1, (acc.emitSegment false).2)
    else (none, acc)
  else (none, acc)

/-- Flush any remaining data as the final segment. -/
def flush (acc : SegmentAccumulator) : Option EncodedSegment :=
  if acc.videoBuffer.isEmpty then none else some (acc.emitSegment true).1

/-- Push a whole packet sequence, collecting the emitted segments. -/
def pushAll : SegmentAccumulator → List EncodedPacket → List EncodedSegment × SegmentAccumulator
  | acc, [] => ([], acc)
  | acc, p :: ps =>
    ((acc.push p).1.toList ++ (pushAll (acc.push p).2 ps).1, (pushAll (acc.push p).2 ps).2)

/-- Push a whole packet sequence and flush: every segment of the rendition. -/
def segments (acc : SegmentAccumulator) (ps : List EncodedPacket) : List EncodedSegment :=
  (acc.pushAll ps).1 ++ (acc.pushAll ps).2.flush.toList

/-- Every packet with the number of the segment that is open when it is pushed. -/
def openSegments : SegmentAccumulator → List EncodedPacket → List (ℕ × EncodedPacket)
  | _, [] => []
  | acc, p :: ps => (acc.nextSequence, p) :: openSegments (acc.push p).2 ps

end SegmentAccumulator

/-! ### The segmentation the accumulator computes -/

/-- The packets' video bytes, in order. -/
def videoBytes (ps : List EncodedPacket) : Bytes :=
  (ps.filter fun p => !p.isAudio).flatMap (·.data)

/-- The packets' audio bytes, in order. -/
def audioBytes (ps : List EncodedPacket) : Bytes :=
  (ps.filter (·.isAudio)).flatMap (·.data)

/-- A group of packets is closed when its last packet is a video keyframe at least
the target duration after its first packet. -/
def closesSegment (target : ℚ) (g : List EncodedPacket) : Bool :=
  match g.head?, g.getLast? with
  | some a, some b => !b.isAudio && b.keyframe && decide (target ≤ ticksToSecs (b.pts - a.pts))
  | _, _ => false

theorem videoBytes_append (ps qs : List EncodedPacket) :
    videoBytes (ps ++ qs) = videoBytes ps ++ videoBytes qs := by
  simp [videoBytes]

theorem audioBytes_append (ps qs : List EncodedPacket) :
    audioBytes (ps ++ qs) = audioBytes ps ++ audioBytes qs := by
  simp [audioBytes]

/-- Both are computed packet by packet, so `flatMap_cutFrom` applies to them. -/
theorem videoBytes_eq_flatMap (ps : List EncodedPacket) :
    videoBytes ps = ps.flatMap fun p => if p.isAudio then [] else p.data := by
  induction ps with
  | nil => rfl
  | cons p ps ih =>
    rw [← List.singleton_append, videoBytes_append, ih]
    cases h : p.isAudio <;> simp [videoBytes, h]

theorem audioBytes_eq_flatMap (ps : List EncodedPacket) :
    audioBytes ps = ps.flatMap fun p => if p.isAudio then p.data else [] := by
  induction ps with
  | nil => rfl
  | cons p ps ih =>
    rw [← List.singleton_append, audioBytes_append, ih]
    cases h : p.isAudio <;> simp [audioBytes, h]

namespace SegmentAccumulator

/-- The accumulator `acc` holds exactly the packets `o` of its open segment. -/
structure Holds (acc : SegmentAccumulator) (o : List EncodedPacket) : Prop where
  video : acc.videoBuffer = videoBytes o
  audio : acc.audioBuffer = audioBytes o
  start : acc.segmentStartPts = o.head?.map (·.pts)
  last : ∀ p, o.getLast? = some p → acc.lastPts = p.pts
  heard : acc.hasAudio = false → acc.audioBuffer = []

theorem new_holds (streamId : StreamId) (rendition : RenditionId) (target : ℚ)
    (width height videoKbps audioKbps : UInt32) (profile level : Text) (frameRate : ℚ) :
    (new streamId rendition target width height videoKbps audioKbps profile level
      frameRate).Holds [] where
  video := rfl
  audio := rfl
  start := rfl
  last := by simp
  heard := fun _ => rfl

theorem buffer_holds {acc : SegmentAccumulator} {o : List EncodedPacket} (h : acc.Holds o)
    (p : EncodedPacket) : (acc.buffer p).Holds (o ++ [p]) := by
  have hstart : (acc.buffer p).segmentStartPts = (o ++ [p]).head?.map (·.pts) := by
    cases o with
    | nil =>
      have hnone : acc.segmentStartPts = none := h.start
      cases ha : p.isAudio <;> simp [buffer, hnone, ha]
    | cons q o =>
      have hsome : acc.segmentStartPts = some q.pts := h.start
      cases ha : p.isAudio <;> simp [buffer, hsome, ha]
  refine ⟨?_, ?_, hstart, ?_, ?_⟩
  · rw [videoBytes_append, ← h.video]
    cases hs : acc.segmentStartPts <;> cases ha : p.isAudio <;>
      simp [buffer, hs, ha, videoBytes]
  · rw [audioBytes_append, ← h.audio]
    cases hs : acc.segmentStartPts <;> cases ha : p.isAudio <;>
      simp [buffer, hs, ha, audioBytes]
  · intro q hq
    have : q = p := by simpa using hq.symm
    subst this
    cases hs : acc.segmentStartPts <;> cases ha : q.isAudio <;> simp [buffer, hs, ha]
  · have hheard := h.heard
    cases ha : p.isAudio with
    | true => cases hs : acc.segmentStartPts <;> simp [buffer, hs, ha]
    | false => cases hs : acc.segmentStartPts <;> simpa [buffer, hs, ha] using hheard

/-- Buffering touches none of what an emitted segment takes from the accumulator
besides its buffers and timestamps. -/
theorem buffer_fixed (acc : SegmentAccumulator) (p : EncodedPacket) :
    (acc.buffer p).nextSequence = acc.nextSequence ∧
      (acc.buffer p).targetDurationSecs = acc.targetDurationSecs := by
  cases hs : acc.segmentStartPts <;> cases ha : p.isAudio <;> simp [buffer, hs, ha]

/-- What a segment emitted for the packets `o` carries. -/
structure Carries (s : EncodedSegment) (o : List EncodedPacket) : Prop where
  video : s.videoData = videoBytes o
  audio : s.audioData.getD [] = audioBytes o
  ptsStart : s.ptsStart = (o.head?.map (·.pts)).getD 0
  duration : ∀ p, o.getLast? = some p →
    s.durationSecs = ticksToSecs (p.pts - (o.head?.map (·.pts)).getD 0)

theorem emitSegment_carries {acc : SegmentAccumulator} {o : List EncodedPacket} (h : acc.Holds o)
    (isLast : Bool) : Carries (acc.emitSegment isLast).1 o where
  video := h.video
  audio := by
    rw [← h.audio]
    have := h.heard
    cases hh : acc.hasAudio with
    | false => simp [emitSegment, hh, this hh]
    | true => cases hb : acc.audioBuffer <;> simp [emitSegment, hh, hb]
  ptsStart := by simp [emitSegment, h.start]
  duration := by
    intro p hp
    simp [emitSegment, h.start, h.last p hp]

theorem emitSegment_holds {acc : SegmentAccumulator} {o : List EncodedPacket} (h : acc.Holds o)
    (isLast : Bool) : (acc.emitSegment isLast).2.Holds [] := by
  have hempty : (acc.emitSegment isLast).2.audioBuffer = [] := by
    have := h.heard
    cases hh : acc.hasAudio with
    | false => simp [emitSegment, hh, this hh]
    | true => cases hb : acc.audioBuffer <;> simp [emitSegment, hh, hb]
  exact ⟨rfl, hempty, rfl, by simp, fun _ => hempty⟩

@[simp] theorem emitSegment_sequence (acc : SegmentAccumulator) (isLast : Bool) :
    (acc.emitSegment isLast).1.sequence = acc.nextSequence := rfl

@[simp] theorem emitSegment_isLast (acc : SegmentAccumulator) (isLast : Bool) :
    (acc.emitSegment isLast).1.isLast = isLast := rfl

@[simp] theorem emitSegment_nextSequence (acc : SegmentAccumulator) (isLast : Bool) :
    (acc.emitSegment isLast).2.nextSequence = acc.nextSequence + 1 := rfl

@[simp] theorem emitSegment_target (acc : SegmentAccumulator) (isLast : Bool) :
    (acc.emitSegment isLast).2.targetDurationSecs = acc.targetDurationSecs := rfl

/-- The boundary check of `push` is `closesSegment` on the open group. -/
theorem push_eq {acc : SegmentAccumulator} {o : List EncodedPacket} (h : acc.Holds o)
    (p : EncodedPacket) :
    acc.push p =
      if closesSegment acc.targetDurationSecs (o ++ [p]) then
        (some ((acc.buffer p).emitSegment false).1, ((acc.buffer p).emitSegment false).2)
      else (none, acc.buffer p) := by
  have hb := buffer_holds h p
  obtain ⟨a, ha⟩ : ∃ a, (o ++ [p]).head? = some a := by
    cases o with
    | nil => exact ⟨p, rfl⟩
    | cons q o => exact ⟨q, rfl⟩
  have hstart : (acc.buffer p).segmentStartPts.getD 0 = a.pts := by
    simp [hb.start, ha]
  have hcloses : closesSegment acc.targetDurationSecs (o ++ [p]) =
      (!p.isAudio && p.keyframe &&
        decide (acc.targetDurationSecs ≤ ticksToSecs (p.pts - a.pts))) := by
    simp [closesSegment, ha]
  rw [push, hcloses, hstart, (buffer_fixed acc p).2]
  cases p.isAudio <;> cases p.keyframe <;> simp

/-- One push: either the open group is closed and comes out as the next segment,
or the packet joins the open group. -/
theorem push_cases {acc : SegmentAccumulator} {o : List EncodedPacket} (h : acc.Holds o)
    (p : EncodedPacket) :
    (closesSegment acc.targetDurationSecs (o ++ [p]) = true ∧
        ∃ s acc', acc.push p = (some s, acc') ∧ Carries s (o ++ [p]) ∧ s.isLast = false ∧
          s.sequence = acc.nextSequence ∧ acc'.nextSequence = acc.nextSequence + 1 ∧
          acc'.targetDurationSecs = acc.targetDurationSecs ∧ acc'.Holds []) ∨
      (closesSegment acc.targetDurationSecs (o ++ [p]) = false ∧
        ∃ acc', acc.push p = (none, acc') ∧ acc'.nextSequence = acc.nextSequence ∧
          acc'.targetDurationSecs = acc.targetDurationSecs ∧ acc'.Holds (o ++ [p])) := by
  have hb := buffer_holds h p
  have hf := buffer_fixed acc p
  have hpush := push_eq h p
  cases hc : closesSegment acc.targetDurationSecs (o ++ [p]) with
  | true =>
    rw [hc, if_pos rfl] at hpush
    exact .inl ⟨rfl, _, _, hpush, emitSegment_carries hb false, rfl, hf.1,
      congrArg (· + 1) hf.1, hf.2, emitSegment_holds hb false⟩
  | false =>
    rw [hc, if_neg (by decide)] at hpush
    exact .inr ⟨rfl, _, hpush, hf.1, hf.2, hb⟩

/-- **The accumulator computes the cut.** Pushing `ps` onto an accumulator holding
`o` emits one segment per group closed, carrying that group and numbered from
`nextSequence` on, and holds the rest. -/
theorem pushAll_eq_cut {acc : SegmentAccumulator} {o : List EncodedPacket} (h : acc.Holds o)
    (ps : List EncodedPacket) :
    let cut := cutFrom (closesSegment acc.targetDurationSecs) o ps
    let out := acc.pushAll ps
    List.Forall₂ Carries out.1 cut.1 ∧
      out.1.map (·.sequence) = List.range' acc.nextSequence cut.1.length ∧
      (∀ s ∈ out.1, s.isLast = false) ∧
      out.2.nextSequence = acc.nextSequence + cut.1.length ∧ out.2.Holds cut.2 := by
  induction ps generalizing acc o with
  | nil => simp [pushAll, cutFrom, h]
  | cons p ps ih =>
    rcases push_cases h p with
      ⟨hc, s, acc', hpush, hcarries, hlast, hseq, hnext, htarget, hholds⟩ |
      ⟨hc, acc', hpush, hnext, htarget, hholds⟩
    · obtain ⟨hall, hseqs, hlasts, hcount, hrest⟩ := ih hholds
      rw [htarget] at hall hseqs hcount hrest
      simp only [pushAll, hpush, cutFrom_cons_of_closes hc, Option.toList_some,
        List.singleton_append, List.map_cons, List.length_cons]
      refine ⟨.cons hcarries hall, ?_, ?_, ?_, hrest⟩
      · rw [hseqs, hseq, hnext, List.range'_succ]
      · rintro t (_ | ⟨_, ht⟩)
        · exact hlast
        · exact hlasts t ht
      · rw [hcount, hnext]
        omega
    · obtain ⟨hall, hseqs, hlasts, hcount, hrest⟩ := ih hholds
      rw [htarget] at hall hseqs hcount hrest
      simp only [pushAll, hpush, cutFrom_cons_of_not_closes hc, Option.toList_none,
        List.nil_append]
      exact ⟨hall, by rw [hseqs, hnext], hlasts, by rw [hcount, hnext], hrest⟩

/-- The segment open at each push is the group open at that point of the cut. -/
theorem openSegments_eq_stamp {acc : SegmentAccumulator} {o : List EncodedPacket}
    (h : acc.Holds o) (ps : List EncodedPacket) :
    acc.openSegments ps =
      stampFrom (closesSegment acc.targetDurationSecs) acc.nextSequence o ps := by
  induction ps generalizing acc o with
  | nil => rfl
  | cons p ps ih =>
    rcases push_cases h p with
      ⟨hc, s, acc', hpush, -, -, -, hnext, htarget, hholds⟩ |
      ⟨hc, acc', hpush, hnext, htarget, hholds⟩
    · rw [openSegments, stampFrom, if_pos hc, hpush, ih hholds, htarget, hnext]
    · rw [openSegments, stampFrom, if_neg (by simp [hc]), hpush, ih hholds, htarget, hnext]

end SegmentAccumulator

end StreamInfa.Transcode
