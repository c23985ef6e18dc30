import StreamInfa.Core.Error
import StreamInfa.Ingest.BitReader
import StreamInfa.Ingest.ChunkReader

/-!
The FLV demuxer (`src/ingest/demuxer.rs`): from RTMP audio and video messages to
elementary-stream frames.

The demuxer is updated in place, also on the way to an error; `DemuxM` keeps the
changes made before one.
-/

namespace StreamInfa.Ingest

/-- The state of a demuxer. -/
structure FlvDemuxer where
  streamId : StreamId
  hasVideoSeqHeader : Bool
  hasAudioSeqHeader : Bool
  sps : Option Bytes
  pps : Option Bytes
  videoWidth : UInt32
  videoHeight : UInt32
  audioSampleRate : UInt32
  audioChannels : UInt8
  audioCodec : Option AudioCodec
  firstPts : Option Int64
deriving DecidableEq, Repr

def FlvDemuxer.new (streamId : StreamId) : FlvDemuxer where
  streamId := streamId
  hasVideoSeqHeader := false
  hasAudioSeqHeader := false
  sps := none
  pps := none
  videoWidth := 0
  videoHeight := 0
  audioSampleRate := 44100
  audioChannels := 2
  audioCodec := none
  firstPts := none

def FlvDemuxer.hasSequenceHeader (demuxer : FlvDemuxer) : Bool := demuxer.hasVideoSeqHeader

/-- Operations on a demuxer. An error keeps the changes made so far. -/
abbrev DemuxM := ExceptT IngestError (StateM FlvDemuxer)

section Run

variable {α β : Type} {x : DemuxM α} {f : α → DemuxM β} {d d' : FlvDemuxer}

theorem DemuxM.run_bind_eq (x : DemuxM α) (f : α → DemuxM β) (d : FlvDemuxer) :
    (x >>= f).run.run d =
      match x.run.run d with
      | (.ok a, d') => (f a).run.run d'
      | (.error e, d') => (.error e, d') := by
  rw [ExceptT.run_bind, StateT.run_bind]
  rcases x.run.run d with ⟨_ | a, d'⟩ <;> rfl

/-- Sequencing behind an operation that succeeds. -/
theorem DemuxM.run_bind {a : α} (h : x.run.run d = (.ok a, d')) :
    (x >>= f).run.run d = (f a).run.run d' := by
  rw [DemuxM.run_bind_eq, h]

/-- A sequence that succeeds is a success of both. -/
theorem DemuxM.run_bind_eq_ok {b : β} (h : (x >>= f).run.run d = (.ok b, d')) :
    ∃ a d₁, x.run.run d = (.ok a, d₁) ∧ (f a).run.run d₁ = (.ok b, d') := by
  rw [DemuxM.run_bind_eq] at h
  split at h
  · rename_i a d₁ hx
    exact ⟨a, d₁, hx, h⟩
  · cases h

end Run

theorem DemuxM.run_get (d : FlvDemuxer) : (get : DemuxM FlvDemuxer).run.run d = (.ok d, d) := rfl

def maxFlvTagSize : ℕ := 16 * 1024 * 1024

/-! ### Parameter sets -/

/-- A 16-bit length and that many bytes. When the bytes are too few, the rest that the
parser goes on with: behind the length if there was one. -/
def takeParameterSet (data : Bytes) : Except Bytes (Bytes × Bytes) :=
  match takeExact 2 data with
  | none => .error data
  | some (len, rest) =>
    match takeExact (beNat len) rest with
    | none => .error rest
    | some (unit, rest) => .ok (unit, rest)

/-- Store up to `n` sequence parameter sets, each time with the dimensions if it has
any; returns the bytes behind them. -/
def readSpsEntries (data : Bytes) : ℕ → DemuxM Bytes
  | 0 => return data
  | n + 1 =>
    match takeParameterSet data with
    | .error rest => return rest
    | .ok (sps, rest) => do
      modify fun d => { d with sps := some sps }
      if 4 < sps.length then
        match parseSpsDimensions sps with
        | some (width, height) =>
          modify fun d => { d with videoWidth := width, videoHeight := height }
        | none => pure ()
      readSpsEntries rest n

/-- Store up to `n` picture parameter sets. -/
def readPpsEntries (data : Bytes) : ℕ → DemuxM Unit
  | 0 => return ()
  | n + 1 =>
    match takeParameterSet data with
    | .error _ => return ()
    | .ok (pps, rest) => do
      modify fun d => { d with pps := some pps }
      readPpsEntries rest n

/-- AVCDecoderConfigurationRecord. -/
def parseAvcDecoderConfig (data : Bytes) : DemuxM Unit := do
  if data.length < 7 then
    throw (.corruptNalu "AVC decoder config too short".toList)
  let numSps := (data.getD 5 0).toNat % 32
  let rest ← readSpsEntries (data.drop 6) numSps
  match rest with
  | numPps :: rest => readPpsEntries rest numPps.toNat
  | [] => pure ()
  let d ← get
  if d.videoWidth = 0 ∨ d.videoHeight = 0 then
    throw (.invalidResolution d.videoWidth d.videoHeight)
  if 3840 < d.videoWidth ∨ 2160 < d.videoHeight then
    throw (.invalidResolution d.videoWidth d.videoHeight)

/-- The sample rate of a sampling frequency index. -/
def sampleRateOf : ℕ → UInt32
  | 0 => 96000
  | 1 => 88200
  | 2 => 64000
  | 3 => 48000
  | 4 => 44100
  | 5 => 32000
  | 6 => 24000
  | 7 => 22050
  | 8 => 16000
  | 9 => 12000
  | 10 => 11025
  | 11 => 8000
  | _ => 44100

/-- AudioSpecificConfig; a short one leaves the defaults. -/
def parseAudioSpecificConfig (data : Bytes) : DemuxM Unit := do
  match data with
  | b₀ :: b₁ :: _ =>
    let freqIndex := b₀.toNat % 8 * 2 + b₁.toNat / 128
    let channelConfig := b₁.toNat / 8 % 16
    modify fun d => { d with
      audioSampleRate := sampleRateOf freqIndex
      audioChannels := if channelConfig = 1 then 1 else 2 }
  | _ => return ()

/-! ### Frames -/

/-- The Annex-B start code. -/
def startCode : Bytes := [0x00, 0x00, 0x00, 0x01]

def nalTypeIdr : ℕ := 5

/-- Length-prefixed NAL units to Annex B, and whether one is an IDR slice. `pos` is the
offset of `data`, and up to three bytes behind the last unit are dropped. -/
def extractNalusFrom (pos : ℕ) (data : Bytes) : Except IngestError (Bool × Bytes) :=
  match _hlen : takeExact 4 data with
  | none => .ok (false, [])
  | some (len, rest) =>
    match _hunit : takeExact (beNat len) rest with
    | none =>
      .error (.corruptNalu ("NALU length ".toList ++ decimal (beNat len) ++
        " exceeds remaining data ".toList ++ decimal rest.length ++ " at offset ".toList ++
        decimal (pos + 4)))
    | some (unit, rest) => do
      let (keyframe, output) ← extractNalusFrom (pos + 4 + beNat len) rest
      match unit with
      | [] => return (keyframe, output)
      | header :: _ =>
        return (header.toNat % 32 == nalTypeIdr || keyframe, startCode ++ unit ++ output)
termination_by data.length
decreasing_by
  obtain ⟨rfl, hfour⟩ := takeExact_eq_some _hlen
  obtain ⟨rfl, -⟩ := takeExact_eq_some _hunit
  simp only [List.length_append, hfour]
  omega

def extractNalus (data : Bytes) : Except IngestError (Bool × Bytes) := extractNalusFrom 0 data

/-- Timestamps start at 0. -/
def normalizePts (pts : Int64) : DemuxM Int64 := do
  match (← get).firstPts with
  | some first => return pts - first
  | none =>
    modify fun d => { d with firstPts := some pts }
    return 0

/-- The first timestamp is the start of the ones behind it, and its own. -/
theorem run_normalizePts (pts : Int64) (d : FlvDemuxer) :
    (normalizePts pts).run.run d =
      (.ok (pts - d.firstPts.getD pts), { d with firstPts := some (d.firstPts.getD pts) }) := by
  rw [normalizePts, DemuxM.run_bind (DemuxM.run_get d)]
  obtain ⟨streamId, videoHeader, audioHeader, sps, pps, width, height, rate, channels, codec,
    firstPts⟩ := d
  cases firstPts with
  | none =>
    rw [Option.getD_none, Int64.sub_self]
    rfl
  | some first => rfl

/-- A signed 24-bit composition offset. -/
def compositionOffset (b₂ b₃ b₄ : UInt8) : ℤ :=
  let n : ℤ := beNat [b₂, b₃, b₄]
  if 128 ≤ b₂.toNat then n - 2 ^ 24 else n

/-- A video tag body: frame type and codec, packet type, composition offset, data. -/
def demuxVideo (data : Bytes) (timestampMs : UInt32) : DemuxM (Option DemuxedFrame) :=
  match data with
  | b₀ :: avcPacketType :: b₂ :: b₃ :: b₄ :: body => do
    let codecId := b₀.toNat % 16
    let frameType := b₀.toNat / 16
    if codecId ≠ 7 then
      throw (.invalidCodec "h264 (CodecID=7)".toList ("CodecID=".toList ++ decimal codecId))
    let cts := compositionOffset b₂ b₃ b₄
    match avcPacketType.toNat with
    | 0 =>
      parseAvcDecoderConfig body
      modify fun d => { d with hasVideoSeqHeader := true }
      return none
    | 1 =>
      let d ← get
      -- Frames before the sequence header are dropped.
      if !d.hasVideoSeqHeader then return none
      let (keyframe, naluBytes) ← liftExcept (extractNalus body)
      let isKeyframe := keyframe || frameType == 1
      let frameData := match isKeyframe, d.sps, d.pps with
        | true, some sps, some pps => startCode ++ sps ++ startCode ++ pps ++ naluBytes
        | _, _, _ => naluBytes
      let pts ← normalizePts (.ofInt ((timestampMs.toNat + cts) * 90))
      let dts ← normalizePts (.ofInt (timestampMs.toNat * 90))
      return some ⟨d.streamId, .video .h264 d.videoWidth d.videoHeight, pts, dts, isKeyframe,
        frameData⟩
    | _ => return none
  | _ => throw (.corruptNalu "video tag too short".toList)
where
  /-- Raise the error of a function that does not touch the demuxer. -/
  liftExcept {α : Type} (x : Except IngestError α) : DemuxM α := ExceptT.mk (pure x)

/-- An audio frame of the current parameters. -/
def audioFrame (codec : AudioCodec) (timestampMs : UInt32) (data : Bytes) :
    DemuxM (Option DemuxedFrame) := do
  let pts ← normalizePts (.ofInt (timestampMs.toNat * 90))
  let d ← get
  return some ⟨d.streamId, .audio codec d.audioSampleRate d.audioChannels, pts, pts, true, data⟩

/-- An audio tag body: sound format, then for AAC the packet type, then data. -/
def demuxAudio (data : Bytes) (timestampMs : UInt32) : DemuxM (Option DemuxedFrame) :=
  match data with
  | [] => return none
  | b₀ :: body =>
    match b₀.toNat / 16 with
    | 10 =>
      match body with
      | [] => return none
      | aacPacketType :: body =>
        match aacPacketType.toNat with
        | 0 => do
          parseAudioSpecificConfig body
          modify fun d => { d with audioCodec := some .aac, hasAudioSeqHeader := true }
          return none
        | 1 => do
          if !(← get).hasAudioSeqHeader then return none
          audioFrame .aac timestampMs body
        | _ => return none
    | 2 => do
      modify fun d => { d with audioCodec := some .mp3 }
      audioFrame .mp3 timestampMs body
    | _ => return none

def demuxFlvTag (msg : RtmpMessage) : DemuxM (Option DemuxedFrame) := do
  if msg.data = [] then return none
  if maxFlvTagSize < msg.data.length then
    throw (.corruptNalu ("FLV tag size ".toList ++ decimal msg.data.length ++
      " exceeds max ".toList ++ decimal maxFlvTagSize))
  match msg.msgType with
  | .video => demuxVideo msg.data msg.timestamp
  | .audio => demuxAudio msg.data msg.timestamp
  | _ => return none

/-! ### What a tag can do -/

section Outcome

variable {timestampMs : UInt32} {d : FlvDemuxer}

/-- An audio tag sets audio parameters, and may then emit a frame. -/
inductive AudioOutcome (timestampMs : UInt32) (d : FlvDemuxer) :
    Except IngestError (Option DemuxedFrame) × FlvDemuxer → Prop
  | silent (rate : UInt32) (channels : UInt8) (codec : Option AudioCodec) (seqHeader : Bool) :
      AudioOutcome timestampMs d (.ok none, { d with
        audioSampleRate := rate, audioChannels := channels, audioCodec := codec
        hasAudioSeqHeader := seqHeader })
  | frame (codec : Option AudioCodec) {frame : DemuxedFrame}
      (htrack : ∃ codec rate channels, frame.track = .audio codec rate channels)
      (hpts : frame.pts = .ofInt (timestampMs.toNat * 90) -
        d.firstPts.getD (.ofInt (timestampMs.toNat * 90)))
      (hdts : frame.dts = frame.pts) :
      AudioOutcome timestampMs d (.ok (some frame), { d with
        audioCodec := codec
        firstPts := some (d.firstPts.getD (.ofInt (timestampMs.toNat * 90))) })

theorem audioOutcome_audioFrame (codec : AudioCodec) (data : Bytes) (known : Option AudioCodec) :
    AudioOutcome timestampMs d
      ((audioFrame codec timestampMs data).run.run { d with audioCodec := known }) := by
  rw [audioFrame, DemuxM.run_bind (run_normalizePts _ _), DemuxM.run_bind (DemuxM.run_get _)]
  exact .frame known ⟨_, _, _, rfl⟩ rfl rfl

theorem demuxAudio_outcome (data : Bytes) (timestampMs : UInt32) (d : FlvDemuxer) :
    AudioOutcome timestampMs d ((demuxAudio data timestampMs).run.run d) := by
  have hkept : AudioOutcome timestampMs d (.ok none, d) := .silent _ _ _ _
  unfold demuxAudio
  split
  · exact hkept
  · split
    · split
      · exact hkept
      · split
        · unfold parseAudioSpecificConfig
          split
          · exact .silent _ _ _ _
          · exact .silent _ _ _ _
        · rw [DemuxM.run_bind (DemuxM.run_get d)]
          split
          · exact hkept
          · exact audioOutcome_audioFrame .aac _ d.audioCodec
        · exact hkept
    · exact audioOutcome_audioFrame .mp3 _ (some .mp3)
    · exact hkept

/-- A video tag is refused or dropped, holds a configuration record, or units of a frame. -/
inductive VideoOutcome (data : Bytes) (timestampMs : UInt32) (d : FlvDemuxer) :
    Except IngestError (Option DemuxedFrame) × FlvDemuxer → Prop
  | failed (e : IngestError) : VideoOutcome data timestampMs d (.error e, d)
  | dropped : VideoOutcome data timestampMs d (.ok none, d)
  | record {b₀ b₁ b₂ b₃ b₄ : UInt8} {body : Bytes}
      (hdata : data = b₀ :: b₁ :: b₂ :: b₃ :: b₄ :: body) (hcodec : b₀.toNat % 16 = 7)
      (hpacket : b₁.toNat = 0) :
      VideoOutcome data timestampMs d ((do
        parseAvcDecoderConfig body
        modify fun d => { d with hasVideoSeqHeader := true }
        return none : DemuxM (Option DemuxedFrame)).run.run d)
  | units {b₀ b₁ b₂ b₃ b₄ : UInt8} {body naluBytes : Bytes} {keyframe : Bool}
      {frame : DemuxedFrame} {first : Int64} (hdata : data = b₀ :: b₁ :: b₂ :: b₃ :: b₄ :: body)
      (hseq : d.hasVideoSeqHeader = true) (hnalus : extractNalus body = .ok (keyframe, naluBytes))
      (hfirst : first = d.firstPts.getD
        (.ofInt ((timestampMs.toNat + compositionOffset b₂ b₃ b₄) * 90)))
      (hframe : frame =
        { streamId := d.streamId
          track := .video .h264 d.videoWidth d.videoHeight
          pts := .ofInt ((timestampMs.toNat + compositionOffset b₂ b₃ b₄) * 90) - first
          dts := .ofInt (timestampMs.toNat * 90) - first
          keyframe := keyframe || b₀.toNat / 16 == 1
          data := match keyframe || b₀.toNat / 16 == 1, d.sps, d.pps with
            | true, some sps, some pps => startCode ++ sps ++ startCode ++ pps ++ naluBytes
            | _, _, _ => naluBytes }) :
      VideoOutcome data timestampMs d (.ok (some frame), { d with firstPts := some first })

theorem demuxVideo_outcome (data : Bytes) (timestampMs : UInt32) (d : FlvDemuxer) :
    VideoOutcome data timestampMs d ((demuxVideo data timestampMs).run.run d) := by
  match hdata : data with
  | [] | [_] | [_, _] | [_, _, _] | [_, _, _, _] => exact .failed _
  | b₀ :: b₁ :: b₂ :: b₃ :: b₄ :: body =>
    unfold demuxVideo
    dsimp only
    split
    · exact .failed _
    · rename_i hcodec
      split
      · rename_i hpacket
        exact .record rfl (not_not.mp hcodec) hpacket
      · rw [DemuxM.run_bind (DemuxM.run_get d)]
        split
        · exact .dropped
        · rename_i hseq
          cases hnalus : extractNalus body with
          | error e => exact .failed e
          | ok units =>
            have hlift : (demuxVideo.liftExcept (.ok units)).run.run d = (.ok units, d) := rfl
            rw [DemuxM.run_bind hlift, DemuxM.run_bind (run_normalizePts _ d),
              DemuxM.run_bind (run_normalizePts _ _)]
            exact .units rfl (by simpa using hseq) hnalus rfl rfl
      · exact .dropped

theorem demuxFlvTag_eq {msg : RtmpMessage} (hne : msg.data ≠ [])
    (hsize : msg.data.length ≤ maxFlvTagSize) :
    demuxFlvTag msg =
      match msg.msgType with
      | .video => demuxVideo msg.data msg.timestamp
      | .audio => demuxAudio msg.data msg.timestamp
      | _ => return none := by
  unfold demuxFlvTag
  exact (if_neg hne).trans (if_neg (Nat.not_lt.mpr hsize))

/-- A message is refused or ignored, or it is a tag. -/
inductive TagOutcome (msg : RtmpMessage) (d : FlvDemuxer) :
    Except IngestError (Option DemuxedFrame) × FlvDemuxer → Prop
  | failed (e : IngestError) : TagOutcome msg d (.error e, d)
  | ignored : TagOutcome msg d (.ok none, d)
  | video {out : Except IngestError (Option DemuxedFrame) × FlvDemuxer}
      (htype : msg.msgType = .video) (hsize : msg.data.length ≤ maxFlvTagSize)
      (hout : VideoOutcome msg.data msg.timestamp d out) : TagOutcome msg d out
  | audio {out : Except IngestError (Option DemuxedFrame) × FlvDemuxer}
      (hout : AudioOutcome msg.timestamp d out) : TagOutcome msg d out

theorem demuxFlvTag_outcome (msg : RtmpMessage) (d : FlvDemuxer) :
    TagOutcome msg d ((demuxFlvTag msg).run.run d) := by
  by_cases hne : msg.data = []
  · simp only [demuxFlvTag, if_pos hne]
    exact .ignored
  by_cases hsize : msg.data.length ≤ maxFlvTagSize
  swap
  · simp only [demuxFlvTag, if_neg hne, if_pos (Nat.lt_of_not_le hsize)]
    exact .failed _
  rw [demuxFlvTag_eq hne hsize]
  split
  · rename_i htype
    exact .video htype hsize (demuxVideo_outcome msg.data msg.timestamp d)
  · exact .audio (demuxAudio_outcome msg.data msg.timestamp d)
  · exact .ignored

end Outcome

end StreamInfa.Ingest
