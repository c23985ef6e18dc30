import StreamInfa.Ingest.LiveStream

/-!
What demux errors leave behind (`src/ingest/demuxer.rs` and `run_demux_loop` of
`src/ingest/rtmp.rs`).

A configuration record is stored while it is read and checked at the end, so one that is
rejected for its resolution stays stored; `untraced_iff` says exactly when errors leave
the demuxer as it was and every frame carries dimensions in range. The demux loop counts
errors in a row, but every message read clears the count; `disconnects_iff` says what is
left of the limit.
-/

namespace StreamInfa.Ingest

/-! ### What a configuration record holds -/

/-- Up to `n` parameter sets and the bytes behind them. -/
def parameterSets (data : Bytes) : ℕ → List Bytes × Bytes
  | 0 => ([], data)
  | n + 1 =>
    match takeParameterSet data with
    | .error rest => ([], rest)
    | .ok (unit, rest) => (unit :: (parameterSets rest n).1, (parameterSets rest n).2)

/-- The complete sequence parameter sets of a configuration record. -/
def recordSps (data : Bytes) : List Bytes :=
  (parameterSets (data.drop 6) ((data.getD 5 0).toNat % 32)).1

/-- The complete picture parameter sets of a configuration record. -/
def recordPps (data : Bytes) : List Bytes :=
  match (parameterSets (data.drop 6) ((data.getD 5 0).toNat % 32)).2 with
  | numPps :: rest => (parameterSets rest numPps.toNat).1
  | [] => []

/-- The dimensions of a sequence parameter set of a record, if it has any. -/
def spsDimensions (sps : Bytes) : Option (UInt32 × UInt32) :=
  if 4 < sps.length then parseSpsDimensions sps else none

/-- The dimensions of the last of the sets that has any, else those already known. -/
def lastDimensions (sets : List Bytes) (known : UInt32 × UInt32) : UInt32 × UInt32 :=
  (sets.filterMap spsDimensions).getLast?.getD known

/-- The resolution is accepted. -/
def ValidDimensions (dims : UInt32 × UInt32) : Prop :=
  0 < dims.1 ∧ dims.1 ≤ 3840 ∧ 0 < dims.2 ∧ dims.2 ≤ 2160

instance (dims : UInt32 × UInt32) : Decidable (ValidDimensions dims) :=
  inferInstanceAs (Decidable (_ ∧ _))

namespace FlvDemuxer

def dimensions (d : FlvDemuxer) : UInt32 × UInt32 := (d.videoWidth, d.videoHeight)

/-- One sequence parameter set stored. -/
def takeSps (d : FlvDemuxer) (sps : Bytes) : FlvDemuxer :=
  { d with
    sps := some sps
    videoWidth := ((spsDimensions sps).getD d.dimensions).1
    videoHeight := ((spsDimensions sps).getD d.dimensions).2 }

/-- The sequence parameter sets of a record stored. -/
def storeSps (d : FlvDemuxer) (sets : List Bytes) : FlvDemuxer :=
  { d with
    sps := sets.getLast?.or d.sps
    videoWidth := (lastDimensions sets d.dimensions).1
    videoHeight := (lastDimensions sets d.dimensions).2 }

def storePps (d : FlvDemuxer) (sets : List Bytes) : FlvDemuxer :=
  { d with pps := sets.getLast?.or d.pps }

end FlvDemuxer

theorem getLast?_cons_or {α : Type} (a : α) (l : List α) (o : Option α) :
    (a :: l).getLast?.or o = l.getLast?.or (some a) := by
  rw [List.getLast?_cons]
  cases l.getLast? <;> rfl

theorem lastDimensions_cons (unit : Bytes) (sets : List Bytes) (known : UInt32 × UInt32) :
    lastDimensions (unit :: sets) known =
      lastDimensions sets ((spsDimensions unit).getD known) := by
  cases hdims : spsDimensions unit with
  | none => simp [lastDimensions, hdims]
  | some dims => simp [lastDimensions, hdims, List.getLast?_cons]

theorem FlvDemuxer.storeSps_cons (d : FlvDemuxer) (sps : Bytes) (sets : List Bytes) :
    d.storeSps (sps :: sets) = (d.takeSps sps).storeSps sets := by
  simp only [storeSps, getLast?_cons_or, lastDimensions_cons]
  rfl

theorem FlvDemuxer.storePps_cons (d : FlvDemuxer) (pps : Bytes) (sets : List Bytes) :
    d.storePps (pps :: sets) = { d with pps := some pps }.storePps sets := by
  simp only [storePps, getLast?_cons_or]

/-- The sets are stored one after the other. -/
theorem run_readSpsEntries (data : Bytes) (n : ℕ) (d : FlvDemuxer) :
    (readSpsEntries data n).run.run d =
      (.ok (parameterSets data n).2, d.storeSps (parameterSets data n).1) := by
  induction n generalizing data d with
  | zero => rfl
  | succ n ih =>
    simp only [readSpsEntries, parameterSets]
    cases takeParameterSet data with
    | error rest => rfl
    | ok entry =>
      obtain ⟨sps, rest⟩ := entry
      simp only [FlvDemuxer.storeSps_cons]
      rw [← ih, FlvDemuxer.takeSps, spsDimensions]
      by_cases hparse : 4 < sps.length
      · simp only [if_pos hparse]
        cases hdims : parseSpsDimensions sps with
        | none => rfl
        | some dims => rfl
      · simp only [if_neg hparse]
        rfl

theorem run_readPpsEntries (data : Bytes) (n : ℕ) (d : FlvDemuxer) :
    (readPpsEntries data n).run.run d = (.ok (), d.storePps (parameterSets data n).1) := by
  induction n generalizing data d with
  | zero => rfl
  | succ n ih =>
    simp only [readPpsEntries, parameterSets]
    cases takeParameterSet data with
    | error rest => rfl
    | ok entry =>
      obtain ⟨pps, rest⟩ := entry
      simp only [FlvDemuxer.storePps_cons]
      rw [← ih]
      rfl

/-- The demuxer with the sets of a record stored. -/
def FlvDemuxer.storeRecord (d : FlvDemuxer) (data : Bytes) : FlvDemuxer :=
  (d.storeSps (recordSps data)).storePps (recordPps data)

/-- The check of the resolution at the end of a record. -/
theorem run_checkDimensions (d : FlvDemuxer) :
    (do
      let d ← get
      if d.videoWidth = 0 ∨ d.videoHeight = 0 then
        throw (.invalidResolution d.videoWidth d.videoHeight)
      if 3840 < d.videoWidth ∨ 2160 < d.videoHeight then
        throw (.invalidResolution d.videoWidth d.videoHeight) : DemuxM Unit).run.run d =
      (if ValidDimensions d.dimensions then .ok ()
        else .error (.invalidResolution d.videoWidth d.videoHeight), d) := by
  rw [DemuxM.run_bind (DemuxM.run_get d)]
  by_cases hzero : d.videoWidth = 0 ∨ d.videoHeight = 0
  · have hinvalid : ¬ ValidDimensions d.dimensions := by
      rintro ⟨hwidth, -, hheight, -⟩
      rcases hzero with h | h
      · exact UInt32.lt_irrefl _ (h ▸ hwidth)
      · exact UInt32.lt_irrefl _ (h ▸ hheight)
    rw [if_pos hzero, if_neg hinvalid]
    rfl
  · rw [if_neg hzero]
    by_cases hlarge : 3840 < d.videoWidth ∨ 2160 < d.videoHeight
    · have hinvalid : ¬ ValidDimensions d.dimensions := by
        rintro ⟨-, hwidth, -, hheight⟩
        rcases hlarge with h | h
        · exact UInt32.not_le.mpr h hwidth
        · exact UInt32.not_le.mpr h hheight
      rw [if_pos hlarge, if_neg hinvalid]
      rfl
    · rw [not_or] at hzero hlarge
      have hvalid : ValidDimensions d.dimensions :=
        ⟨UInt32.pos_iff_ne_zero.mpr hzero.1, UInt32.not_lt.mp hlarge.1,
          UInt32.pos_iff_ne_zero.mpr hzero.2, UInt32.not_lt.mp hlarge.2⟩
      rw [if_neg (not_or.mpr hlarge), if_pos hvalid]
      rfl

/-- A record is stored whole, and then its resolution is checked. -/
theorem run_parseAvcDecoderConfig {data : Bytes} (hlen : 7 ≤ data.length) (d : FlvDemuxer) :
    (parseAvcDecoderConfig data).run.run d =
      (if ValidDimensions (d.storeRecord data).dimensions then .ok ()
        else .error (.invalidResolution (d.storeRecord data).videoWidth
          (d.storeRecord data).videoHeight),
        d.storeRecord data) := by
  simp only [parseAvcDecoderConfig, if_neg (Nat.not_lt.mpr hlen)]
  rw [DemuxM.run_bind (run_readSpsEntries _ _ d), FlvDemuxer.storeRecord, recordPps]
  cases (parameterSets (data.drop 6) ((data.getD 5 0).toNat % 32)).2 with
  | nil => exact run_checkDimensions _
  | cons numPps rest =>
    simp only
    rw [DemuxM.run_bind (run_readPpsEntries rest numPps.toNat _)]
    exact run_checkDimensions _

/-! ### What a message can do -/

/-- The configuration record of an H.264 sequence header, if the message is one. -/
def avcConfig (msg : RtmpMessage) : Option Bytes :=
  match msg.msgType, msg.data with
  | .video, b₀ :: avcPacketType :: _ :: _ :: _ :: body =>
    if msg.data.length ≤ maxFlvTagSize ∧ b₀.toNat % 16 = 7 ∧ avcPacketType.toNat = 0 ∧
      7 ≤ body.length then some body else none
  | _, _ => none

/-- The video parameters are the same. -/
def SameVideo (d d' : FlvDemuxer) : Prop :=
  d'.hasVideoSeqHeader = d.hasVideoSeqHeader ∧ d'.dimensions = d.dimensions

/-- A frame of video has these dimensions, and a sequence header was received. -/
def FrameOf (d : FlvDemuxer) (frame : DemuxedFrame) : Prop :=
  ∀ codec width height, frame.track = .video codec width height →
    d.hasVideoSeqHeader = true ∧ (width, height) = d.dimensions

/-- A message that holds no configuration record fails without a trace, or leaves the
video parameters alone. -/
inductive Ordinary (d : FlvDemuxer) : Except IngestError (Option DemuxedFrame) × FlvDemuxer → Prop
  | failed (e : IngestError) : Ordinary d (.error e, d)
  | passed {d' : FlvDemuxer} (out : Option DemuxedFrame) (hsame : SameVideo d d')
      (hframe : ∀ frame, out = some frame → FrameOf d frame) : Ordinary d (.ok out, d')

theorem Ordinary.none (d : FlvDemuxer) : Ordinary d (.ok none, d) :=
  .passed _ ⟨rfl, rfl⟩ fun _ h => by cases h

/-- An audio tag has no video parameters. -/
theorem AudioOutcome.ordinary {timestampMs : UInt32} {d : FlvDemuxer}
    {out : Except IngestError (Option DemuxedFrame) × FlvDemuxer}
    (h : AudioOutcome timestampMs d out) : Ordinary d out := by
  cases h with
  | silent => exact .passed none ⟨rfl, rfl⟩ fun _ h => by cases h
  | frame _ htrack =>
    obtain ⟨codec, rate, channels, htrack⟩ := htrack
    refine .passed _ ⟨rfl, rfl⟩ fun frame hframe codec' width height htrack' => ?_
    cases hframe
    rw [htrack] at htrack'
    cases htrack'

/-- A record too short to be one is not stored. -/
theorem run_parseAvcDecoderConfig_short {data : Bytes} (hlen : data.length < 7) (d : FlvDemuxer) :
    (parseAvcDecoderConfig data).run.run d =
      (.error (.corruptNalu "AVC decoder config too short".toList), d) := by
  simp only [parseAvcDecoderConfig, if_pos hlen]
  rfl

/-- A message without a configuration record is `Ordinary`. -/
theorem ordinary_demuxFlvTag {msg : RtmpMessage} (h : avcConfig msg = none) (d : FlvDemuxer) :
    Ordinary d ((demuxFlvTag msg).run.run d) := by
  have houtcome := demuxFlvTag_outcome msg d
  generalize (demuxFlvTag msg).run.run d = out at houtcome
  cases houtcome with
  | failed e => exact .failed e
  | ignored => exact .none d
  | audio hout => exact hout.ordinary
  | video htype hsize hout =>
    cases hout with
    | failed e => exact .failed e
    | dropped => exact .none d
    | @record b₀ b₁ b₂ b₃ b₄ body hdata hcodec hpacket =>
      have hshort : body.length < 7 := by
        by_contra hlong
        simp only [avcConfig, htype, hdata] at h
        rw [if_pos ⟨hdata ▸ hsize, hcodec, hpacket, Nat.le_of_not_lt hlong⟩] at h
        cases h
      rw [DemuxM.run_bind_eq, run_parseAvcDecoderConfig_short hshort]
      exact .failed _
    | units _ hseq _ _ hframe =>
      refine .passed _ ⟨rfl, rfl⟩ fun frame hsome codec width height htrack => ?_
      cases hsome
      rw [hframe] at htrack
      cases htrack
      exact ⟨hseq, rfl⟩

/-- The record of a sequence header is stored before it is checked. -/
theorem run_demuxFlvTag_of_record {msg : RtmpMessage} {record : Bytes}
    (h : avcConfig msg = some record) (d : FlvDemuxer) :
    (demuxFlvTag msg).run.run d =
      if ValidDimensions (d.storeRecord record).dimensions then
        (.ok none, { d.storeRecord record with hasVideoSeqHeader := true })
      else
        (.error (.invalidResolution (d.storeRecord record).videoWidth
          (d.storeRecord record).videoHeight), d.storeRecord record) := by
  unfold avcConfig at h
  split at h
  · rename_i b₀ avcPacketType b₂ b₃ b₄ body hvideo hdata
    split at h
    · rename_i hcond
      obtain ⟨hsize, hcodec, hpacket, hlen⟩ := hcond
      obtain rfl := Option.some.inj h
      rw [demuxFlvTag_eq (by rw [hdata]; exact List.cons_ne_nil _ _) (hdata ▸ hsize), hvideo, hdata]
      simp only [demuxVideo, hcodec, hpacket, ne_eq, not_true_eq_false, if_false]
      rw [DemuxM.run_bind_eq, run_parseAvcDecoderConfig hlen]
      split_ifs <;> rfl
    · cases h
  · cases h

/-! ### Errors without a trace -/

/-- The demuxer goes on after an error with what the error left. -/
def demuxStep (d : FlvDemuxer) (msg : RtmpMessage) : Option FlvDemuxer :=
  some ((demuxFlvTag msg).run.run d).2

/-- If the message is an error, it leaves every field as it was. -/
def Untraced (d : FlvDemuxer) (msg : RtmpMessage) : Prop :=
  ∀ e, ((demuxFlvTag msg).run.run d).1 = .error e → ((demuxFlvTag msg).run.run d).2 = d

/-- The message is a sequence header whose resolution, that of its last sequence
parameter set that has one or else the one known, is out of range, and its sets or its
resolution are not the ones known already. -/
def ChangesAndFails (d : FlvDemuxer) (msg : RtmpMessage) : Prop :=
  ∃ record, avcConfig msg = some record ∧
    ¬ ValidDimensions (lastDimensions (recordSps record) d.dimensions) ∧
    ¬ ((recordSps record).getLast?.or d.sps = d.sps ∧
      (recordPps record).getLast?.or d.pps = d.pps ∧
      lastDimensions (recordSps record) d.dimensions = d.dimensions)

theorem storeRecord_eq_self_iff (d : FlvDemuxer) (record : Bytes) :
    d.storeRecord record = d ↔
      (recordSps record).getLast?.or d.sps = d.sps ∧
        (recordPps record).getLast?.or d.pps = d.pps ∧
        lastDimensions (recordSps record) d.dimensions = d.dimensions := by
  constructor
  · intro h
    have hsps := congrArg FlvDemuxer.sps h
    have hpps := congrArg FlvDemuxer.pps h
    have hdims := congrArg FlvDemuxer.dimensions h
    exact ⟨hsps, hpps, hdims⟩
  · rintro ⟨hsps, hpps, hdims⟩
    simp only [FlvDemuxer.storeRecord, FlvDemuxer.storeSps, FlvDemuxer.storePps, hsps, hpps, hdims]
    rfl

theorem untraced_iff_not_changesAndFails (d : FlvDemuxer) (msg : RtmpMessage) :
    Untraced d msg ↔ ¬ ChangesAndFails d msg := by
  cases hconfig : avcConfig msg with
  | none =>
    have hnot : ¬ ChangesAndFails d msg := by
      rintro ⟨record, hrecord, -⟩
      rw [hconfig] at hrecord
      cases hrecord
    refine ⟨fun _ => hnot, fun _ e he => ?_⟩
    have hordinary := ordinary_demuxFlvTag hconfig d
    generalize (demuxFlvTag msg).run.run d = r at he hordinary
    cases hordinary with
    | failed => rfl
    | passed => cases he
  | some record =>
    have hrun := run_demuxFlvTag_of_record hconfig d
    have hdims : (d.storeRecord record).dimensions =
        lastDimensions (recordSps record) d.dimensions := rfl
    rw [Untraced, ChangesAndFails, hrun, hdims]
    by_cases hvalid : ValidDimensions (lastDimensions (recordSps record) d.dimensions)
    · simp [hvalid, hconfig]
    · simp [hvalid, hconfig, storeRecord_eq_self_iff]

/-- What a step keeps when it meets the condition: behind a sequence header the
dimensions are valid. -/
theorem demuxStep_valid {d d' : FlvDemuxer} {msg : RtmpMessage}
    (h : d.hasVideoSeqHeader = true → ValidDimensions d.dimensions)
    (hok : ¬ ChangesAndFails d msg) (hstep : demuxStep d msg = some d') :
    d'.hasVideoSeqHeader = true → ValidDimensions d'.dimensions := by
  obtain rfl := Option.some.inj hstep
  cases hconfig : avcConfig msg with
  | none =>
    have hordinary := ordinary_demuxFlvTag hconfig d
    generalize (demuxFlvTag msg).run.run d = r at hordinary
    cases hordinary with
    | failed => exact h
    | passed out hsame hframe =>
      intro hseq
      rw [hsame.2]
      exact h (hsame.1 ▸ hseq)
  | some record =>
    have huntraced := (untraced_iff_not_changesAndFails d msg).mpr hok
    rw [Untraced, run_demuxFlvTag_of_record hconfig d] at huntraced
    rw [run_demuxFlvTag_of_record hconfig d]
    split
    · rename_i hvalid
      exact fun _ => hvalid
    · rename_i hinvalid
      rw [if_neg hinvalid] at huntraced
      have hsame : d.storeRecord record = d := huntraced _ rfl
      simpa only [hsame] using h

/-- The frame of a message carries the dimensions known before it. -/
theorem frameOf_demuxFlvTag {d : FlvDemuxer} {msg : RtmpMessage} {frame : DemuxedFrame}
    (h : ((demuxFlvTag msg).run.run d).1 = .ok (some frame)) : FrameOf d frame := by
  cases hconfig : avcConfig msg with
  | none =>
    have hordinary := ordinary_demuxFlvTag hconfig d
    generalize (demuxFlvTag msg).run.run d = r at h hordinary
    cases hordinary with
    | failed => cases h
    | passed out hsame hframe => exact hframe frame (Except.ok.inj h)
  | some record =>
    rw [run_demuxFlvTag_of_record hconfig d] at h
    split at h <;> cases h

/-- Errors leave no trace throughout a run, and with that every resolution stored behind a
sequence header and carried by a frame is valid, exactly if no sequence header changes
what is stored and then fails. -/
theorem untraced_iff (streamId : StreamId) (msgs : List RtmpMessage) :
    (Meets demuxStep Untraced (.new streamId) msgs ∧
      (∀ n d, run demuxStep (.new streamId) (msgs.take n) = some d →
        d.hasVideoSeqHeader = true → ValidDimensions d.dimensions) ∧
      ∀ n d msg frame codec width height,
        run demuxStep (.new streamId) (msgs.take n) = some d → msgs[n]? = some msg →
        ((demuxFlvTag msg).run.run d).1 = .ok (some frame) →
        frame.track = .video codec width height → ValidDimensions (width, height)) ↔
      Meets demuxStep (fun d msg => ¬ ChangesAndFails d msg) (.new streamId) msgs := by
  constructor
  · rintro ⟨huntraced, -⟩
    exact huntraced.imp fun d msg => (untraced_iff_not_changesAndFails d msg).mp
  · intro hok
    have hvalid : ∀ n d, run demuxStep (.new streamId) (msgs.take n) = some d →
        d.hasVideoSeqHeader = true → ValidDimensions d.dimensions := by
      intro n d hrun
      refine run_invariant_of_meets
        (I := fun d => d.hasVideoSeqHeader = true → ValidDimensions d.dimensions)
        (fun _ _ _ hd hcond hstep => demuxStep_valid hd hcond hstep) ?_ (hok.take n) hrun
      intro hseq
      cases hseq
    refine ⟨hok.imp fun d msg => (untraced_iff_not_changesAndFails d msg).mpr, hvalid, ?_⟩
    intro n d msg frame codec width height hrun _ hframe htrack
    obtain ⟨hseq, hdims⟩ := frameOf_demuxFlvTag hframe codec width height htrack
    rw [hdims]
    exact hvalid n d hrun hseq

/-- A sequence header tag with one set of each kind. -/
def headerTag (sps pps : Bytes) : RtmpMessage where
  msgType := .video
  timestamp := 0
  streamId := 1
  data := [0x17, 0, 0, 0, 0] ++ [1, 0x42, 0x00, 0x1F, 0xFF, 0xE1] ++ beBytes 2 sps.length ++ sps ++
    [1] ++ beBytes 2 pps.length ++ pps

def header720 : RtmpMessage :=
  headerTag [0x67, 0x42, 0x00, 0x1F, 0xDA, 0x01, 0x40, 0x16, 0xE4] [0x68, 0xCE]

def header4096 : RtmpMessage :=
  headerTag [0x67, 0x42, 0x00, 0x1F, 0xDA, 0x00, 0x40, 0x00, 0x48, 0x64] [0x68, 0xCE]

/-- A keyframe tag without any units. -/
def emptyKeyframe : RtmpMessage := ⟨.video, 40, 1, [0x17, 1, 0, 0, 0]⟩

/-- A demuxer behind a header of these parameters. -/
def demuxerBehind (sps : Bytes) (width height : UInt32) : FlvDemuxer :=
  { FlvDemuxer.new ⟨1⟩ with
    hasVideoSeqHeader := true
    sps := some sps
    pps := some [0x68, 0xCE]
    videoWidth := width
    videoHeight := height }

/-- A header of 4096x2304 behind one of 1280x720 is an error, and the frames behind it
say 4096x2304. -/
theorem rejected_header_stays :
    ∃ d d' e frame, run demuxStep (.new ⟨1⟩) [header720] = some d ∧
      (demuxFlvTag header4096).run.run d = (.error e, d') ∧ d' ≠ d ∧
      d'.hasVideoSeqHeader = true ∧ ¬ ValidDimensions d'.dimensions ∧
      ((demuxFlvTag emptyKeyframe).run.run d').1 = .ok (some frame) ∧
      frame.track = .video .h264 4096 2304 := by
  refine ⟨demuxerBehind [0x67, 0x42, 0x00, 0x1F, 0xDA, 0x01, 0x40, 0x16, 0xE4] 1280 720,
    demuxerBehind [0x67, 0x42, 0x00, 0x1F, 0xDA, 0x00, 0x40, 0x00, 0x48, 0x64] 4096 2304,
    .invalidResolution 4096 2304,
    ⟨⟨1⟩, .video .h264 4096 2304, 0, 0, true, startCode ++
      [0x67, 0x42, 0x00, 0x1F, 0xDA, 0x00, 0x40, 0x00, 0x48, 0x64] ++ startCode ++ [0x68, 0xCE]⟩,
    ?_, Prod.ext ?_ ?_, ?_, rfl, ?_, ?_, rfl⟩
  all_goals decide +kernel

/-! ### The limit on errors in a row -/

/-- The message is audio or video and cannot be demuxed. -/
def demuxFails (d : FlvDemuxer) (msg : RtmpMessage) : Bool :=
  match msg.msgType with
  | .video | .audio => !((demuxFlvTag msg).run.run d).1.isOk
  | _ => false

/-- The demux loop turn by turn, with the number of audio and video messages in a row
that have failed, and the result once it has returned. -/
structure LoopTurns where
  loop : DemuxLoop
  failedInRow : ℕ
  result : Option (Except IngestError Unit)
deriving Repr

def LoopTurns.start (demuxer : FlvDemuxer) : LoopTurns := ⟨⟨demuxer, 0, []⟩, 0, none⟩

/-- Read errors and other messages come between audio and video messages without
interrupting a row of them. -/
def rowAfter (d : FlvDemuxer) (row : ℕ) : ReadResult → ℕ
  | .message msg =>
    match msg.msgType with
    | .video | .audio => if demuxFails d msg then row + 1 else 0
    | _ => row
  | _ => row

/-- A turn of a loop that has not returned; the flag says that the frame channel is
closed. -/
def loopStep (s : LoopTurns) (turn : Bool × ReadResult) : Option LoopTurns :=
  match s.result with
  | some _ => none
  | none =>
    some
      { loop := (demuxTurn turn.1 s.loop turn.2).1
        failedInRow := rowAfter s.loop.demuxer s.failedInRow turn.2
        result := (demuxTurn turn.1 s.loop turn.2).2 }

/-- Ten failures in a row have made the loop return an error. -/
def Disconnects (s : LoopTurns) : Prop :=
  maxConsecutiveErrors ≤ s.failedInRow → ∃ e, s.result = some (.error e)

/-- The loop reads an audio or video message that fails, as the tenth in a row or later. -/
def TenthFailure (s : LoopTurns) (turn : Bool × ReadResult) : Prop :=
  s.result = none ∧ maxConsecutiveErrors ≤ s.failedInRow + 1 ∧
    ∃ msg, turn.2 = .message msg ∧ demuxFails s.loop.demuxer msg = true

theorem rowAfter_of_fails {d : FlvDemuxer} {msg : RtmpMessage} (h : demuxFails d msg = true)
    (row : ℕ) : rowAfter d row (.message msg) = row + 1 := by
  simp only [rowAfter, if_pos h]
  split
  · rfl
  · rfl
  · rename_i hvideo haudio
    unfold demuxFails at h
    split at h
    · rename_i heq
      exact absurd heq hvideo
    · rename_i heq
      exact absurd heq haudio
    · cases h

/-- Only a failing message makes the row longer. -/
theorem rowAfter_le {d : FlvDemuxer} {r : ReadResult} (row : ℕ)
    (h : ∀ msg, r = .message msg → demuxFails d msg ≠ true) : rowAfter d row r ≤ row := by
  cases r with
  | message msg =>
    simp only [rowAfter, if_neg (h msg rfl)]
    split <;> omega
  | cancelled | inactive | closed | failed => exact le_rfl

/-- From a state that has not missed the limit, a step misses it exactly at a tenth
failure: a message that is read never makes the loop return an error. -/
theorem loopStep_disconnects_iff {s s' : LoopTurns} {turn : Bool × ReadResult}
    (h : Disconnects s) (hstep : loopStep s turn = some s') :
    Disconnects s' ↔ ¬ TenthFailure s turn := by
  unfold loopStep at hstep
  split at hstep
  · cases hstep
  · rename_i hrunning
    obtain rfl := Option.some.inj hstep
    have hrow : s.failedInRow < maxConsecutiveErrors := by
      by_contra hten
      obtain ⟨e, he⟩ := h (Nat.le_of_not_lt hten)
      rw [hrunning] at he
      cases he
    by_cases hfails : ∃ msg, turn.2 = .message msg ∧ demuxFails s.loop.demuxer msg = true
    · obtain ⟨msg, hmsg, hfail⟩ := hfails
      have hresult : ∀ e, (demuxTurn turn.1 s.loop turn.2).2 ≠ some (.error e) := by
        intro e he
        obtain ⟨hread, -⟩ := demuxTurn_eq_error (Prod.ext rfl he)
        rw [hmsg] at hread
        cases hread
      simp only [Disconnects, TenthFailure, hrunning, hmsg, rowAfter_of_fails hfail]
      rw [hmsg] at hresult
      constructor
      · rintro hdisconnects ⟨-, hten, -⟩
        obtain ⟨e, he⟩ := hdisconnects hten
        exact hresult e he
      · intro hnot hten
        exact absurd ⟨trivial, hten, msg, rfl, hfail⟩ hnot
    · have hle : rowAfter s.loop.demuxer s.failedInRow turn.2 ≤ s.failedInRow :=
        rowAfter_le s.failedInRow fun msg hmsg hfail => hfails ⟨msg, hmsg, hfail⟩
      constructor
      · rintro - ⟨-, -, hfail⟩
        exact hfails hfail
      · intro _ hten
        exact absurd (le_trans hten hle) (Nat.not_le.mpr hrow)

/-- A message that can be demuxed is not counted. -/
theorem consecutiveErrors_of_demuxed (closed : Bool) (loop : DemuxLoop) {msg : RtmpMessage}
    (h : demuxFails loop.demuxer msg = false) :
    (demuxTurn closed loop (.message msg)).1.consecutiveErrors = 0 := by
  have hhandler : (demuxHandler { loop with frames := [] } msg).1.consecutiveErrors = 0 := by
    simp only [demuxHandler]
    split
    case h_1 htype | h_2 htype =>
      rw [demuxFails, htype] at h
      split
      · rfl
      · rfl
      · rename_i hrun
        rw [hrun] at h
        cases h
    · split <;> rfl
    · split <;> rfl
    · rfl
  simp only [demuxTurn]
  split
  · exact hhandler
  · exact hhandler

/-- In a run of the demux loop ten failing audio or video messages in a row always have made
it return an error exactly if there never are ten: it goes on after the tenth. A message
that can be demuxed does clear the count. -/
theorem disconnects_iff (demuxer : FlvDemuxer) (turns : List (Bool × ReadResult)) :
    ((∀ n s, run loopStep (.start demuxer) (turns.take n) = some s → Disconnects s) ↔
        Meets loopStep (fun s turn => ¬ TenthFailure s turn) (.start demuxer) turns) ∧
      ∀ closed loop msg, demuxFails loop.demuxer msg = false →
        (demuxTurn closed loop (.message msg)).1.consecutiveErrors = 0 := by
  constructor
  · refine forall_reached_iff_meets (I := Disconnects)
      (fun _ _ _ hs hstep => loopStep_disconnects_iff hs hstep) ?_ ?_ turns
    · rintro s turn hnone ⟨hrunning, -⟩
      simp [loopStep, hrunning] at hnone
    · intro hten
      cases hten
  · exact fun closed loop msg => consecutiveErrors_of_demuxed closed loop

/-- A video tag too short to be one. -/
def shortTag : RtmpMessage := ⟨.video, 0, 1, [0x17]⟩

theorem ten_failures_survived :
    ∃ s, run loopStep (.start (.new ⟨1⟩)) (List.replicate 10 (false, .message shortTag)) = some s ∧
      s.failedInRow = maxConsecutiveErrors ∧ s.result = none :=
  ⟨_, rfl, rfl, rfl⟩

end StreamInfa.Ingest
