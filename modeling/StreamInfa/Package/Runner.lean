import StreamInfa.Control.Events
import StreamInfa.Package.Hls
import StreamInfa.Package.SegmentIndex
import StreamInfa.Storage.Media

/-!
The packager task (`src/package/runner.rs`).

A turn of the loop takes one segment, with the clock reading its index entry gets,
and either continues or breaks out of the loop (`Except`, with the packager's state
on both sides). The writes sent and the events emitted are kept in the state.
`room` is how many more writes the storage channel takes before its receiver is
gone, `none` for a channel that stays open; a turn breaks on a closed channel.
Cancellation breaks the loop between two turns, so a cancelled run is a run on a
prefix of the input.

`handleSegment_open` is the effect of a turn over an open channel, and
`packagerLoop_open` the induction rule for whole runs.
-/

namespace StreamInfa.Package

open Control (PipelineEvent)

/-! ### Parameter sets -/

/-- The length of the start code the bytes begin with. -/
def startCodeLength (bs : Bytes) : Option ℕ :=
  if [0x00, 0x00, 0x00, 0x01].isPrefixOf bs then some 4
  else if [0x00, 0x00, 0x01].isPrefixOf bs then some 3
  else none

/-- The bytes up to the next start code. The last three bytes are not searched. -/
def scanNalu : Bytes → Bytes
  | [] => []
  | b :: bs =>
    if bs.length < 3 then b :: bs
    else if (startCodeLength (b :: bs)).isSome then []
    else b :: scanNalu bs

/-- One NAL unit seen: keep the first SPS and the first PPS. -/
def keepParameterSet (sets : Option Bytes × Option Bytes) (nalu : Bytes) :
    Option Bytes × Option Bytes :=
  let nalType := nalu.headD 0 &&& 0x1F
  if nalType = 7 ∧ sets.1.isNone then (some nalu, sets.2)
  else if nalType = 8 ∧ sets.2.isNone then (sets.1, some nalu)
  else sets

theorem startCodeLength_pos {bs : Bytes} {n : ℕ} (h : startCodeLength bs = some n) : 0 < n := by
  unfold startCodeLength at h
  split at h
  · cases h
    decide
  · split at h
    · cases h
      decide
    · exact absurd h (by simp)

/-- The search loop of `extract_avc_parameter_sets` over the bytes not yet passed. -/
def extractLoop (sets : Option Bytes × Option Bytes) (bs : Bytes) :
    Option Bytes × Option Bytes :=
  if _hlen : 3 < bs.length then
    match _hcode : startCodeLength bs with
    | none => extractLoop sets bs.tail
    | some prefixLen =>
      let body := bs.drop prefixLen
      let nalu := scanNalu body
      if nalu = [] then extractLoop sets body
      else
        let sets := keepParameterSet sets nalu
        if sets.1.isSome && sets.2.isSome then sets
        else extractLoop sets (body.drop nalu.length)
  else sets
termination_by bs.length
decreasing_by
  · simp only [List.length_tail]
    omega
  · have := startCodeLength_pos _hcode
    simp only [List.length_drop]
    omega
  · have := startCodeLength_pos _hcode
    simp only [List.length_drop]
    omega

/-- The first SPS and PPS of an Annex B byte stream. -/
def extractAvcParameterSets (annexB : Bytes) : Option (Bytes × Bytes) :=
  match extractLoop (none, none) annexB with
  | (some sps, some pps) => some (sps, pps)
  | _ => none

def samplingFrequencyIndex (sampleRate : UInt32) : ℕ :=
  match sampleRate with
  | 96000 => 0
  | 88200 => 1
  | 64000 => 2
  | 48000 => 3
  | 44100 => 4
  | 32000 => 5
  | 24000 => 6
  | 22050 => 7
  | 16000 => 8
  | 12000 => 9
  | 11025 => 10
  | 8000 => 11
  | _ => 3

/-- A 2-byte AudioSpecificConfig for AAC-LC. -/
def aacAudioSpecificConfig (sampleRate : UInt32) (channels : UInt8) : Bytes :=
  let channelCfg := min (max channels.toNat 1) 7
  beBytes 2 ((2 <<< 11) ||| (samplingFrequencyIndex sampleRate <<< 7) ||| (channelCfg <<< 3))

/-! ### The packager's state -/

/-- The packaging configuration the packager reads. -/
structure PackagingConfig where
  liveWindowSegments : UInt32
  hlsVersion : UInt32
deriving DecidableEq, Repr

/-- The arguments of one packager task. -/
structure PackagerEnv where
  streamId : StreamId
  config : PackagingConfig
  isVod : Bool
deriving DecidableEq, Repr

/-- The window of the segment indexes; a VOD rendition keeps everything. -/
def PackagerEnv.segmentWindow (env : PackagerEnv) : Option ℕ :=
  if env.isVod then none else some env.config.liveWindowSegments.toNat

/-- The packager's variables, with what it has sent. -/
structure Packager where
  indexes : Map RenditionId SegmentIndex
  renditionInfos : List RenditionInfo
  initSegmentsWritten : Map RenditionId Bool
  lastMasterRenditionCount : ℕ
  room : Option ℕ
  writes : List StorageWrite
  events : List PipelineEvent

namespace Packager

def start (room : Option ℕ) : Packager where
  indexes := ∅
  renditionInfos := []
  initSegmentsWritten := ∅
  lastMasterRenditionCount := 0
  room := room
  writes := []
  events := []

/-- Send a write to the storage channel; `none` when it is closed. -/
def send (p : Packager) (write : StorageWrite) : Option Packager :=
  match p.room with
  | none => some { p with writes := p.writes ++ [write] }
  | some 0 => none
  | some (room + 1) => some { p with room := some room, writes := p.writes ++ [write] }

end Packager

section Turn

variable (env : PackagerEnv)

/-! ### What the packager writes -/

def mpegUrl : Text := "application/vnd.apple.mpegurl".toList

def initSegmentParams (segment : EncodedSegment) : InitSegmentParams :=
  let sets := (extractAvcParameterSets segment.videoData).getD
    ([0x67, 0x42, 0x00, 0x1e], [0x68, 0xce, 0x38, 0x80])
  { width := segment.width
    height := segment.height
    videoTimescale := 90000
    audioTimescale := 48000
    sps := sets.1
    pps := sets.2
    audioSpecificConfig := segment.audioData.map fun _ =>
      aacAudioSpecificConfig segment.audioSampleRate segment.audioChannels
    hasAudio := segment.audioData.isSome }

def initWrite (segment : EncodedSegment) (data : Bytes) : StorageWrite where
  path := initSegmentPath env.streamId.toText segment.rendition.asStr
  data := data
  contentType := "video/mp4".toList

/-- The sample spans the segment. Its duration is computed exactly here; in the source the product
is one of floats, and can come out one tick lower. -/
def mediaSegmentParams (segment : EncodedSegment) : MediaSegmentParams :=
  let sample : SampleInfo :=
    { duration := truncU32 (segment.durationSecs * 90000)
      size := UInt32.ofNat segment.videoData.length
      flags := if segment.sequence = 0 then 0x02000000 else 0x01010000
      compositionOffset := 0 }
  { sequenceNumber := segment.sequence
    baseDecodeTime := segment.ptsStart
    samples := [sample]
    mediaData := segment.videoData
    trackId := 1 }

def segmentWrite (segment : EncodedSegment) (data : Bytes) : StorageWrite :=
  let path := segmentPath env.streamId.toText segment.rendition.asStr segment.sequence
  { path := path, data := data, contentType := Storage.contentTypeForPath path }

def playlistWrite (rendition : RenditionId) (playlist : Text) : StorageWrite where
  path := mediaPlaylistPath env.streamId.toText rendition.asStr
  data := encodeUtf8 playlist
  contentType := mpegUrl

def masterWrite (infos : List RenditionInfo) : StorageWrite where
  path := masterPlaylistPath env.streamId.toText
  data := encodeUtf8 (generateMultivariantPlaylist infos env.config.hlsVersion)
  contentType := mpegUrl

def renditionInfo (segment : EncodedSegment) : RenditionInfo where
  id := segment.rendition
  width := segment.width
  height := segment.height
  videoBitrateKbps := segment.videoBitrateKbps
  audioBitrateKbps := segment.audioBitrateKbps
  profile := segment.profile
  level := segment.level
  frameRate := segment.frameRate
  hasAudio := segment.audioData.isSome

/-! ### One turn of the loop -/

/-- The index of a rendition, created on first use. -/
def indexFor (p : Packager) (rendition : RenditionId) : SegmentIndex :=
  (p.indexes.lookup rendition).getD
    (SegmentIndex.new env.streamId rendition env.segmentWindow)

def writeMasterPlaylist (p : Packager) : Option Packager :=
  p.send (masterWrite env p.renditionInfos)

/-- Write the init segment of a rendition; an encoding error is only logged. -/
def writeInitSegment (p : Packager) (segment : EncodedSegment) : Except Packager Packager :=
  match generateInitSegment (initSegmentParams segment) with
  | .error _ => .ok p
  | .ok data =>
    match p.send (initWrite env segment data) with
    | none => .error p
    | some p =>
      .ok { p with initSegmentsWritten := p.initSegmentsWritten.insert segment.rendition true }

/-- Track a rendition for the multivariant playlist, and publish it if it is new. -/
def registerRendition (p : Packager) (segment : EncodedSegment) : Packager :=
  let p := { p with renditionInfos := p.renditionInfos ++ [renditionInfo segment] }
  if p.renditionInfos.length > p.lastMasterRenditionCount then
    let p := (writeMasterPlaylist env p).getD p
    { p with lastMasterRenditionCount := p.renditionInfos.length }
  else p

/-- The events of a packaged segment. -/
def segmentEvents (segment : EncodedSegment) : List PipelineEvent :=
  .segmentProduced env.streamId segment.rendition.asStr segment.sequence ::
    if segment.isLast then [.renditionComplete env.streamId segment.rendition.asStr] else []

/-- Write a media segment, then the playlist that lists it. -/
def writeMediaSegment (p : Packager) (segment : EncodedSegment) (now : DateTime) :
    Except Packager Packager :=
  match generateMediaSegment (mediaSegmentParams segment) with
  | .error _ => .ok p
  | .ok data =>
    match p.send (segmentWrite env segment data) with
    | none => .error p
    | some p =>
      let index := ((indexFor env p segment.rendition).addSegment segment.durationSecs
        (segmentPath env.streamId.toText segment.rendition.asStr segment.sequence)
        data.length now).1
      let p := { p with indexes := p.indexes.insert segment.rendition index }
      let playlist := index.generatePlaylist env.config.hlsVersion env.isVod segment.isLast
      match p.send (playlistWrite env segment.rendition playlist) with
      | none => .error p
      | some p => .ok { p with events := p.events ++ segmentEvents env segment }

/-- One turn of the loop: the init segment of a new rendition and the master
playlist, then the media segment and the media playlist. -/
def handleSegment (p : Packager) (segment : EncodedSegment) (now : DateTime) :
    Except Packager Packager :=
  let p :=
    { p with indexes := p.indexes.insert segment.rendition (indexFor env p segment.rendition) }
  let opened : Except Packager Packager :=
    match p.initSegmentsWritten.lookup segment.rendition with
    | some _ => .ok p
    | none => (writeInitSegment env p segment).map fun p => registerRendition env p segment
  opened.bind fun p => writeMediaSegment env p segment now

def packagerLoop : Packager → List (EncodedSegment × DateTime) → Packager
  | p, [] => p
  | p, (segment, now) :: input =>
    match handleSegment env p segment now with
    | .ok p => packagerLoop p input
    | .error p => p

/-- Run the packager over the segments it receives: the loop, then the final
multivariant playlist. -/
def runPackager (room : Option ℕ) (input : List (EncodedSegment × DateTime)) : Packager :=
  let p := packagerLoop env (Packager.start room) input
  if p.renditionInfos = [] then p else (writeMasterPlaylist env p).getD p

end Turn

/-! ### Turns over an open channel -/

/-- The bytes of an encoding that cannot fail. -/
def encoded (result : Except PackageError Bytes) : Bytes :=
  match result with
  | .ok data => data
  | .error _ => []

theorem generateInitSegment_eq (params : InitSegmentParams) :
    generateInitSegment params = .ok (encoded (generateInitSegment params)) := by
  obtain ⟨data, h⟩ := generateInitSegment_isOk params
  rw [h]
  rfl

theorem generateMediaSegment_eq (params : MediaSegmentParams) :
    generateMediaSegment params = .ok (encoded (generateMediaSegment params)) := by
  obtain ⟨data, h⟩ := generateMediaSegment_isOk params
  rw [h]
  rfl

section Open

variable (env : PackagerEnv)

/-- The index of a rendition after a segment. -/
def nextIndex (index : Option SegmentIndex) (segment : EncodedSegment) (now : DateTime) :
    SegmentIndex :=
  ((index.getD (SegmentIndex.new env.streamId segment.rendition env.segmentWindow)).addSegment
    segment.durationSecs
    (segmentPath env.streamId.toText segment.rendition.asStr segment.sequence)
    (encoded (generateMediaSegment (mediaSegmentParams segment))).length now).1

/-- The init segment a segment opens its rendition with. -/
def initWriteOf (segment : EncodedSegment) : StorageWrite :=
  initWrite env segment (encoded (generateInitSegment (initSegmentParams segment)))

/-- The media segment and the playlist written for a segment. -/
def mediaWritesOf (index : SegmentIndex) (segment : EncodedSegment) : List StorageWrite :=
  [segmentWrite env segment (encoded (generateMediaSegment (mediaSegmentParams segment))),
    playlistWrite env segment.rendition
      (index.generatePlaylist env.config.hlsVersion env.isVod segment.isLast)]

/-- Everything written in one turn over an open channel. -/
def turnWrites (p : Packager) (segment : EncodedSegment) (now : DateTime) : List StorageWrite :=
  (match p.indexes.lookup segment.rendition with
    | none => [initWriteOf env segment,
        masterWrite env (p.renditionInfos ++ [renditionInfo segment])]
    | some _ => []) ++
    mediaWritesOf env (nextIndex env (p.indexes.lookup segment.rendition) segment now) segment

/-- What holds between turns over an open channel: a rendition has an index exactly
when its init segment was written, and every rendition seen has been published. -/
structure Packager.Open (p : Packager) : Prop where
  room : p.room = none
  published : p.lastMasterRenditionCount = p.renditionInfos.length
  opened : ∀ r, p.initSegmentsWritten.lookup r = none ↔ p.indexes.lookup r = none

theorem Packager.open_start : (Packager.start none).Open :=
  ⟨rfl, rfl, fun r => by simp [start]⟩

theorem Packager.send_of_open {p : Packager} (h : p.room = none) (write : StorageWrite) :
    p.send write = some { p with writes := p.writes ++ [write] } := by
  rw [Packager.send, h]

variable {env} {p : Packager} {segment : EncodedSegment} {now : DateTime}

/-- The media segment half of a turn. -/
theorem writeMediaSegment_open (hroom : p.room = none) :
    writeMediaSegment env p segment now =
      let index := nextIndex env (p.indexes.lookup segment.rendition) segment now
      .ok { p with
        indexes := p.indexes.insert segment.rendition index
        writes := p.writes ++ mediaWritesOf env index segment
        events := p.events ++ segmentEvents env segment } := by
  unfold writeMediaSegment
  rw [generateMediaSegment_eq]
  simp only [Packager.send, hroom, indexFor, nextIndex, mediaWritesOf, List.append_assoc,
    List.singleton_append, encoded]

/-- Creating the index of a rendition first makes no difference to its next one. -/
theorem nextIndex_indexFor :
    nextIndex env (some (indexFor env p segment.rendition)) segment now =
      nextIndex env (p.indexes.lookup segment.rendition) segment now := rfl

/-- The opening half of a turn, for a rendition not seen before. -/
theorem openRendition_open (hroom : p.room = none)
    (hpublished : p.lastMasterRenditionCount = p.renditionInfos.length) :
    (writeInitSegment env p segment).map (fun p => registerRendition env p segment) =
      .ok { p with
        writes := p.writes ++ [initWriteOf env segment,
          masterWrite env (p.renditionInfos ++ [renditionInfo segment])]
        initSegmentsWritten := p.initSegmentsWritten.insert segment.rendition true
        renditionInfos := p.renditionInfos ++ [renditionInfo segment]
        lastMasterRenditionCount := (p.renditionInfos ++ [renditionInfo segment]).length } := by
  unfold writeInitSegment
  rw [generateInitSegment_eq]
  have hnew : (p.renditionInfos ++ [renditionInfo segment]).length >
      p.lastMasterRenditionCount := by
    rw [hpublished, List.length_append, List.length_singleton]
    exact Nat.lt_succ_self _
  simp only [Packager.send, hroom, Except.map, registerRendition, if_pos hnew,
    writeMasterPlaylist, Option.getD_some, List.append_assoc, List.singleton_append, initWriteOf]

/-- What one turn does over an open channel. -/
theorem handleSegment_open (env : PackagerEnv) (segment : EncodedSegment) (now : DateTime)
    (hopen : p.Open) :
    ∃ p', handleSegment env p segment now = .ok p' ∧ p'.Open ∧
      p'.writes = p.writes ++ turnWrites env p segment now ∧
      p'.events = p.events ++ segmentEvents env segment ∧
      p'.indexes.lookup segment.rendition =
        some (nextIndex env (p.indexes.lookup segment.rendition) segment now) ∧
      ∀ r, r ≠ segment.rendition → p'.indexes.lookup r = p.indexes.lookup r := by
  have hother : ∀ (i j : SegmentIndex) r, r ≠ segment.rendition →
      ((p.indexes.insert segment.rendition i).insert segment.rendition j).lookup r =
        p.indexes.lookup r := by
    intro i j r hr
    rw [AList.lookup_insert_ne hr, AList.lookup_insert_ne hr]
  have hindexes : ∀ (i j : SegmentIndex) r,
      ((p.indexes.insert segment.rendition i).insert segment.rendition j).lookup r = none ↔
        r ≠ segment.rendition ∧ p.indexes.lookup r = none := by
    intro i j r
    by_cases hr : r = segment.rendition
    · subst hr
      simp
    · simp only [hother i j r hr, ne_eq, hr, not_false_eq_true, true_and]
  unfold handleSegment
  cases hinit : p.initSegmentsWritten.lookup segment.rendition with
  | some written =>
    have hsome : p.indexes.lookup segment.rendition ≠ none := by
      rw [ne_eq, ← hopen.opened, hinit]
      exact Option.some_ne_none _
    obtain ⟨index, hindex⟩ := Option.ne_none_iff_exists'.mp hsome
    simp only [Except.bind, hinit]
    rw [writeMediaSegment_open (by exact hopen.room), AList.lookup_insert, nextIndex_indexFor]
    refine ⟨_, rfl, ⟨hopen.room, hopen.published, fun r => ?_⟩, ?_, rfl,
      AList.lookup_insert _, hother _ _⟩
    · rw [hindexes, hopen.opened]
      refine ⟨fun h => ⟨?_, h⟩, fun h => h.2⟩
      rintro rfl
      exact hsome h
    · simp only [turnWrites, hindex, List.nil_append]
  | none =>
    have hnone := (hopen.opened _).mp hinit
    simp only [hinit]
    rw [openRendition_open (by exact hopen.room) (by exact hopen.published)]
    simp only [Except.bind]
    rw [writeMediaSegment_open (by exact hopen.room), AList.lookup_insert, nextIndex_indexFor]
    refine ⟨_, rfl, ⟨hopen.room, rfl, fun r => ?_⟩, ?_, rfl, AList.lookup_insert _, hother _ _⟩
    · rw [hindexes, ← hopen.opened]
      by_cases hr : r = segment.rendition
      · subst hr
        simp
      · simp only [AList.lookup_insert_ne hr, ne_eq, hr, not_false_eq_true, true_and]
    · simp only [turnWrites, hnone, List.append_assoc]

end Open

end StreamInfa.Package
