import StreamInfa.Core.Error

/-!
fMP4 box construction (`src/package/hls.rs`).

Every `write_*` and `build_*` function of the source appends to a buffer; here it
is the byte string appended. Box sizes are 32-bit fields and wrap as the source's
casts do (`beBytes 4`).

`readBox` is the ISO-BMFF reader the output is judged with; it inverts `writeBox`
on every content short enough for its size field (`readBox_writeBox`).
-/

namespace StreamInfa.Package

/-- The bytes of an ASCII literal. -/
def ascii (s : String) : Bytes := s.toList.map fun c => UInt8.ofNat c.toNat

/-- A reserved or pre-defined field. -/
def zeros (n : ℕ) : Bytes := List.replicate n 0

/-! ### Box writing helpers -/

def writeBox (boxType content : Bytes) : Bytes :=
  beBytes 4 (content.length + 8) ++ boxType ++ content

def writeFullBox (boxType : Bytes) (version flags : ℕ) (content : Bytes) : Bytes :=
  beBytes 4 (content.length + 12) ++ boxType ++ beBytes 1 version ++ beBytes 3 flags ++ content

theorem length_ascii (s : String) : (ascii s).length = s.toList.length := List.length_map _

/-- A full box is a box whose content starts with version and flags. -/
theorem writeFullBox_eq (boxType : Bytes) (version flags : ℕ) (content : Bytes) :
    writeFullBox boxType version flags content =
      writeBox boxType (beBytes 1 version ++ beBytes 3 flags ++ content) := by
  have hlen : (beBytes 1 version ++ beBytes 3 flags ++ content).length + 8 =
      content.length + 12 := by
    simp only [List.length_append, length_beBytes]
    omega
  rw [writeBox, hlen, writeFullBox]
  simp only [List.append_assoc]

theorem length_writeFullBox (boxType : Bytes) (version flags : ℕ) (content : Bytes) :
    (writeFullBox boxType version flags content).length = boxType.length + 8 + content.length := by
  simp only [writeFullBox, List.length_append, length_beBytes]
  omega

theorem length_writeBox (boxType content : Bytes) :
    (writeBox boxType content).length = boxType.length + 4 + content.length := by
  simp only [writeBox, List.length_append, length_beBytes]
  omega

/-- Split one box off: its type, its content and the bytes after it. A box shorter
than its own header is rejected. -/
def readBox (bs : Bytes) : Option (Bytes × Bytes × Bytes) :=
  (takeExact 4 bs).bind fun (size, bs) =>
  (takeExact 4 bs).bind fun (boxType, bs) =>
  if beNat size < 8 then none
  else (takeExact (beNat size - 8) bs).map fun (content, rest) => (boxType, content, rest)

theorem readBox_eq_some {bs size bs₁ boxType bs₂ content rest : Bytes}
    (hsize : takeExact 4 bs = some (size, bs₁)) (hty : takeExact 4 bs₁ = some (boxType, bs₂))
    (h8 : 8 ≤ beNat size) (hcontent : takeExact (beNat size - 8) bs₂ = some (content, rest)) :
    readBox bs = some (boxType, content, rest) := by
  simp only [readBox, hsize, hty, Option.bind_some, if_neg (Nat.not_lt.mpr h8), hcontent,
    Option.map_some]

theorem readBox_writeBox {boxType content : Bytes} (hty : boxType.length = 4)
    (hlen : content.length + 8 < 256 ^ 4) (rest : Bytes) :
    readBox (writeBox boxType content ++ rest) = some (boxType, content, rest) := by
  have hsize : beNat (beBytes 4 (content.length + 8)) = content.length + 8 :=
    beNat_beBytes_of_lt hlen
  have h₁ : takeExact 4 (writeBox boxType content ++ rest) =
      some (beBytes 4 (content.length + 8), boxType ++ (content ++ rest)) := by
    rw [writeBox, List.append_assoc, List.append_assoc, takeExact_beBytes]
  refine readBox_eq_some h₁ (takeExact_append _ hty) ?_ (takeExact_append _ ?_)
  · rw [hsize]
    exact Nat.le_add_left 8 _
  · rw [hsize, Nat.add_sub_cancel]

/-! ### Initialization segment -/

/-- Parameters of an initialization segment. -/
structure InitSegmentParams where
  width : UInt32
  height : UInt32
  videoTimescale : UInt32
  audioTimescale : UInt32
  sps : Bytes
  pps : Bytes
  audioSpecificConfig : Option Bytes
  hasAudio : Bool
deriving DecidableEq, Repr

def writeFtyp : Bytes :=
  writeBox (ascii "ftyp")
    (ascii "isom" ++ beBytes 4 0x200 ++ ascii "isom" ++ ascii "iso6" ++ ascii "mp41")

/-- The identity transformation matrix. -/
def identityMatrix : Bytes :=
  [0x00010000, 0, 0, 0, 0x00010000, 0, 0, 0, 0x40000000].flatMap (beBytes 4)

def buildMvhd (timescale : UInt32) : Bytes :=
  writeFullBox (ascii "mvhd") 0 0
    (beBytes 4 0 ++ beBytes 4 0 ++ beBytes 4 timescale.toNat ++ beBytes 4 0 ++
      beBytes 4 0x00010000 ++ beBytes 2 0x0100 ++ zeros 10 ++ identityMatrix ++
      zeros 24 ++ beBytes 4 2)

def buildTkhd (trackId : ℕ) (width height : UInt32) (isVideo : Bool) : Bytes :=
  writeFullBox (ascii "tkhd") 0 0x000003
    (beBytes 4 0 ++ beBytes 4 0 ++ beBytes 4 trackId ++ beBytes 4 0 ++ beBytes 4 0 ++
      zeros 8 ++ beBytes 2 0 ++ beBytes 2 0 ++
      beBytes 2 (if isVideo then 0 else 0x0100) ++ beBytes 2 0 ++ identityMatrix ++
      beBytes 4 (width.toNat <<< 16) ++ beBytes 4 (height.toNat <<< 16))

def buildMdhd (timescale : UInt32) : Bytes :=
  writeFullBox (ascii "mdhd") 0 0
    (beBytes 4 0 ++ beBytes 4 0 ++ beBytes 4 timescale.toNat ++ beBytes 4 0 ++
      beBytes 2 0x55C4 ++ beBytes 2 0)

def buildHdlr (handlerType name : Bytes) : Bytes :=
  writeFullBox (ascii "hdlr") 0 0
    (beBytes 4 0 ++ handlerType ++ zeros 12 ++ name ++ beBytes 1 0)

def buildVmhd : Bytes := writeFullBox (ascii "vmhd") 0 1 (zeros 8)

def buildSmhd : Bytes := writeFullBox (ascii "smhd") 0 0 (zeros 4)

def buildDinf : Bytes :=
  writeBox (ascii "dinf")
    (writeFullBox (ascii "dref") 0 0 (beBytes 4 1 ++ writeFullBox (ascii "url ") 0 1 []))

/-- The AVCDecoderConfigurationRecord: the content of the avcC box. -/
def avcDecoderConfig (params : InitSegmentParams) : Bytes :=
  beBytes 1 1 ++
    [params.sps.getD 1 100, params.sps.getD 2 0, params.sps.getD 3 41] ++
    -- lengthSizeMinusOne = 3 under six reserved bits, then one SPS
    beBytes 1 0xFF ++ beBytes 1 0xE1 ++ beBytes 2 params.sps.length ++ params.sps ++
    beBytes 1 1 ++ beBytes 2 params.pps.length ++ params.pps

def buildAvc1Entry (params : InitSegmentParams) : Except PackageError Bytes :=
  .ok <| writeBox (ascii "avc1")
    (zeros 6 ++ beBytes 2 1 ++ zeros 16 ++
      beBytes 2 params.width.toNat ++ beBytes 2 params.height.toNat ++
      beBytes 4 0x00480000 ++ beBytes 4 0x00480000 ++ beBytes 4 0 ++ beBytes 2 1 ++
      zeros 32 ++ beBytes 2 0x0018 ++ beBytes 2 0xFFFF ++
      writeBox (ascii "avcC") (avcDecoderConfig params))

/-- The fixed fields of the avc1 sample entry. -/
def avc1Fields (params : InitSegmentParams) : Bytes :=
  zeros 6 ++ beBytes 2 1 ++ zeros 16 ++
    beBytes 2 params.width.toNat ++ beBytes 2 params.height.toNat ++
    beBytes 4 0x00480000 ++ beBytes 4 0x00480000 ++ beBytes 4 0 ++ beBytes 2 1 ++
    zeros 32 ++ beBytes 2 0x0018 ++ beBytes 2 0xFFFF

theorem length_avc1Fields (params : InitSegmentParams) : (avc1Fields params).length = 78 := by
  simp [avc1Fields, zeros]

/-- The sample tables a fragmented file leaves empty. -/
def emptySampleTables : Bytes :=
  writeFullBox (ascii "stts") 0 0 (beBytes 4 0) ++ writeFullBox (ascii "stsc") 0 0 (beBytes 4 0) ++
    writeFullBox (ascii "stsz") 0 0 (zeros 8) ++
    writeFullBox (ascii "stco") 0 0 (beBytes 4 0)

def buildVideoStbl (params : InitSegmentParams) : Except PackageError Bytes := do
  let avc1 ← buildAvc1Entry params
  return writeBox (ascii "stbl")
    (writeFullBox (ascii "stsd") 0 0 (beBytes 4 1 ++ avc1) ++ emptySampleTables)

/-- The ES descriptor around an AudioSpecificConfig; its length fields are single
bytes. -/
def esDescriptor (asc : Bytes) : Bytes :=
  beBytes 1 0x03 ++ beBytes 1 (23 + asc.length) ++ beBytes 2 1 ++ beBytes 1 0 ++
    beBytes 1 0x04 ++ beBytes 1 (15 + asc.length) ++ beBytes 1 0x40 ++ beBytes 1 0x15 ++
    zeros 3 ++ beBytes 4 128000 ++ beBytes 4 128000 ++
    beBytes 1 0x05 ++ beBytes 1 asc.length ++ asc ++
    beBytes 1 0x06 ++ beBytes 1 1 ++ beBytes 1 0x02

def buildMp4aEntry (params : InitSegmentParams) : Except PackageError Bytes :=
  .ok <| writeBox (ascii "mp4a")
    (zeros 6 ++ beBytes 2 1 ++ zeros 8 ++ beBytes 2 2 ++ beBytes 2 16 ++
      beBytes 2 0 ++ beBytes 2 0 ++ beBytes 4 (params.audioTimescale.toNat <<< 16) ++
      match params.audioSpecificConfig with
      | some asc => writeFullBox (ascii "esds") 0 0 (esDescriptor asc)
      | none => [])

def buildAudioStbl (params : InitSegmentParams) : Except PackageError Bytes := do
  let mp4a ← buildMp4aEntry params
  return writeBox (ascii "stbl")
    (writeFullBox (ascii "stsd") 0 0 (beBytes 4 1 ++ mp4a) ++ emptySampleTables)

def buildVideoTrak (params : InitSegmentParams) : Except PackageError Bytes := do
  let stbl ← buildVideoStbl params
  let minf := writeBox (ascii "minf") (buildVmhd ++ buildDinf ++ stbl)
  let mdia := writeBox (ascii "mdia")
    (buildMdhd params.videoTimescale ++ buildHdlr (ascii "vide") (ascii "VideoHandler") ++ minf)
  return writeBox (ascii "trak") (buildTkhd 1 params.width params.height true ++ mdia)

def buildAudioTrak (params : InitSegmentParams) : Except PackageError Bytes := do
  let stbl ← buildAudioStbl params
  let minf := writeBox (ascii "minf") (buildSmhd ++ buildDinf ++ stbl)
  let mdia := writeBox (ascii "mdia")
    (buildMdhd params.audioTimescale ++ buildHdlr (ascii "soun") (ascii "SoundHandler") ++ minf)
  return writeBox (ascii "trak") (buildTkhd 2 0 0 false ++ mdia)

def buildTrex (trackId : ℕ) : Bytes :=
  writeFullBox (ascii "trex") 0 0
    (beBytes 4 trackId ++ beBytes 4 1 ++ beBytes 4 0 ++ beBytes 4 0 ++ beBytes 4 0)

def buildMvex (hasAudio : Bool) : Bytes :=
  writeBox (ascii "mvex") (buildTrex 1 ++ if hasAudio then buildTrex 2 else [])

/-- The audio track, for a stream that has audio. -/
def buildAudioTrakIfAny (params : InitSegmentParams) : Except PackageError Bytes :=
  if params.hasAudio then buildAudioTrak params else .ok []

def buildMoov (params : InitSegmentParams) : Except PackageError Bytes := do
  let video ← buildVideoTrak params
  let audio ← buildAudioTrakIfAny params
  return writeBox (ascii "moov")
    (buildMvhd params.videoTimescale ++ video ++ audio ++ buildMvex params.hasAudio)

/-- Generate an fMP4 initialization segment (`init.mp4`). -/
def generateInitSegment (params : InitSegmentParams) : Except PackageError Bytes := do
  let moov ← buildMoov params
  return writeFtyp ++ moov

/-- No step of the init segment's construction fails. -/
theorem generateInitSegment_isOk (params : InitSegmentParams) :
    ∃ data, generateInitSegment params = .ok data := by
  obtain ⟨w, h, vts, ats, sps, pps, asc, hasAudio⟩ := params
  cases hasAudio <;> exact ⟨_, rfl⟩

/-! ### Media segment -/

/-- One sample of a media segment. -/
structure SampleInfo where
  duration : UInt32
  size : UInt32
  flags : UInt32
  compositionOffset : Int32
deriving DecidableEq, Repr

/-- Parameters of a media segment. -/
structure MediaSegmentParams where
  sequenceNumber : ℕ
  baseDecodeTime : Int64
  samples : List SampleInfo
  mediaData : Bytes
  trackId : UInt32
deriving DecidableEq, Repr

def writeStyp : Bytes :=
  writeBox (ascii "styp") (ascii "msdh" ++ beBytes 4 0 ++ ascii "msdh" ++ ascii "msix")

def writeSample (s : SampleInfo) : Bytes :=
  beBytes 4 s.duration.toNat ++ beBytes 4 s.size.toNat ++ beBytes 4 s.flags.toNat ++
    beBytes 4 s.compositionOffset.toBitVec.toNat

theorem length_flatMap_writeSample (samples : List SampleInfo) :
    (samples.flatMap writeSample).length = 16 * samples.length := by
  induction samples with
  | nil => rfl
  | cons s samples ih =>
    rw [List.flatMap_cons, List.length_append, ih, List.length_cons]
    simp only [writeSample, List.length_append, length_beBytes]
    omega

/-- The track run. `data_offset` counts from the first byte of the moof box to the
first payload byte of mdat: a moof of `n` samples takes `88 + 16 * n` bytes. -/
def buildTrun (params : MediaSegmentParams) : Except PackageError Bytes :=
  let flags := 0x000001 ||| 0x000100 ||| 0x000200 ||| 0x000400 ||| 0x000800
  let sampleCount := params.samples.length
  let moofSize := 88 + sampleCount * 16
  let dataOffset := moofSize + 8
  .ok <| writeFullBox (ascii "trun") 0 flags
    (beBytes 4 sampleCount ++ beBytes 4 dataOffset ++ params.samples.flatMap writeSample)

def buildMoof (params : MediaSegmentParams) : Except PackageError Bytes := do
  let mfhd := writeFullBox (ascii "mfhd") 0 0 (beBytes 4 params.sequenceNumber)
  let tfhd := writeFullBox (ascii "tfhd") 0 0x020000 (beBytes 4 params.trackId.toNat)
  let tfdt := writeFullBox (ascii "tfdt") 1 0 (beBytes 8 params.baseDecodeTime.toBitVec.toNat)
  let trun ← buildTrun params
  return writeBox (ascii "moof") (mfhd ++ writeBox (ascii "traf") (tfhd ++ tfdt ++ trun))

/-- Generate an fMP4 media segment (`.m4s`). -/
def generateMediaSegment (params : MediaSegmentParams) : Except PackageError Bytes := do
  let moof ← buildMoof params
  return writeStyp ++ moof ++ writeBox (ascii "mdat") params.mediaData

theorem generateMediaSegment_isOk (params : MediaSegmentParams) :
    ∃ data, generateMediaSegment params = .ok data :=
  ⟨_, rfl⟩

end StreamInfa.Package
