import StreamInfa.Package.Hls

/-!
Reading a media segment back.

`decodeFragment` is a reader of fMP4 fragments as the ISO-BMFF layout has them: a
box is a size, a type and a content, and a parent must be filled by its children
exactly (`readBoxes`). It knows nothing of how the segment was written, in
particular not the closed formula by which `build_trun` computes `data_offset`.

**`decodeFragment_generateMediaSegment`**: decoding what `generate_media_segment`
wrote gives back every parameter, and `data_offset` counted from the first byte of
moof is the position of the first payload byte of mdat.
-/

namespace StreamInfa.Package

/-! ### Boxes -/

/-- The boxes of a byte string, at most `n` of them. -/
def readBoxesUpTo : ℕ → Bytes → Option (List (Bytes × Bytes))
  | _, [] => some []
  | 0, _ :: _ => none
  | n + 1, b :: bs =>
    (readBox (b :: bs)).bind fun (boxType, content, rest) =>
      (readBoxesUpTo n rest).map ((boxType, content) :: ·)

/-- The boxes a byte string consists of, with their types; `none` unless they fill it
exactly. A box takes at least a byte, so there are no more boxes than bytes. -/
def readBoxes (bs : Bytes) : Option (List (Bytes × Bytes)) := readBoxesUpTo bs.length bs

/-- The contents of the boxes of a byte string, which must have the given types. -/
def boxContents (types : List Bytes) (bs : Bytes) : Option (List Bytes) :=
  (readBoxes bs).bind fun boxes =>
    if boxes.map Prod.fst = types then some (boxes.map Prod.snd) else none

theorem readBoxesUpTo_flatMap {n : ℕ} {boxes : List (Bytes × Bytes)} (hn : boxes.length ≤ n)
    (hboxes : ∀ b ∈ boxes, b.1.length = 4 ∧ b.2.length + 8 < 256 ^ 4) :
    readBoxesUpTo n (boxes.flatMap fun b => writeBox b.1 b.2) = some boxes := by
  induction boxes generalizing n with
  | nil => cases n <;> rfl
  | cons box boxes ih =>
    obtain ⟨⟨hty, hlen⟩, hboxes⟩ := List.forall_mem_cons.mp hboxes
    cases n with
    | zero => exact absurd hn (by simp)
    | succ n =>
      have hread := readBox_writeBox hty hlen (boxes.flatMap fun b => writeBox b.1 b.2)
      have hrest := ih (Nat.le_of_succ_le_succ hn) hboxes
      rw [List.flatMap_cons]
      -- A box is not empty, so the reader reads it.
      cases hbytes : writeBox box.1 box.2 ++ boxes.flatMap fun b => writeBox b.1 b.2 with
      | nil =>
        rw [hbytes] at hread
        exact absurd hread (by simp [readBox, takeExact])
      | cons b bs =>
        rw [hbytes] at hread
        simp only [readBoxesUpTo, hread, Option.bind_some, hrest, Option.map_some]

theorem length_le_length_flatMap_writeBox (boxes : List (Bytes × Bytes)) :
    boxes.length ≤ (boxes.flatMap fun b => writeBox b.1 b.2).length := by
  induction boxes with
  | nil => exact Nat.le_refl _
  | cons box boxes ih =>
    rw [List.flatMap_cons, List.length_append, length_writeBox, List.length_cons]
    omega

/-- Boxes written one after the other are read back. -/
theorem readBoxes_flatMap {boxes : List (Bytes × Bytes)}
    (hboxes : ∀ b ∈ boxes, b.1.length = 4 ∧ b.2.length + 8 < 256 ^ 4) :
    readBoxes (boxes.flatMap fun b => writeBox b.1 b.2) = some boxes := by
  refine readBoxesUpTo_flatMap (length_le_length_flatMap_writeBox boxes) hboxes

theorem boxContents_flatMap {boxes : List (Bytes × Bytes)}
    (hboxes : ∀ b ∈ boxes, b.1.length = 4 ∧ b.2.length + 8 < 256 ^ 4) :
    boxContents (boxes.map Prod.fst) (boxes.flatMap fun b => writeBox b.1 b.2) =
      some (boxes.map Prod.snd) := by
  rw [boxContents, readBoxes_flatMap hboxes, Option.bind_some, if_pos rfl]

/-! ### Fields -/

/-- What follows the version and flags of a full box, which must be the given ones. -/
def fullBoxFields (version flags : ℕ) (content : Bytes) : Option Bytes :=
  (takeExact 4 content).bind fun (header, fields) =>
    if header = beBytes 1 version ++ beBytes 3 flags then some fields else none

theorem fullBoxFields_append (version flags : ℕ) (fields : Bytes) :
    fullBoxFields version flags (beBytes 1 version ++ beBytes 3 flags ++ fields) = some fields := by
  have hheader : (beBytes 1 version ++ beBytes 3 flags).length = 4 := by
    rw [List.length_append, length_beBytes, length_beBytes]
  simp only [fullBoxFields, takeExact_append fields hheader, Option.bind_some, if_true]

/-- A big-endian field of `w` bytes. -/
def readField (w : ℕ) (bs : Bytes) : Option (ℕ × Bytes) :=
  (takeExact w bs).map fun (field, rest) => (beNat field, rest)

theorem readField_append (w n : ℕ) (rest : Bytes) :
    readField w (beBytes w n ++ rest) = some (n % 256 ^ w, rest) := by
  simp only [readField, takeExact_beBytes, Option.map_some, beNat_beBytes]

/-- A single field of `w` bytes that fills its box. -/
def readOnlyField (w : ℕ) (bs : Bytes) : Option ℕ :=
  (readField w bs).bind fun (n, rest) => if rest = [] then some n else none

theorem readOnlyField_beBytes (w n : ℕ) : readOnlyField w (beBytes w n) = some (n % 256 ^ w) := by
  have h := readField_append w n []
  rw [List.append_nil] at h
  simp only [readOnlyField, h, Option.bind_some, if_true]

/-! Fields as wide as the integer they were written from. -/

theorem uint32_ofNat_mod (x : UInt32) : UInt32.ofNat (x.toNat % 256 ^ 4) = x := by
  have hlt : x.toNat < 256 ^ 4 := x.toNat_lt
  rw [Nat.mod_eq_of_lt hlt, UInt32.ofNat_toNat]

theorem int32_ofNat_mod (x : Int32) :
    Int32.ofBitVec (BitVec.ofNat 32 (x.toBitVec.toNat % 256 ^ 4)) = x := by
  have hlt : x.toBitVec.toNat < 256 ^ 4 := x.toBitVec.isLt
  rw [Nat.mod_eq_of_lt hlt, BitVec.ofNat_toNat, BitVec.setWidth_eq, Int32.ofBitVec_toBitVec]

theorem int64_ofNat_mod (x : Int64) :
    Int64.ofBitVec (BitVec.ofNat 64 (x.toBitVec.toNat % 256 ^ 8)) = x := by
  have hlt : x.toBitVec.toNat < 256 ^ 8 := x.toBitVec.isLt
  rw [Nat.mod_eq_of_lt hlt, BitVec.ofNat_toNat, BitVec.setWidth_eq, Int64.ofBitVec_toBitVec]

/-- A sample of a track run that has all four per-sample fields. -/
def readSample (bs : Bytes) : Option (SampleInfo × Bytes) :=
  (readField 4 bs).bind fun (duration, bs) =>
  (readField 4 bs).bind fun (size, bs) =>
  (readField 4 bs).bind fun (flags, bs) =>
  (readField 4 bs).map fun (offset, bs) =>
    ({ duration := UInt32.ofNat duration
       size := UInt32.ofNat size
       flags := UInt32.ofNat flags
       compositionOffset := Int32.ofBitVec (BitVec.ofNat 32 offset) }, bs)

theorem readSample_append (s : SampleInfo) (rest : Bytes) :
    readSample (writeSample s ++ rest) = some (s, rest) := by
  simp only [readSample, writeSample, List.append_assoc, readField_append, Option.bind_some,
    Option.map_some, uint32_ofNat_mod, int32_ofNat_mod]

/-- Exactly `n` samples. -/
def readSamples : ℕ → Bytes → Option (List SampleInfo)
  | 0, bs => if bs = [] then some [] else none
  | n + 1, bs =>
    (readSample bs).bind fun (s, rest) => (readSamples n rest).map (s :: ·)

theorem readSamples_flatMap (samples : List SampleInfo) :
    readSamples samples.length (samples.flatMap writeSample) = some samples := by
  induction samples with
  | nil => rfl
  | cons s samples ih =>
    simp only [List.flatMap_cons, List.length_cons, readSamples, readSample_append,
      Option.bind_some, ih, Option.map_some]

/-- The data offset and the samples of a track run. -/
def readTrun (content : Bytes) : Option (Int32 × List SampleInfo) :=
  (fullBoxFields 0 0x000F01 content).bind fun bs =>
  (readField 4 bs).bind fun (sampleCount, bs) =>
  (readField 4 bs).bind fun (dataOffset, bs) =>
  (readSamples sampleCount bs).map fun samples =>
    (Int32.ofBitVec (BitVec.ofNat 32 dataOffset), samples)

/-! ### The fragment -/

/-- What a fragment says. `moofStart` is the position of the first byte of moof. -/
structure Fragment where
  moofStart : ℕ
  sequenceNumber : ℕ
  trackId : ℕ
  baseDecodeTime : Int64
  dataOffset : Int32
  samples : List SampleInfo
  mediaData : Bytes
deriving DecidableEq, Repr

/-- Decode the content of a track fragment: track, decode time and track run. -/
def decodeTraf (traf : Bytes) : Option (ℕ × Int64 × Int32 × List SampleInfo) :=
  (boxContents [ascii "tfhd", ascii "tfdt", ascii "trun"] traf).bind fun
  | [tfhd, tfdt, trun] =>
    ((fullBoxFields 0 0x020000 tfhd).bind (readOnlyField 4)).bind fun trackId =>
    ((fullBoxFields 1 0 tfdt).bind (readOnlyField 8)).bind fun baseDecodeTime =>
    (readTrun trun).map fun (dataOffset, samples) =>
      (trackId, Int64.ofBitVec (BitVec.ofNat 64 baseDecodeTime), dataOffset, samples)
  | _ => none

/-- Decode a media segment: styp, moof with mfhd and one traf, mdat, and nothing else. -/
def decodeFragment (bs : Bytes) : Option Fragment :=
  (boxContents [ascii "styp", ascii "moof", ascii "mdat"] bs).bind fun
  | [styp, moof, mediaData] =>
    (boxContents [ascii "mfhd", ascii "traf"] moof).bind fun
    | [mfhd, traf] =>
      ((fullBoxFields 0 0 mfhd).bind (readOnlyField 4)).bind fun sequenceNumber =>
      (decodeTraf traf).map fun (trackId, baseDecodeTime, dataOffset, samples) =>
        { moofStart := styp.length + 8
          sequenceNumber := sequenceNumber
          trackId := trackId
          baseDecodeTime := baseDecodeTime
          dataOffset := dataOffset
          samples := samples
          mediaData := mediaData }
    | _ => none
  | _ => none

/-! ### The written fragment -/

section

variable (params : MediaSegmentParams)

/-- The content of the trun box behind version and flags. -/
def trunFields : Bytes :=
  beBytes 4 params.samples.length ++ beBytes 4 (88 + params.samples.length * 16 + 8) ++
    params.samples.flatMap writeSample

theorem readTrun_trunFields (hlen : params.samples.length < 256 ^ 4) :
    readTrun (beBytes 1 0 ++ beBytes 3 0x000F01 ++ trunFields params) =
      some (Int32.ofBitVec (BitVec.ofNat 32 ((88 + params.samples.length * 16 + 8) % 256 ^ 4)),
        params.samples) := by
  rw [readTrun, fullBoxFields_append, Option.bind_some]
  simp only [trunFields, List.append_assoc, readField_append, Option.bind_some,
    Nat.mod_eq_of_lt hlen, readSamples_flatMap, Option.map_some]

/-- The children of traf. -/
def trafBoxes : List (Bytes × Bytes) :=
  [(ascii "tfhd", beBytes 1 0 ++ beBytes 3 0x020000 ++ beBytes 4 params.trackId.toNat),
    (ascii "tfdt", beBytes 1 1 ++ beBytes 3 0 ++ beBytes 8 params.baseDecodeTime.toBitVec.toNat),
    (ascii "trun", beBytes 1 0 ++ beBytes 3 0x000F01 ++ trunFields params)]

/-- The content of traf. -/
def trafContent : Bytes := (trafBoxes params).flatMap fun b => writeBox b.1 b.2

/-- The children of moof. -/
def moofBoxes : List (Bytes × Bytes) :=
  [(ascii "mfhd", beBytes 1 0 ++ beBytes 3 0 ++ beBytes 4 params.sequenceNumber),
    (ascii "traf", trafContent params)]

/-- The content of moof. -/
def moofContent : Bytes := (moofBoxes params).flatMap fun b => writeBox b.1 b.2

/-- The boxes of a media segment. -/
def segmentBoxes : List (Bytes × Bytes) :=
  [(ascii "styp", ascii "msdh" ++ beBytes 4 0 ++ ascii "msdh" ++ ascii "msix"),
    (ascii "moof", moofContent params), (ascii "mdat", params.mediaData)]

/-- What `generate_media_segment` writes, box by box. -/
theorem generateMediaSegment_eq_boxes :
    generateMediaSegment params =
      .ok ((segmentBoxes params).flatMap fun b => writeBox b.1 b.2) := by
  simp only [segmentBoxes, moofContent, moofBoxes, trafContent, trafBoxes, List.flatMap_cons,
    List.flatMap_nil, List.append_nil, ← writeFullBox_eq, ← List.append_assoc]
  rfl

theorem length_trafContent : (trafContent params).length = 56 + 16 * params.samples.length := by
  simp only [trafContent, trafBoxes, trunFields, List.flatMap_cons, List.flatMap_nil,
    List.length_append, List.length_nil, length_writeBox, length_beBytes,
    length_flatMap_writeSample, length_ascii]
  simp
  omega

theorem length_moofContent : (moofContent params).length = 80 + 16 * params.samples.length := by
  simp only [moofContent, moofBoxes, List.flatMap_cons, List.flatMap_nil, List.length_append,
    List.length_nil, length_writeBox, length_beBytes, length_trafContent, length_ascii]
  simp
  omega

/-- Every box of the segment fits its size field. -/
theorem segmentBoxes_fit (hmoof : 96 + 16 * params.samples.length < 2 ^ 31)
    (hmdat : params.mediaData.length + 8 < 2 ^ 32) :
    (∀ b ∈ segmentBoxes params, b.1.length = 4 ∧ b.2.length + 8 < 256 ^ 4) ∧
      (∀ b ∈ moofBoxes params, b.1.length = 4 ∧ b.2.length + 8 < 256 ^ 4) ∧
      ∀ b ∈ trafBoxes params, b.1.length = 4 ∧ b.2.length + 8 < 256 ^ 4 := by
  have hmoofLen := length_moofContent params
  have htrafLen := length_trafContent params
  have htrunLen : (trunFields params).length = 8 + 16 * params.samples.length := by
    simp only [trunFields, List.length_append, length_beBytes, length_flatMap_writeSample]
  refine ⟨?_, ?_, ?_⟩
  · simp only [segmentBoxes, List.forall_mem_cons, List.not_mem_nil, false_implies, implies_true,
      and_true, hmoofLen]
    refine ⟨⟨rfl, by decide⟩, ⟨rfl, by omega⟩, rfl, by omega⟩
  · simp only [moofBoxes, List.forall_mem_cons, List.not_mem_nil, false_implies, implies_true,
      and_true, htrafLen]
    refine ⟨⟨rfl, by simp⟩, rfl, by omega⟩
  · simp only [trafBoxes, List.forall_mem_cons, List.not_mem_nil, false_implies, implies_true,
      and_true, List.length_append, length_beBytes, htrunLen]
    refine ⟨⟨rfl, by decide⟩, ⟨rfl, by decide⟩, rfl, by omega⟩

theorem decodeTraf_trafContent (hmoof : 96 + 16 * params.samples.length < 2 ^ 31)
    (hmdat : params.mediaData.length + 8 < 2 ^ 32) :
    decodeTraf (trafContent params) =
      some (params.trackId.toNat, params.baseDecodeTime,
        Int32.ofBitVec (BitVec.ofNat 32 ((88 + params.samples.length * 16 + 8) % 256 ^ 4)),
        params.samples) := by
  have hcontents : boxContents [ascii "tfhd", ascii "tfdt", ascii "trun"] (trafContent params) =
      some ((trafBoxes params).map Prod.snd) :=
    boxContents_flatMap (segmentBoxes_fit params hmoof hmdat).2.2
  have htfhd : (fullBoxFields 0 0x020000 (beBytes 1 0 ++ beBytes 3 0x020000 ++
      beBytes 4 params.trackId.toNat)).bind (readOnlyField 4) = some params.trackId.toNat := by
    have htrack : params.trackId.toNat < 256 ^ 4 := params.trackId.toNat_lt
    rw [fullBoxFields_append, Option.bind_some, readOnlyField_beBytes, Nat.mod_eq_of_lt htrack]
  have htfdt : (fullBoxFields 1 0 (beBytes 1 1 ++ beBytes 3 0 ++
      beBytes 8 params.baseDecodeTime.toBitVec.toNat)).bind (readOnlyField 8) =
        some (params.baseDecodeTime.toBitVec.toNat % 256 ^ 8) := by
    rw [fullBoxFields_append, Option.bind_some, readOnlyField_beBytes]
  have htrun := readTrun_trunFields params (by omega)
  rw [decodeTraf, hcontents, Option.bind_some]
  simp only [trafBoxes, List.map_cons, List.map_nil]
  rw [htfhd, Option.bind_some, htfdt, Option.bind_some, htrun, Option.map_some, int64_ofNat_mod]

/-- A data offset below `2 ^ 31` is read back as a positive number. -/
theorem toInt_offset {n : ℕ} (h : n < 2 ^ 31) :
    (Int32.ofBitVec (BitVec.ofNat 32 (n % 256 ^ 4))).toInt = n := by
  have hsmall : n < 256 ^ 4 := by omega
  have hnat : (BitVec.ofNat 32 n).toNat = n := by
    rw [BitVec.toNat_ofNat]
    exact Nat.mod_eq_of_lt (by omega)
  rw [Nat.mod_eq_of_lt hsmall, Int32.toInt, Int32.toBitVec_ofBitVec, BitVec.toInt_eq_toNat_of_lt,
    hnat]
  rw [hnat]
  omega

theorem decodeFragment_segmentBoxes (hmoof : 96 + 16 * params.samples.length < 2 ^ 31)
    (hmdat : params.mediaData.length + 8 < 2 ^ 32) :
    decodeFragment ((segmentBoxes params).flatMap fun b => writeBox b.1 b.2) =
      some { moofStart := 24
             sequenceNumber := params.sequenceNumber % 256 ^ 4
             trackId := params.trackId.toNat
             baseDecodeTime := params.baseDecodeTime
             dataOffset :=
              Int32.ofBitVec (BitVec.ofNat 32 ((88 + params.samples.length * 16 + 8) % 256 ^ 4))
             samples := params.samples
             mediaData := params.mediaData } := by
  obtain ⟨hsegment, hmoofBoxes, -⟩ := segmentBoxes_fit params hmoof hmdat
  have hcontents : boxContents [ascii "styp", ascii "moof", ascii "mdat"]
      ((segmentBoxes params).flatMap fun b => writeBox b.1 b.2) =
        some ((segmentBoxes params).map Prod.snd) := boxContents_flatMap hsegment
  have hmoofContents : boxContents [ascii "mfhd", ascii "traf"] (moofContent params) =
      some ((moofBoxes params).map Prod.snd) := boxContents_flatMap hmoofBoxes
  have hmfhd : (fullBoxFields 0 0 (beBytes 1 0 ++ beBytes 3 0 ++
      beBytes 4 params.sequenceNumber)).bind (readOnlyField 4) =
        some (params.sequenceNumber % 256 ^ 4) := by
    rw [fullBoxFields_append, Option.bind_some, readOnlyField_beBytes]
  rw [decodeFragment, hcontents, Option.bind_some]
  simp only [segmentBoxes, List.map_cons, List.map_nil]
  rw [hmoofContents, Option.bind_some]
  simp only [moofBoxes, List.map_cons, List.map_nil]
  rw [hmfhd, Option.bind_some, decodeTraf_trafContent params hmoof hmdat, Option.map_some]
  rfl

/-- The media data is the end of the segment. -/
theorem exists_front :
    ∃ front, (segmentBoxes params).flatMap (fun b => writeBox b.1 b.2) =
        front ++ params.mediaData ∧ front.length = 120 + 16 * params.samples.length := by
  refine ⟨writeStyp ++ writeBox (ascii "moof") (moofContent params) ++
    (beBytes 4 (params.mediaData.length + 8) ++ ascii "mdat"), ?_, ?_⟩
  · simp only [segmentBoxes, List.flatMap_cons, List.flatMap_nil, List.append_nil, writeStyp,
      List.append_assoc]
    rfl
  · simp only [writeStyp, List.length_append, length_writeBox, length_moofContent, length_ascii,
      length_beBytes]
    simp
    omega

/-- **Fragments round-trip.** Decoding a written segment gives back its parameters, the
sequence number in its 32-bit field, and the data offset, counted from the first byte
of moof, is where the payload of mdat starts. -/
theorem decodeFragment_generateMediaSegment
    (hmoof : 96 + 16 * params.samples.length < 2 ^ 31)
    (hmdat : params.mediaData.length + 8 < 2 ^ 32) :
    ∃ data fragment, generateMediaSegment params = .ok data ∧
      decodeFragment data = some fragment ∧
      fragment.sequenceNumber = params.sequenceNumber % 2 ^ 32 ∧
      fragment.trackId = params.trackId.toNat ∧
      fragment.baseDecodeTime = params.baseDecodeTime ∧
      fragment.samples = params.samples ∧
      fragment.mediaData = params.mediaData ∧
      (fragment.moofStart + fragment.dataOffset.toInt + params.mediaData.length = data.length ∧
        data.drop (fragment.moofStart + fragment.dataOffset.toInt).toNat = params.mediaData) := by
  refine ⟨_, _, generateMediaSegment_eq_boxes params,
    decodeFragment_segmentBoxes params hmoof hmdat, rfl, rfl, rfl, rfl, rfl, ?_⟩
  have hoffset := toInt_offset (n := 88 + params.samples.length * 16 + 8) (by omega)
  obtain ⟨front, hdata, hfront⟩ := exists_front params
  have hstart : (24 : ℕ) + ((88 + params.samples.length * 16 + 8 : ℕ) : ℤ) = front.length := by
    rw [hfront]
    push_cast
    ring
  rw [hdata, hoffset, List.length_append]
  refine ⟨?_, List.drop_left' ?_⟩
  · rw [hstart]
    push_cast
    ring
  · rw [hstart, Int.toNat_natCast]

end

/-- One sample of three bytes, decoding at the first tick. -/
def sampleParams : MediaSegmentParams where
  sequenceNumber := 1
  baseDecodeTime := 540000
  samples := [{ duration := 3000, size := 3, flags := 0x02000000, compositionOffset := -90 }]
  mediaData := [0x65, 0x88, 0x84]
  trackId := 1

theorem decodeFragment_sample :
    96 + 16 * sampleParams.samples.length < 2 ^ 31 ∧ sampleParams.mediaData.length + 8 < 2 ^ 32 ∧
      ∃ data fragment, generateMediaSegment sampleParams = .ok data ∧
        decodeFragment data = some fragment ∧ fragment.samples = sampleParams.samples ∧
        fragment.mediaData = sampleParams.mediaData := by
  have hmoof : 96 + 16 * sampleParams.samples.length < 2 ^ 31 := by decide
  have hmdat : sampleParams.mediaData.length + 8 < 2 ^ 32 := by decide
  obtain ⟨data, fragment, hdata, hfragment, -, -, -, hsamples, hmedia, -⟩ :=
    decodeFragment_generateMediaSegment sampleParams hmoof hmdat
  exact ⟨hmoof, hmdat, data, fragment, hdata, hfragment, hsamples, hmedia⟩

end StreamInfa.Package
