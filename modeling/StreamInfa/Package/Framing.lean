import StreamInfa.Package.Trace

/-!
The framing of video samples: what an init segment declares and what a media
segment holds.

The readers below are a player's. `nalLengthSize` walks from the start of an init
segment down to the avcC box and takes the declared size of a NAL length field;
`mediaPayload` steps over styp and moof to the content of mdat; `splitNals` cuts a
payload by length fields.

The init segment declares 4-byte lengths (`nalLengthSize_generateInitSegment`), while
the payload is the segment's video as the demuxer left it, units behind start codes.
A start code 00 00 00 01 read as a length is 1, so **`framing_iff`**: the units come
back exactly when each of them is one byte long.
-/

namespace StreamInfa.Package

/-! ### Reading boxes -/

/-- Enter a box of the given type: the bytes after its header. -/
def enterBox (boxType bs : Bytes) : Option Bytes :=
  (takeExact 4 bs).bind fun (_, bs) =>
  (takeExact 4 bs).bind fun (found, bs) =>
  if found = boxType then some bs else none

/-- Step over a box of the given type. -/
def skipBox (boxType bs : Bytes) : Option Bytes :=
  (readBox bs).bind fun (found, _, rest) => if found = boxType then some rest else none

/-- Step over `n` bytes. -/
def skipBytes (n : ℕ) (bs : Bytes) : Option Bytes := (takeExact n bs).map Prod.snd

theorem enterBox_writeBox {boxType : Bytes} (hty : boxType.length = 4) (content rest : Bytes) :
    enterBox boxType (writeBox boxType content ++ rest) = some (content ++ rest) := by
  have h₁ : takeExact 4 (writeBox boxType content ++ rest) =
      some (beBytes 4 (content.length + 8), boxType ++ (content ++ rest)) := by
    rw [writeBox, List.append_assoc, List.append_assoc, takeExact_beBytes]
  simp only [enterBox, h₁, Option.bind_some, takeExact_append _ hty, if_true]

theorem skipBox_writeBox {boxType content : Bytes} (hty : boxType.length = 4)
    (hlen : content.length + 8 < 256 ^ 4) (rest : Bytes) :
    skipBox boxType (writeBox boxType content ++ rest) = some rest := by
  simp only [skipBox, readBox_writeBox hty hlen, Option.bind_some, if_true]

theorem skipBox_writeFullBox {boxType content : Bytes} (hty : boxType.length = 4)
    (hlen : content.length + 12 < 256 ^ 4) (version flags : ℕ) (rest : Bytes) :
    skipBox boxType (writeFullBox boxType version flags content ++ rest) = some rest := by
  rw [writeFullBox_eq]
  refine skipBox_writeBox hty ?_ rest
  simp only [List.length_append, length_beBytes]
  omega

theorem enterBox_writeFullBox {boxType : Bytes} (hty : boxType.length = 4) (version flags : ℕ)
    (content rest : Bytes) :
    enterBox boxType (writeFullBox boxType version flags content ++ rest) =
      some (beBytes 1 version ++ beBytes 3 flags ++ content ++ rest) := by
  rw [writeFullBox_eq, enterBox_writeBox hty]

theorem skipBytes_append {n : ℕ} {xs : Bytes} (h : xs.length = n) (ys : Bytes) :
    skipBytes n (xs ++ ys) = some ys := by
  rw [skipBytes, takeExact_append _ h, Option.map_some]

/-! ### The declared length size -/

/-- The content of the avcC box of an init segment. -/
def avcConfigOf (init : Bytes) : Option Bytes :=
  (skipBox (ascii "ftyp") init).bind fun bs =>
  (enterBox (ascii "moov") bs).bind fun bs =>
  (skipBox (ascii "mvhd") bs).bind fun bs =>
  (enterBox (ascii "trak") bs).bind fun bs =>
  (skipBox (ascii "tkhd") bs).bind fun bs =>
  (enterBox (ascii "mdia") bs).bind fun bs =>
  (skipBox (ascii "mdhd") bs).bind fun bs =>
  (skipBox (ascii "hdlr") bs).bind fun bs =>
  (enterBox (ascii "minf") bs).bind fun bs =>
  (skipBox (ascii "vmhd") bs).bind fun bs =>
  (skipBox (ascii "dinf") bs).bind fun bs =>
  (enterBox (ascii "stbl") bs).bind fun bs =>
  (enterBox (ascii "stsd") bs).bind fun bs =>
  -- version, flags and entry count, then the fixed fields of the sample entry
  (skipBytes 8 bs).bind fun bs =>
  (enterBox (ascii "avc1") bs).bind fun bs =>
  (skipBytes 78 bs).bind fun bs =>
  enterBox (ascii "avcC") bs

/-- The size of a NAL length field: lengthSizeMinusOne is the low two bits of the
fifth byte of the decoder configuration. -/
def nalLengthSize (init : Bytes) : Option ℕ :=
  (avcConfigOf init).bind fun config =>
  config[4]?.map fun b => (b &&& 3).toNat + 1

/-- Header and content of a short box fit its size field. -/
theorem short_lt {n : ℕ} (h : n ≤ 1000) : n + 12 < 256 ^ 4 :=
  lt_of_le_of_lt (Nat.add_le_add_right h 12) (by norm_num)

theorem skipBox_short {boxType content : Bytes} (hty : boxType.length = 4)
    (hlen : content.length ≤ 1000) (rest : Bytes) :
    skipBox boxType (writeBox boxType content ++ rest) = some rest :=
  skipBox_writeBox hty (lt_of_le_of_lt (by omega) (short_lt hlen)) rest

theorem skipBox_short_full {boxType content : Bytes} (hty : boxType.length = 4)
    (hlen : content.length ≤ 1000) (version flags : ℕ) (rest : Bytes) :
    skipBox boxType (writeFullBox boxType version flags content ++ rest) = some rest :=
  skipBox_writeFullBox hty (short_lt hlen) version flags rest

theorem skipBox_ftyp (rest : Bytes) : skipBox (ascii "ftyp") (writeFtyp ++ rest) = some rest :=
  skipBox_short rfl (by simp [length_ascii]) rest

theorem length_identityMatrix : identityMatrix.length = 36 := by
  simp [identityMatrix]

theorem skipBox_mvhd (timescale : UInt32) (rest : Bytes) :
    skipBox (ascii "mvhd") (buildMvhd timescale ++ rest) = some rest :=
  skipBox_short_full rfl (by simp [length_identityMatrix, zeros]) 0 0 rest

theorem skipBox_tkhd (trackId : ℕ) (width height : UInt32) (isVideo : Bool) (rest : Bytes) :
    skipBox (ascii "tkhd") (buildTkhd trackId width height isVideo ++ rest) = some rest :=
  skipBox_short_full rfl (by simp [length_identityMatrix, zeros]) 0 3 rest

theorem skipBox_mdhd (timescale : UInt32) (rest : Bytes) :
    skipBox (ascii "mdhd") (buildMdhd timescale ++ rest) = some rest :=
  skipBox_short_full rfl (by simp) 0 0 rest

theorem skipBox_hdlr (handlerType name : Bytes) (h : handlerType.length + name.length ≤ 900)
    (rest : Bytes) :
    skipBox (ascii "hdlr") (buildHdlr handlerType name ++ rest) = some rest :=
  skipBox_short_full rfl (by simp [zeros]; omega) 0 0 rest

theorem skipBox_vmhd (rest : Bytes) : skipBox (ascii "vmhd") (buildVmhd ++ rest) = some rest :=
  skipBox_short_full rfl (by simp [zeros]) 0 1 rest

theorem skipBox_dinf (rest : Bytes) : skipBox (ascii "dinf") (buildDinf ++ rest) = some rest :=
  skipBox_short rfl (by simp [writeFullBox, length_ascii]) rest

/-- Where the decoder configuration sits in an init segment. -/
theorem generateInitSegment_layout {params : InitSegmentParams} {data : Bytes}
    (h : generateInitSegment params = .ok data) :
    ∃ tail, data = writeFtyp ++ writeBox (ascii "moov")
      (buildMvhd params.videoTimescale ++ (writeBox (ascii "trak")
        (buildTkhd 1 params.width params.height true ++ writeBox (ascii "mdia")
          (buildMdhd params.videoTimescale ++
            (buildHdlr (ascii "vide") (ascii "VideoHandler") ++ writeBox (ascii "minf")
              (buildVmhd ++ (buildDinf ++ writeBox (ascii "stbl")
                (writeFullBox (ascii "stsd") 0 0 (beBytes 4 1 ++ writeBox (ascii "avc1")
                  (avc1Fields params ++ writeBox (ascii "avcC") (avcDecoderConfig params))) ++
                  emptySampleTables)))))) ++ tail)) := by
  have hvideo : buildVideoTrak params = .ok (writeBox (ascii "trak")
      (buildTkhd 1 params.width params.height true ++ writeBox (ascii "mdia")
        (buildMdhd params.videoTimescale ++
          (buildHdlr (ascii "vide") (ascii "VideoHandler") ++ writeBox (ascii "minf")
            (buildVmhd ++ (buildDinf ++ writeBox (ascii "stbl")
              (writeFullBox (ascii "stsd") 0 0 (beBytes 4 1 ++ writeBox (ascii "avc1")
                (avc1Fields params ++ writeBox (ascii "avcC") (avcDecoderConfig params))) ++
                emptySampleTables))))))) := by
    simp only [buildVideoTrak, buildVideoStbl, buildAvc1Entry, bind, Except.bind, pure,
      Except.pure, avc1Fields, List.append_assoc]
  obtain ⟨audio, haudio⟩ : ∃ audio, buildAudioTrakIfAny params = .ok audio := by
    unfold buildAudioTrakIfAny
    split
    · exact ⟨_, rfl⟩
    · exact ⟨_, rfl⟩
  simp only [generateInitSegment, buildMoov, hvideo, bind, Except.bind, pure, Except.pure,
    haudio, Except.ok.injEq] at h
  refine ⟨audio ++ buildMvex params.hasAudio, ?_⟩
  rw [← h]
  simp only [List.append_assoc]

/-- The avcC box of an init segment holds the decoder configuration. -/
theorem avcConfigOf_generateInitSegment {params : InitSegmentParams} {data : Bytes}
    (h : generateInitSegment params = .ok data) :
    ∃ rest, avcConfigOf data = some (avcDecoderConfig params ++ rest) := by
  obtain ⟨tail, rfl⟩ := generateInitSegment_layout h
  have hmoov : ∀ content, enterBox (ascii "moov") (writeBox (ascii "moov") content) =
      some content := by
    intro content
    simpa using enterBox_writeBox (show (ascii "moov").length = 4 from rfl) content []
  have hentry : ∀ bs, skipBytes 8 (beBytes 1 0 ++ (beBytes 3 0 ++ (beBytes 4 1 ++ bs))) =
      some bs := by
    intro bs
    have hlen : (beBytes 1 0 ++ beBytes 3 0 ++ beBytes 4 1).length = 8 := by simp
    have := skipBytes_append hlen bs
    simpa only [List.append_assoc] using this
  rw [avcConfigOf, skipBox_ftyp, Option.bind_some, hmoov, Option.bind_some, skipBox_mvhd,
    Option.bind_some, enterBox_writeBox rfl, Option.bind_some, List.append_assoc, skipBox_tkhd,
    Option.bind_some, enterBox_writeBox rfl, Option.bind_some, List.append_assoc, skipBox_mdhd,
    Option.bind_some, List.append_assoc, skipBox_hdlr _ _ (by decide), Option.bind_some,
    enterBox_writeBox rfl, Option.bind_some, List.append_assoc, skipBox_vmhd, Option.bind_some,
    List.append_assoc, skipBox_dinf, Option.bind_some, enterBox_writeBox rfl, Option.bind_some,
    List.append_assoc, enterBox_writeFullBox rfl, Option.bind_some]
  simp only [List.append_assoc]
  rw [hentry, Option.bind_some, enterBox_writeBox rfl, Option.bind_some, List.append_assoc,
    skipBytes_append (length_avc1Fields params), Option.bind_some, enterBox_writeBox rfl]
  exact ⟨_, rfl⟩

/-- Every init segment declares 4-byte NAL lengths. -/
theorem nalLengthSize_generateInitSegment {params : InitSegmentParams} {data : Bytes}
    (h : generateInitSegment params = .ok data) : nalLengthSize data = some 4 := by
  obtain ⟨rest, hconfig⟩ := avcConfigOf_generateInitSegment h
  have hbyte : (avcDecoderConfig params ++ rest)[4]? = some 0xFF := by
    simp [avcDecoderConfig, beBytes]
  rw [nalLengthSize, hconfig, Option.bind_some, hbyte, Option.map_some]
  decide

/-! ### The payload -/

/-- The content of the mdat box of a media segment. -/
def mediaPayload (segment : Bytes) : Option Bytes :=
  (skipBox (ascii "styp") segment).bind fun bs =>
  (skipBox (ascii "moof") bs).bind fun bs =>
  enterBox (ascii "mdat") bs

/-- The payload of a media segment is the media data it was made from. -/
theorem mediaPayload_generateMediaSegment (params : MediaSegmentParams) {data : Bytes}
    (hlen : 96 + 16 * params.samples.length < 256 ^ 4)
    (h : generateMediaSegment params = .ok data) :
    mediaPayload data = some params.mediaData := by
  obtain rfl := Except.ok.inj h
  have hstyp : ∀ rest, skipBox (ascii "styp") (writeStyp ++ rest) = some rest :=
    skipBox_short rfl (by simp [length_ascii])
  have hmdat : enterBox (ascii "mdat") (writeBox (ascii "mdat") params.mediaData) =
      some params.mediaData := by
    simpa using enterBox_writeBox (show (ascii "mdat").length = 4 from rfl) params.mediaData []
  rw [mediaPayload, List.append_assoc, hstyp, Option.bind_some, skipBox_writeBox rfl,
    Option.bind_some, hmdat]
  simp only [List.length_append, length_writeFullBox, length_writeBox, length_ascii,
    length_beBytes, length_flatMap_writeSample]
  refine lt_of_le_of_lt ?_ hlen
  simp
  omega

/-! ### Splitting a payload -/

/-- Cut a payload into NAL units by length fields of `size` bytes; `none` when it does
not end with a unit. -/
def splitNals (size : ℕ) (bs : Bytes) : Option (List Bytes) :=
  match bs with
  | [] => some []
  | b :: bs =>
    match takeExact size (b :: bs) with
    | none => none
    | some (len, body) =>
      match takeExact (beNat len) body with
      | none => none
      | some (nal, rest) =>
        if rest.length < (b :: bs).length then (splitNals size rest).map (nal :: ·) else none
termination_by bs.length
decreasing_by assumption

/-- NAL units as the demuxer emits them, each behind a start code. -/
def annexB (nals : List Bytes) : Bytes := nals.flatMap fun nal => [0x00, 0x00, 0x00, 0x01] ++ nal

/-- The NAL units a player finds in a media segment, with the length size of the init
segment. -/
def playedNals (init media : Bytes) : Option (List Bytes) :=
  (nalLengthSize init).bind fun size => (mediaPayload media).bind fun payload =>
    splitNals size payload

/-- The start code of the first unit reads as the length 1. -/
theorem splitNals_annexB_cons (c : UInt8) (u : Bytes) (nals : List Bytes) :
    splitNals 4 (annexB ((c :: u) :: nals)) =
      (splitNals 4 (u ++ annexB nals)).map ([c] :: ·) := by
  have hsplit : annexB ((c :: u) :: nals) =
      0x00 :: [0x00, 0x00, 0x01] ++ ([c] ++ (u ++ annexB nals)) := rfl
  have hlen : beNat [0x00, 0x00, 0x00, 0x01] = 1 := by simp [beNat]
  rw [hsplit, List.cons_append, splitNals, ← List.cons_append,
    takeExact_append (n := 4) _ rfl]
  dsimp only
  rw [hlen, takeExact_append (n := 1) _ rfl]
  dsimp only
  rw [if_pos]
  simp only [List.length_cons, List.length_append]
  omega

theorem splitNals_annexB_iff {nals : List Bytes} (hne : ∀ u ∈ nals, u ≠ []) :
    splitNals 4 (annexB nals) = some nals ↔ ∀ u ∈ nals, u.length = 1 := by
  induction nals with
  | nil => simp [annexB, splitNals]
  | cons u nals ih =>
    cases u with
    | nil => exact absurd rfl (hne [] List.mem_cons_self)
    | cons c u =>
      have ih' := ih fun u hu => hne u (List.mem_cons_of_mem _ hu)
      rw [splitNals_annexB_cons, Option.map_eq_some_iff]
      constructor
      · rintro ⟨rest, hrest, heq⟩
        obtain ⟨hu, rfl⟩ := List.cons.inj heq
        obtain rfl : [] = u := (List.cons.inj hu).2
        intro v hv
        rcases List.mem_cons.mp hv with rfl | hv
        · rfl
        · exact ih'.mp hrest v hv
      · intro hall
        have hnil : u = [] := by
          have := hall _ List.mem_cons_self
          simpa using this
        subst hnil
        exact ⟨nals, ih'.mpr fun v hv => hall v (List.mem_cons_of_mem _ hv), rfl⟩

/-! ### What the packager writes -/

/-- What a player finds in a segment the packager wrote, with any init segment it
wrote. -/
theorem playedNals_iff (env : PackagerEnv) (first segment : EncodedSegment) {nals : List Bytes}
    (hunits : ∀ u ∈ nals, u ≠ []) (hvideo : segment.videoData = annexB nals) :
    playedNals (initWriteOf env first).data
        (segmentWrite env segment
          (encoded (generateMediaSegment (mediaSegmentParams segment)))).data = some nals ↔
      ∀ u ∈ nals, u.length = 1 := by
  have hinit : nalLengthSize (initWriteOf env first).data = some 4 :=
    nalLengthSize_generateInitSegment (generateInitSegment_eq _)
  have hpayload : mediaPayload (segmentWrite env segment
      (encoded (generateMediaSegment (mediaSegmentParams segment)))).data =
        some segment.videoData :=
    mediaPayload_generateMediaSegment (mediaSegmentParams segment)
      (by simp [mediaSegmentParams]) (generateMediaSegment_eq _)
  rw [playedNals, hinit, Option.bind_some, hpayload, Option.bind_some, hvideo,
    splitNals_annexB_iff hunits]

/-- The framing that a rendition's init segment declares recovers the NAL units of a
segment exactly when each of them is one byte long. In a numbered input the segment's write is the
only one at its path. -/
theorem framing_iff (env : PackagerEnv) (input : List (EncodedSegment × DateTime))
    {segment : EncodedSegment} {now : DateTime} (hmem : (segment, now) ∈ input)
    {nals : List Bytes} (hunits : ∀ u ∈ nals, u ≠ []) (hvideo : segment.videoData = annexB nals) :
    (∃ init ∈ packagerTrace env input,
      init.path = initSegmentPath env.streamId.toText segment.rendition.asStr) ∧
    ∃ media ∈ packagerTrace env input,
      media = segmentWrite env segment
        (encoded (generateMediaSegment (mediaSegmentParams segment))) ∧
      media.path = segmentPath env.streamId.toText segment.rendition.asStr segment.sequence ∧
      (∀ init ∈ packagerTrace env input,
        init.path = initSegmentPath env.streamId.toText segment.rendition.asStr →
        (playedNals init.data media.data = some nals ↔ ∀ u ∈ nals, u.length = 1)) ∧
      (Numbered input → ∀ w ∈ packagerTrace env input, w.path = media.path → w = media) := by
  have hown : (segment, now) ∈ ownInput segment.rendition input :=
    List.mem_filter.mpr ⟨hmem, decide_eq_true rfl⟩
  refine ⟨?_, _, segmentWrite_mem_packagerTrace hmem, rfl, rfl, fun init hinit hpath => ?_,
    fun hnum w hw hpath => ?_⟩
  · obtain ⟨init, rest, htrace, hpath, -⟩ := renditionTrace_init env
      rendition_of_mem_ownInput (List.ne_nil_of_mem hown)
    refine ⟨init, (mem_packagerTrace_iff ?_).mpr (by rw [htrace]; exact List.mem_cons_self), hpath⟩
    rw [hpath, initSegmentPath_eq, isOfRendition_append]
  · obtain ⟨first, rfl⟩ := eq_initWriteOf_of_path hinit hpath
    exact playedNals_iff env first segment hunits hvideo
  · exact eq_segmentWrite_of_path hnum hmem hw hpath

section Sample

/-- A segment whose only NAL unit is one byte long. -/
def oneByteSegment : EncodedSegment :=
  { sampleSegment .low 0 true with videoData := annexB [[0x09]] }

theorem numbered_single (segment : EncodedSegment) (now : DateTime) (h : segment.sequence = 0) :
    Numbered [(segment, now)] := by
  have hown : ∀ r, ownInput r [(segment, now)] = [(segment, now)] ∨
      ownInput r [(segment, now)] = [] := by
    intro r
    by_cases hr : segment.rendition = r
    · exact Or.inl (List.filter_cons_of_pos (by simpa using hr))
    · exact Or.inr (List.filter_cons_of_neg (by simpa using hr))
  constructor
  · intro r
    rcases hown r with heq | heq
    · simp [heq, h, List.range_succ]
    · simp [heq]
  · intro r x hx
    rcases hown r with heq | heq
    · simp [heq] at hx
    · simp [heq] at hx

theorem framing_oneByte :
    Numbered [(oneByteSegment, ⟨0⟩)] ∧
    ∀ init ∈ packagerTrace (sampleEnv false) [(oneByteSegment, ⟨0⟩)],
      ∀ media ∈ packagerTrace (sampleEnv false) [(oneByteSegment, ⟨0⟩)],
      init.path = initSegmentPath (sampleEnv false).streamId.toText RenditionId.low.asStr →
      media.path = segmentPath (sampleEnv false).streamId.toText RenditionId.low.asStr 0 →
      playedNals init.data media.data = some [[0x09]] := by
  have hnum := numbered_single oneByteSegment ⟨0⟩ rfl
  refine ⟨hnum, fun init hinit media hmedia hinitPath hmediaPath => ?_⟩
  have hunits : ∀ u ∈ ([[0x09]] : List Bytes), u ≠ [] := by simp
  have hmem : (oneByteSegment, (⟨0⟩ : DateTime)) ∈ [(oneByteSegment, (⟨0⟩ : DateTime))] :=
    List.mem_cons_self
  obtain ⟨-, own, -, -, hpath, hplayed, honly⟩ :=
    framing_iff (sampleEnv false) [(oneByteSegment, ⟨0⟩)] hmem hunits rfl
  rw [honly hnum media hmedia (hmediaPath.trans hpath.symm)]
  exact (hplayed init hinit hinitPath).mpr (by simp)

/-- The sample segment holds one NAL unit of two bytes; what a player finds in its
file is something else. -/
theorem framing_fails_two_bytes :
    (sampleSegment .low 0 true).videoData = annexB [[0x65, 0x88]] ∧
    ∃ init ∈ packagerTrace (sampleEnv false) [(sampleSegment .low 0 true, ⟨0⟩)],
      ∃ media ∈ packagerTrace (sampleEnv false) [(sampleSegment .low 0 true, ⟨0⟩)],
      init.path = initSegmentPath (sampleEnv false).streamId.toText RenditionId.low.asStr ∧
      media.path = segmentPath (sampleEnv false).streamId.toText RenditionId.low.asStr 0 ∧
      playedNals init.data media.data ≠ some [[0x65, 0x88]] := by
  have hown : ownInput .low [(sampleSegment .low 0 true, ⟨0⟩)] =
      [(sampleSegment .low 0 true, (⟨0⟩ : DateTime))] := rfl
  refine ⟨rfl, initWriteOf (sampleEnv false) (sampleSegment .low 0 true),
    (mem_packagerTrace_iff (r := .low) ?_).mpr ?_, segmentWrite (sampleEnv false)
      (sampleSegment .low 0 true)
      (encoded (generateMediaSegment (mediaSegmentParams (sampleSegment .low 0 true)))),
    segmentWrite_mem_packagerTrace (x := (sampleSegment .low 0 true, ⟨0⟩)) List.mem_cons_self,
    rfl, rfl, ?_⟩
  · exact (congrArg _ (initSegmentPath_eq _ _)).trans (isOfRendition_append _)
  · rw [hown]
    exact List.mem_cons_self
  · intro h
    have hunits : ∀ u ∈ ([[0x65, 0x88]] : List Bytes), u ≠ [] := by simp
    have hall := (playedNals_iff (sampleEnv false) (sampleSegment .low 0 true)
      (sampleSegment .low 0 true) hunits rfl).mp h
    exact absurd (hall [0x65, 0x88] List.mem_cons_self) (by decide)

end Sample

end StreamInfa.Package
