import StreamInfa.Ingest.Demuxer
import StreamInfa.Package.BoxTree

/-!
The initialization segment as a tree of boxes.

`initBoxes` names the boxes that `generate_init_segment` nests; every size field of
the source is recomputed from the content by the layout, so reading the segment back
(`readTree`) tells whether the sizes are right. The audio configuration sits in
nested MPEG-4 descriptors, whose lengths the source writes as closed formulas; they
are read with the expandable length field of the format (`readDescriptors`).

The configuration record inside avcC is what an encoder sends at the start of a
stream: `parseAvcDecoderConfig_avcDecoderConfig` reads it with the demuxer of the
ingest side.
-/

namespace StreamInfa.Package

open IsoBox

/-! ### MPEG-4 descriptors -/

/-- An expandable length: seven bits a byte, the top bit set on all but the last. -/
def readDescriptorLength : ℕ → Bytes → Option (ℕ × Bytes)
  | _, [] => none
  | high, b :: bs =>
    if b.toNat < 128 then some (high * 128 + b.toNat, bs)
    else readDescriptorLength (high * 128 + b.toNat % 128) bs

/-- Split one descriptor off: its tag, its content and the bytes after it. -/
def readDescriptor : Bytes → Option (UInt8 × Bytes × Bytes)
  | [] => none
  | tag :: bs =>
    (readDescriptorLength 0 bs).bind fun (len, bs) =>
      (takeExact len bs).map fun (content, rest) => (tag, content, rest)

/-- The contents of the descriptors a byte string consists of, which must have the given
tags; `none` unless they fill it exactly. -/
def descriptorContents : List UInt8 → Bytes → Option (List Bytes)
  | [], bs => if bs = [] then some [] else none
  | tag :: tags, bs =>
    (readDescriptor bs).bind fun (tag', content, rest) =>
      if tag' = tag then (descriptorContents tags rest).map (content :: ·) else none

/-- The AudioSpecificConfig of an esds box: ES descriptor, decoder configuration
descriptor, decoder specific info, each filled exactly by its fixed fields and the
descriptors inside it. -/
def readEsds (content : Bytes) : Option Bytes :=
  (fullBoxFields 0 0 content).bind fun fields =>
  (descriptorContents [0x03] fields).bind fun
  | [es] =>
    (takeExact 3 es).bind fun (_, inner) =>
    (descriptorContents [0x04, 0x06] inner).bind fun
    | [decoderConfig, _] =>
      (takeExact 13 decoderConfig).bind fun (_, inner) =>
      (descriptorContents [0x05] inner).bind fun
      | [asc] => some asc
      | _ => none
    | _ => none
  | _ => none

theorem readDescriptor_append {tag : UInt8} {content : Bytes} (hlen : content.length < 128)
    (rest : Bytes) :
    readDescriptor (tag :: (beBytes 1 content.length ++ content ++ rest)) =
      some (tag, content, rest) := by
  have hbyte : beBytes 1 content.length = [UInt8.ofNat content.length] := by
    simp only [beBytes, Nat.pow_zero, Nat.div_one]
  have hsmall : (UInt8.ofNat content.length).toNat = content.length :=
    Nat.mod_eq_of_lt (Nat.lt_trans hlen (by decide))
  simp only [readDescriptor, hbyte, List.cons_append, List.nil_append, readDescriptorLength,
    hsmall, if_pos hlen, Nat.zero_mul, Nat.zero_add, Option.bind_some, takeExact_append _ rfl,
    Option.map_some]

theorem descriptorContents_cons {tag : UInt8} {tags : List UInt8} {content rest : Bytes}
    {contents : List Bytes} (hlen : content.length < 128)
    (hrest : descriptorContents tags rest = some contents) :
    descriptorContents (tag :: tags) (tag :: (beBytes 1 content.length ++ content ++ rest)) =
      some (content :: contents) := by
  rw [descriptorContents, readDescriptor_append hlen, Option.bind_some]
  simp only [if_true, hrest, Option.map_some]

/-- The decoder configuration descriptor's content. -/
def decoderConfigContent (asc : Bytes) : Bytes :=
  beBytes 1 0x40 ++ beBytes 1 0x15 ++ zeros 3 ++ beBytes 4 128000 ++ beBytes 4 128000 ++
    0x05 :: (beBytes 1 asc.length ++ asc ++ [])

/-- The ES descriptor's content. -/
def esContent (asc : Bytes) : Bytes :=
  beBytes 2 1 ++ beBytes 1 0 ++
    0x04 :: (beBytes 1 (decoderConfigContent asc).length ++ decoderConfigContent asc ++
      0x06 :: (beBytes 1 1 ++ [0x02] ++ []))

theorem length_decoderConfigContent (asc : Bytes) :
    (decoderConfigContent asc).length = 15 + asc.length := by
  simp only [decoderConfigContent, zeros, List.length_append, List.length_cons, List.length_nil,
    length_beBytes, List.length_replicate]
  omega

theorem length_esContent (asc : Bytes) : (esContent asc).length = 23 + asc.length := by
  simp only [esContent, List.length_append, List.length_cons, List.length_nil, length_beBytes,
    length_decoderConfigContent]
  omega

/-- The length fields written as closed formulas are the lengths of what they enclose. -/
theorem esDescriptor_eq (asc : Bytes) :
    esDescriptor asc = 0x03 :: (beBytes 1 (esContent asc).length ++ esContent asc ++ []) := by
  have htag : ∀ n, beBytes 1 n = [UInt8.ofNat n] := by
    intro n
    simp only [beBytes, Nat.pow_zero, Nat.div_one]
  rw [length_esContent]
  simp only [esContent, length_decoderConfigContent]
  simp only [decoderConfigContent, esDescriptor, htag, List.append_assoc, List.append_nil,
    List.cons_append, List.nil_append]
  rfl

theorem readEsds_esDescriptor {asc : Bytes} (hlen : asc.length ≤ 104) :
    readEsds (beBytes 1 0 ++ beBytes 3 0 ++ esDescriptor asc) = some asc := by
  have hend : descriptorContents [] [] = some [] := rfl
  have hasc : descriptorContents [0x05] (0x05 :: (beBytes 1 asc.length ++ asc ++ [])) =
      some [asc] := descriptorContents_cons (by omega) hend
  have hsl : descriptorContents [0x06] (0x06 :: (beBytes 1 1 ++ [0x02] ++ [])) = some [[0x02]] :=
    rfl
  have hinner := @descriptorContents_cons 0x04 [0x06] (decoderConfigContent asc) _ _
    (by rw [length_decoderConfigContent]; omega) hsl
  have hes := @descriptorContents_cons 0x03 [] (esContent asc) _ _
    (by rw [length_esContent]; omega) hend
  have hesFields : takeExact 3 (esContent asc) = some (beBytes 2 1 ++ beBytes 1 0, _) :=
    takeExact_append _ rfl
  have hdcFields : takeExact 13 (decoderConfigContent asc) = some (_, _) :=
    takeExact_append _ rfl
  rw [readEsds, fullBoxFields_append, Option.bind_some, esDescriptor_eq, hes, Option.bind_some]
  simp only [hesFields, Option.bind_some, hinner, hdcFields, hasc]

/-! ### The configuration record -/

section Record

open Ingest

theorem takeParameterSet_append {unit : Bytes} (hlen : unit.length < 2 ^ 16) (rest : Bytes) :
    takeParameterSet (beBytes 2 unit.length ++ unit ++ rest) = .ok (unit, rest) := by
  have hnat : beNat (beBytes 2 unit.length) = unit.length := beNat_beBytes_of_lt hlen
  simp only [takeParameterSet, List.append_assoc, takeExact_beBytes, hnat, takeExact_append _ rfl]

/-- One sequence parameter set: it is stored, and what is behind it is returned. -/
theorem readSpsEntries_one {sps : Bytes} (hlen : sps.length < 2 ^ 16) (rest : Bytes)
    (d : FlvDemuxer) :
    ∃ d', (readSpsEntries (beBytes 2 sps.length ++ sps ++ rest) 1).run.run d = (.ok rest, d') ∧
      d'.sps = some sps := by
  simp only [readSpsEntries, takeParameterSet_append hlen]
  by_cases hparse : 4 < sps.length
  · simp only [if_pos hparse]
    -- The dimensions change if they can be read.
    cases hdims : parseSpsDimensions sps with
    | none => exact ⟨_, rfl, rfl⟩
    | some dims => exact ⟨_, rfl, rfl⟩
  · simp only [if_neg hparse]
    exact ⟨_, rfl, rfl⟩

theorem readPpsEntries_one {pps : Bytes} (hlen : pps.length < 2 ^ 16) (d : FlvDemuxer) :
    (readPpsEntries (beBytes 2 pps.length ++ pps ++ []) 1).run.run d =
      (.ok (), { d with pps := some pps }) := by
  simp only [readPpsEntries, takeParameterSet_append hlen]
  rfl

/-- The demuxer takes the parameter sets of the record, whatever it says about the
resolution. -/
theorem parseAvcDecoderConfig_avcDecoderConfig {params : InitSegmentParams}
    (hsps : params.sps.length < 2 ^ 16) (hpps : params.pps.length < 2 ^ 16) (d : FlvDemuxer) :
    ((parseAvcDecoderConfig (avcDecoderConfig params)).run.run d).2.sps = some params.sps ∧
      ((parseAvcDecoderConfig (avcDecoderConfig params)).run.run d).2.pps = some params.pps := by
  have hlen : ¬(avcDecoderConfig params).length < 7 := by
    simp only [avcDecoderConfig, List.length_append, length_beBytes, List.length_cons,
      List.length_nil]
    omega
  have hcount : ((avcDecoderConfig params).getD 5 0).toNat % 32 = 1 := by
    simp [avcDecoderConfig, beBytes]
  have hdrop : (avcDecoderConfig params).drop 6 = beBytes 2 params.sps.length ++ params.sps ++
      (1 :: (beBytes 2 params.pps.length ++ params.pps ++ [])) := by
    simp [avcDecoderConfig, beBytes]
  have hone : (1 : UInt8).toNat = 1 := rfl
  obtain ⟨d', hread, hd'⟩ := readSpsEntries_one hsps
    (1 :: (beBytes 2 params.pps.length ++ params.pps ++ [])) d
  simp only [parseAvcDecoderConfig, if_neg hlen, hcount, hdrop]
  rw [DemuxM.run_bind hread]
  simp only [hone]
  rw [DemuxM.run_bind (readPpsEntries_one hpps d'), DemuxM.run_bind (DemuxM.run_get _)]
  -- The check of the resolution changes nothing.
  split_ifs <;> exact ⟨hd', rfl⟩

end Record

/-! ### The boxes of the segment -/

/-- A box that holds no others, from its bytes. -/
def leafOf (boxType : String) (bytes : Bytes) : IsoBox := leaf (ascii boxType) (bytes.drop 8)

section Boxes

variable (params : InitSegmentParams)

/-- The fixed fields of an audio sample entry. -/
def mp4aFields : Bytes :=
  zeros 6 ++ beBytes 2 1 ++ zeros 8 ++ beBytes 2 2 ++ beBytes 2 16 ++ beBytes 2 0 ++
    beBytes 2 0 ++ beBytes 4 (params.audioTimescale.toNat <<< 16)

/-- Version, flags and the number of entries, which is 1. -/
def oneEntry : Bytes := beBytes 1 0 ++ beBytes 3 0 ++ beBytes 4 1

def avc1Box : IsoBox :=
  container (ascii "avc1") (avc1Fields params) [leaf (ascii "avcC") (avcDecoderConfig params)]

def mp4aBox : IsoBox :=
  container (ascii "mp4a") (mp4aFields params) <|
    params.audioSpecificConfig.toList.map fun asc =>
      leafOf "esds" (writeFullBox (ascii "esds") 0 0 (esDescriptor asc))

def dinfBox : IsoBox :=
  container (ascii "dinf") []
    [container (ascii "dref") oneEntry [leafOf "url " (writeFullBox (ascii "url ") 0 1 [])]]

/-- The sample table around one sample entry. -/
def stblBox (entry : IsoBox) : IsoBox :=
  container (ascii "stbl") []
    [container (ascii "stsd") oneEntry [entry],
      leafOf "stts" (writeFullBox (ascii "stts") 0 0 (beBytes 4 0)),
      leafOf "stsc" (writeFullBox (ascii "stsc") 0 0 (beBytes 4 0)),
      leafOf "stsz" (writeFullBox (ascii "stsz") 0 0 (zeros 8)),
      leafOf "stco" (writeFullBox (ascii "stco") 0 0 (beBytes 4 0))]

/-- A track: header, media header, handler, media information header, sample entry. -/
def trakBox (tkhd mdhd hdlr mediaHeader entry : IsoBox) : IsoBox :=
  container (ascii "trak") []
    [tkhd, container (ascii "mdia") []
      [mdhd, hdlr, container (ascii "minf") [] [mediaHeader, dinfBox, stblBox entry]]]

def videoTrakBox : IsoBox :=
  trakBox (leafOf "tkhd" (buildTkhd 1 params.width params.height true))
    (leafOf "mdhd" (buildMdhd params.videoTimescale))
    (leafOf "hdlr" (buildHdlr (ascii "vide") (ascii "VideoHandler")))
    (leafOf "vmhd" buildVmhd) (avc1Box params)

def audioTrakBox : IsoBox :=
  trakBox (leafOf "tkhd" (buildTkhd 2 0 0 false))
    (leafOf "mdhd" (buildMdhd params.audioTimescale))
    (leafOf "hdlr" (buildHdlr (ascii "soun") (ascii "SoundHandler")))
    (leafOf "smhd" buildSmhd) (mp4aBox params)

/-- Something for each track, given for the first and the second. -/
def perTrack {α : Type} (video audio : α) : List α :=
  if params.hasAudio then [video, audio] else [video]

/-- The boxes of an initialization segment. -/
def initBoxes : List IsoBox :=
  [leafOf "ftyp" writeFtyp,
    container (ascii "moov") []
      (leafOf "mvhd" (buildMvhd params.videoTimescale) ::
        (perTrack params (videoTrakBox params) (audioTrakBox params) ++
          [container (ascii "mvex") []
            (perTrack params (leafOf "trex" (buildTrex 1)) (leafOf "trex" (buildTrex 2)))]))]

theorem leafOf_writeBox (boxType : String) (content : Bytes)
    (hty : (ascii boxType).length = 4) :
    leafOf boxType (writeBox (ascii boxType) content) = leaf (ascii boxType) content := by
  have hdrop : (writeBox (ascii boxType) content).drop 8 = content := by
    rw [writeBox]
    exact List.drop_left' (by rw [List.length_append, length_beBytes, hty])
  rw [leafOf, hdrop]

theorem leafOf_writeFullBox (boxType : String) (version flags : ℕ) (content : Bytes)
    (hty : (ascii boxType).length = 4) :
    leafOf boxType (writeFullBox (ascii boxType) version flags content) =
      leaf (ascii boxType) (beBytes 1 version ++ beBytes 3 flags ++ content) := by
  rw [writeFullBox_eq, leafOf_writeBox boxType _ hty]

theorem write_leafOf_full (boxType : String) (version flags : ℕ) (content : Bytes)
    (hty : (ascii boxType).length = 4) :
    (leafOf boxType (writeFullBox (ascii boxType) version flags content)).write =
      writeFullBox (ascii boxType) version flags content := by
  rw [leafOf_writeFullBox boxType _ _ _ hty, write, writeFullBox_eq]

/-! The builders of the source lay out these boxes, level by level. -/

theorem write_dinfBox : dinfBox.write = buildDinf := by
  rw [buildDinf, writeFullBox_eq (ascii "dref")]
  simp only [dinfBox, oneEntry, write, writeAll, write_leafOf_full "url " 0 1 [] rfl,
    List.nil_append,
    List.append_nil, List.append_assoc]

theorem write_stblBox (entry : IsoBox) :
    (stblBox entry).write = writeBox (ascii "stbl")
      (writeFullBox (ascii "stsd") 0 0 (beBytes 4 1 ++ entry.write) ++ emptySampleTables) := by
  rw [writeFullBox_eq (ascii "stsd")]
  simp only [stblBox, oneEntry, emptySampleTables, write, writeAll,
    write_leafOf_full "stts" 0 0 _ rfl, write_leafOf_full "stsc" 0 0 _ rfl,
    write_leafOf_full "stsz" 0 0 _ rfl,
    write_leafOf_full "stco" 0 0 _ rfl, List.nil_append, List.append_nil, List.append_assoc]

theorem write_trakBox (tkhd mdhd hdlr mediaHeader entry : IsoBox) :
    (trakBox tkhd mdhd hdlr mediaHeader entry).write = writeBox (ascii "trak")
      (tkhd.write ++ writeBox (ascii "mdia") (mdhd.write ++ hdlr.write ++
        writeBox (ascii "minf") (mediaHeader.write ++ buildDinf ++ (stblBox entry).write))) := by
  simp only [trakBox, write, writeAll, write_dinfBox, List.nil_append, List.append_nil,
    List.append_assoc]

theorem buildVideoTrak_eq : buildVideoTrak params = .ok (videoTrakBox params).write := by
  have hentry : buildAvc1Entry params = .ok (avc1Box params).write := by
    simp only [avc1Box, write, writeAll, List.append_nil]
    rfl
  rw [videoTrakBox, write_trakBox, write_stblBox, buildVideoTrak, buildVideoStbl, hentry]
  simp only [buildTkhd, buildMdhd, buildHdlr, buildVmhd, write_leafOf_full "tkhd" 0 3 _ rfl,
    write_leafOf_full "mdhd" 0 0 _ rfl, write_leafOf_full "hdlr" 0 0 _ rfl,
    write_leafOf_full "vmhd" 0 1 _ rfl,
    bind, Except.bind, pure, Except.pure]

theorem buildAudioTrak_eq : buildAudioTrak params = .ok (audioTrakBox params).write := by
  have hentry : buildMp4aEntry params = .ok (mp4aBox params).write := by
    simp only [mp4aBox, write, buildMp4aEntry]
    cases params.audioSpecificConfig with
    | none => rfl
    | some asc =>
      simp only [Option.toList_some, List.map_cons, List.map_nil, writeAll, List.append_nil,
        write_leafOf_full "esds" 0 0 _ rfl]
      rfl
  rw [audioTrakBox, write_trakBox, write_stblBox, buildAudioTrak, buildAudioStbl, hentry]
  simp only [buildTkhd, buildMdhd, buildHdlr, buildSmhd, write_leafOf_full "tkhd" 0 3 _ rfl,
    write_leafOf_full "mdhd" 0 0 _ rfl, write_leafOf_full "hdlr" 0 0 _ rfl,
    write_leafOf_full "smhd" 0 0 _ rfl,
    bind, Except.bind, pure, Except.pure]

/-- The second track's part, if there is one. -/
theorem writeAll_perTrack (video audio : IsoBox) :
    writeAll (perTrack params video audio) =
      video.write ++ if params.hasAudio then audio.write else [] := by
  unfold perTrack
  split
  · simp only [writeAll, List.append_nil]
  · simp only [writeAll]

theorem writeAll_append (xs ys : List IsoBox) :
    writeAll (xs ++ ys) = writeAll xs ++ writeAll ys := by
  induction xs with
  | nil => rfl
  | cons x xs ih => rw [List.cons_append, writeAll, writeAll, ih, List.append_assoc]

theorem buildMoov_eq :
    buildMoov params = .ok (writeBox (ascii "moov") (buildMvhd params.videoTimescale ++
      (videoTrakBox params).write ++
      (if params.hasAudio then (audioTrakBox params).write else []) ++
      buildMvex params.hasAudio)) := by
  rw [buildMoov, buildVideoTrak_eq, buildAudioTrakIfAny, buildAudioTrak_eq]
  split <;> rfl

theorem generateInitSegment_eq_boxes :
    generateInitSegment params = .ok (writeAll (initBoxes params)) := by
  have hftyp : (leafOf "ftyp" writeFtyp).write = writeFtyp := by
    rw [writeFtyp, leafOf_writeBox "ftyp" _ rfl, write]
  have htrex : ∀ trackId, (leafOf "trex" (buildTrex trackId)).write = buildTrex trackId := by
    intro trackId
    rw [buildTrex, write_leafOf_full "trex" 0 0 _ rfl]
  have hmvhd : (leafOf "mvhd" (buildMvhd params.videoTimescale)).write =
      buildMvhd params.videoTimescale := by
    rw [buildMvhd, write_leafOf_full "mvhd" 0 0 _ rfl]
  rw [generateInitSegment, buildMoov_eq, initBoxes]
  simp only [writeAll, write, hftyp, hmvhd, writeAll_append, writeAll_perTrack, htrex, buildMvex,
    List.append_assoc, List.append_nil, List.nil_append, bind, Except.bind, pure, Except.pure]

/-! The boxes are of the kind their types say. -/

theorem fits_leafOf {boxType : String} (bytes : Bytes) (n : ℕ)
    (hlen : (ascii boxType).length = 4 ∧ containerFields (ascii boxType) = none) :
    (leafOf boxType bytes).Fits n := by
  cases n <;> exact hlen

theorem fits_stblBox {entry : IsoBox} {n : ℕ} (h : entry.Fits n) :
    (stblBox entry).Fits (n + 2) := by
  refine ⟨rfl, rfl, ?_⟩
  simp only [List.forall_mem_cons, List.not_mem_nil, false_implies, implies_true, and_true]
  refine ⟨⟨rfl, rfl, ?_⟩, ?_, ?_, ?_, ?_⟩
  · intro box hbox
    rw [List.mem_singleton.mp hbox]
    exact h
  all_goals exact fits_leafOf _ _ (by decide)

theorem fits_dinfBox (n : ℕ) : dinfBox.Fits (n + 2) := by
  refine ⟨rfl, rfl, fun box hbox => ?_⟩
  rw [List.mem_singleton.mp hbox]
  refine ⟨rfl, rfl, fun box hbox => ?_⟩
  rw [List.mem_singleton.mp hbox]
  exact fits_leafOf _ _ (by decide)

theorem fits_trakBox {tkhd mdhd hdlr mediaHeader entry : IsoBox} {n : ℕ}
    (htkhd : tkhd.Fits (n + 4)) (hmdhd : mdhd.Fits (n + 3)) (hhdlr : hdlr.Fits (n + 3))
    (hmediaHeader : mediaHeader.Fits (n + 2)) (hentry : entry.Fits n) :
    (trakBox tkhd mdhd hdlr mediaHeader entry).Fits (n + 5) := by
  refine ⟨rfl, rfl, ?_⟩
  simp only [List.forall_mem_cons, List.not_mem_nil, false_implies, implies_true, and_true]
  refine ⟨htkhd, rfl, rfl, ?_⟩
  simp only [List.forall_mem_cons, List.not_mem_nil, false_implies, implies_true, and_true]
  refine ⟨hmdhd, hhdlr, rfl, rfl, ?_⟩
  simp only [List.forall_mem_cons, List.not_mem_nil, false_implies, implies_true, and_true]
  exact ⟨hmediaHeader, fits_dinfBox n, fits_stblBox hentry⟩

theorem fits_videoTrakBox : (videoTrakBox params).Fits 6 := by
  have hentry : (avc1Box params).Fits 1 := by
    refine ⟨rfl, by rw [length_avc1Fields]; rfl, fun box hbox => ?_⟩
    rw [List.mem_singleton.mp hbox]
    exact ⟨rfl, rfl⟩
  refine fits_trakBox ?_ ?_ ?_ ?_ hentry
  all_goals exact fits_leafOf _ _ (by decide)

theorem fits_audioTrakBox : (audioTrakBox params).Fits 6 := by
  have hfields : (mp4aFields params).length = 28 := by
    simp [mp4aFields, zeros]
  have hentry : (mp4aBox params).Fits 1 := by
    refine ⟨rfl, by rw [hfields]; rfl, fun box hbox => ?_⟩
    obtain ⟨asc, -, rfl⟩ := List.mem_map.mp hbox
    exact fits_leafOf _ _ (by decide)
  refine fits_trakBox ?_ ?_ ?_ ?_ hentry
  all_goals exact fits_leafOf _ _ (by decide)

theorem forall_mem_perTrack {α : Type} {p : α → Prop} {video audio : α} (hvideo : p video)
    (haudio : p audio) : ∀ a ∈ perTrack params video audio, p a := by
  intro a ha
  unfold perTrack at ha
  split at ha
  · simp only [List.mem_cons, List.not_mem_nil, or_false] at ha
    rcases ha with rfl | rfl
    · exact hvideo
    · exact haudio
  · rw [List.mem_singleton.mp ha]
    exact hvideo

theorem fits_initBoxes : ∀ box ∈ initBoxes params, box.Fits 7 := by
  simp only [initBoxes, List.forall_mem_cons, List.not_mem_nil, false_implies, implies_true,
    and_true]
  refine ⟨fits_leafOf _ _ (by decide), rfl, rfl, ?_⟩
  simp only [List.forall_mem_cons, List.forall_mem_append, List.not_mem_nil, false_implies,
    implies_true, and_true]
  refine ⟨fits_leafOf _ _ (by decide), ?_, rfl, rfl, ?_⟩
  · exact forall_mem_perTrack params (fits_videoTrakBox params) (fits_audioTrakBox params)
  · apply forall_mem_perTrack
    · exact fits_leafOf _ _ (by decide)
    · exact fits_leafOf _ _ (by decide)

/-! The whole file is far below what a size field can hold. -/

theorem length_avcDecoderConfig :
    (avcDecoderConfig params).length = 11 + params.sps.length + params.pps.length := by
  simp only [avcDecoderConfig, List.length_append, length_beBytes, List.length_cons,
    List.length_nil]
  omega

theorem length_esDescriptor (asc : Bytes) : (esDescriptor asc).length = 25 + asc.length := by
  rw [esDescriptor_eq]
  simp only [List.length_cons, List.length_append, length_beBytes, length_esContent,
    List.length_nil]
  omega

theorem length_videoTrakBox_le :
    (videoTrakBox params).write.length ≤ 1000 + params.sps.length + params.pps.length := by
  simp only [videoTrakBox, write_trakBox, write_stblBox, avc1Box, write, writeAll, buildDinf,
    emptySampleTables, length_writeBox, length_writeFullBox, List.length_append, length_beBytes,
    length_avc1Fields, length_avcDecoderConfig, leafOf, List.length_drop]
  simp [length_ascii, buildTkhd, buildMdhd, buildHdlr, buildVmhd, length_writeFullBox, zeros,
    identityMatrix]
  omega

theorem length_audioTrakBox_le (hasc : ∀ asc ∈ params.audioSpecificConfig, asc.length ≤ 104) :
    (audioTrakBox params).write.length ≤ 1000 := by
  have hesds : (writeAll (params.audioSpecificConfig.toList.map fun asc =>
      leafOf "esds" (writeFullBox (ascii "esds") 0 0 (esDescriptor asc)))).length ≤ 200 := by
    cases hconfig : params.audioSpecificConfig with
    | none => exact Nat.zero_le _
    | some asc =>
      have hlen := hasc asc hconfig
      simp only [Option.toList_some, List.map_cons, List.map_nil, writeAll,
        write_leafOf_full "esds" 0 0 _ rfl, List.append_nil, length_writeFullBox,
        length_esDescriptor, length_ascii]
      simp
      omega
  simp only [audioTrakBox, write_trakBox, write_stblBox, mp4aBox, write, buildDinf,
    emptySampleTables, length_writeBox, length_writeFullBox, List.length_append, length_beBytes,
    leafOf, List.length_drop] at hesds ⊢
  simp [length_ascii, buildTkhd, buildMdhd, buildHdlr, buildSmhd, length_writeFullBox, zeros,
    identityMatrix, mp4aFields] at hesds ⊢
  omega

theorem length_initBoxes (hsps : params.sps.length < 2 ^ 16) (hpps : params.pps.length < 2 ^ 16)
    (hasc : ∀ asc ∈ params.audioSpecificConfig, asc.length ≤ 104) :
    7 ≤ (writeAll (initBoxes params)).length ∧
      (writeAll (initBoxes params)).length < 256 ^ 4 := by
  have hvideo := length_videoTrakBox_le params
  have haudio := length_audioTrakBox_le params hasc
  have hmvhd : (leafOf "mvhd" (buildMvhd params.videoTimescale)).write.length ≤ 200 := by
    simp [leafOf, write, length_writeBox, length_ascii, buildMvhd, length_writeFullBox, zeros,
      identityMatrix]
  have htrex : ∀ trackId, (leafOf "trex" (buildTrex trackId)).write.length ≤ 200 := by
    intro trackId
    simp [leafOf, write, length_writeBox, length_ascii, buildTrex, length_writeFullBox]
  have hftyp : (leafOf "ftyp" writeFtyp).write.length = 28 := by
    simp [leafOf, write, length_writeBox, length_ascii, writeFtyp]
  have htrex₁ := htrex 1
  have htrex₂ := htrex 2
  simp only [initBoxes, writeAll, write, writeAll_append, writeAll_perTrack, length_writeBox,
    List.length_append, List.length_nil, hftyp]
  have hmoov : (ascii "moov").length = 4 := rfl
  have hmvex : (ascii "mvex").length = 4 := rfl
  rw [hmoov, hmvex]
  split
  · omega
  · simp only [List.length_nil]
    omega

/-! ### Well nested -/

/-- The track ID of a track header or of the defaults of a track: a 4-byte field behind
`skip` bytes. -/
def trackIdAt (skip : ℕ) (box : IsoBox) : Option ℕ :=
  (takeExact skip box.content).bind fun (_, fields) => (readField 4 fields).map Prod.fst

theorem trackIdAt_leaf {ty bytes skipped rest : Bytes} {skip trackId : ℕ}
    (hbytes : bytes = skipped ++ (beBytes 4 trackId ++ rest)) (hskip : skipped.length = skip)
    (htrack : trackId < 256 ^ 4) : trackIdAt skip (leaf ty bytes) = some trackId := by
  simp only [trackIdAt, content, hbytes, takeExact_append _ hskip, Option.bind_some,
    readField_append, Option.map_some, Nat.mod_eq_of_lt htrack]

theorem trackIdAt_tkhd {trackId : ℕ} (htrack : trackId < 256 ^ 4) (width height : UInt32)
    (isVideo : Bool) :
    trackIdAt 12 (leafOf "tkhd" (buildTkhd trackId width height isVideo)) = some trackId := by
  have hlen : (beBytes 1 0 ++ beBytes 3 3 ++ (beBytes 4 0 ++ beBytes 4 0)).length = 12 := rfl
  rw [buildTkhd, leafOf_writeFullBox "tkhd" _ _ _ rfl]
  apply trackIdAt_leaf _ hlen htrack
  rotate_left
  · simp only [List.append_assoc]
    rfl

theorem trackIdAt_trex {trackId : ℕ} (htrack : trackId < 256 ^ 4) :
    trackIdAt 4 (leafOf "trex" (buildTrex trackId)) = some trackId := by
  have hlen : (beBytes 1 0 ++ beBytes 3 0).length = 4 := rfl
  rw [buildTrex, leafOf_writeFullBox "trex" _ _ _ rfl]
  apply trackIdAt_leaf _ hlen htrack
  rotate_left
  · simp only [List.append_assoc]
    rfl

/-- The path to the sample entries. -/
def stsdPath : List Bytes := ["moov", "trak", "mdia", "minf", "stbl", "stsd"].map ascii

theorem map_perTrack {α β : Type} (f : α → β) (video audio : α) :
    (perTrack params video audio).map f = perTrack params (f video) (f audio) := by
  unfold perTrack
  split <;> rfl

theorem find_trak :
    find (["moov", "trak"].map ascii) (initBoxes params) =
      perTrack params (videoTrakBox params) (audioTrakBox params) := by
  unfold initBoxes perTrack
  split <;> rfl

theorem find_trex :
    find (["moov", "mvex", "trex"].map ascii) (initBoxes params) =
      perTrack params (leafOf "trex" (buildTrex 1)) (leafOf "trex" (buildTrex 2)) := by
  unfold initBoxes perTrack
  split <;> rfl

/-- The sample entries of the tracks. -/
theorem sampleEntries_initBoxes :
    (find stsdPath (initBoxes params)).flatMap children =
      perTrack params (avc1Box params) (mp4aBox params) := by
  have hvideo : find (["mdia", "minf", "stbl", "stsd"].map ascii) (videoTrakBox params).children =
      [container (ascii "stsd") oneEntry [avc1Box params]] := rfl
  have haudio : find (["mdia", "minf", "stbl", "stsd"].map ascii) (audioTrakBox params).children =
      [container (ascii "stsd") oneEntry [mp4aBox params]] := rfl
  have hpath : stsdPath =
      ["moov", "trak"].map ascii ++ ["mdia", "minf", "stbl", "stsd"].map ascii := rfl
  rw [hpath, find_append (by decide) (by decide), find_trak]
  unfold perTrack
  split
  · simp only [List.flatMap_cons, List.flatMap_nil, List.append_nil, find_boxes_append, hvideo,
      haudio]
    rfl
  · simp only [List.flatMap_cons, List.flatMap_nil, List.append_nil, hvideo]
    rfl

/-- The audio configuration is the one the entry was written with. -/
theorem esds_mp4aBox (hasc : ∀ asc ∈ params.audioSpecificConfig, asc.length ≤ 104) :
    (find [ascii "esds"] (mp4aBox params).children).map (fun esds => readEsds esds.content) =
      params.audioSpecificConfig.toList.map some := by
  simp only [mp4aBox, children]
  cases hconfig : params.audioSpecificConfig with
  | none => rfl
  | some asc =>
    have hread := readEsds_esDescriptor (hasc asc hconfig)
    simp only [Option.toList_some, List.map_cons, List.map_nil,
      leafOf_writeFullBox "esds" 0 0 _ rfl]
    have hfind : ∀ bytes, find [ascii "esds"] [leaf (ascii "esds") bytes] =
        [leaf (ascii "esds") bytes] := fun _ => rfl
    rw [hfind, List.map_singleton, content, hread]

/-- **An initialization segment is well nested, and the demuxer reads its record back.**
The segment is ftyp and moov, with every container filled exactly (`readTree`); there
is one track header and one trex for each track; the descriptors of the audio sample
entry enclose the AudioSpecificConfig exactly; and there is one configuration record,
which leaves any demuxer with the parameter sets it was written from. -/
theorem generateInitSegment_well_nested (hsps : params.sps.length < 2 ^ 16)
    (hpps : params.pps.length < 2 ^ 16)
    (hasc : ∀ asc ∈ params.audioSpecificConfig, asc.length ≤ 104) :
    ∃ data boxes, generateInitSegment params = .ok data ∧ readTree data = some boxes ∧
      boxes.map boxType = [ascii "ftyp", ascii "moov"] ∧
      (find (["moov", "trak"].map ascii) boxes).map (fun trak =>
        (find [ascii "tkhd"] trak.children).map (trackIdAt 12)) =
          perTrack params [some 1] [some 2] ∧
      (find (["moov", "mvex", "trex"].map ascii) boxes).map (trackIdAt 4) =
        perTrack params (some 1) (some 2) ∧
      (find (stsdPath ++ [ascii "mp4a"]) boxes).map (fun entry =>
        (find [ascii "esds"] entry.children).map fun esds => readEsds esds.content) =
          (if params.hasAudio then [params.audioSpecificConfig.toList.map some] else []) ∧
      ∃ record, (find (stsdPath ++ [ascii "avc1", ascii "avcC"]) boxes).map content = [record] ∧
        ∀ d : Ingest.FlvDemuxer,
          ((Ingest.parseAvcDecoderConfig record).run.run d).2.sps = some params.sps ∧
            ((Ingest.parseAvcDecoderConfig record).run.run d).2.pps = some params.pps := by
  obtain ⟨hdeep, hsize⟩ := length_initBoxes params hsps hpps hasc
  refine ⟨writeAll (initBoxes params), initBoxes params, generateInitSegment_eq_boxes params,
    readTree_writeAll (fits_initBoxes params) hdeep hsize, rfl, ?_, ?_, ?_, avcDecoderConfig params,
    ?_, fun d => parseAvcDecoderConfig_avcDecoderConfig hsps hpps d⟩
  · have hvideo : find [ascii "tkhd"] (videoTrakBox params).children =
        [leafOf "tkhd" (buildTkhd 1 params.width params.height true)] := rfl
    have haudio : find [ascii "tkhd"] (audioTrakBox params).children =
        [leafOf "tkhd" (buildTkhd 2 0 0 false)] := rfl
    rw [find_trak, map_perTrack, hvideo, haudio, List.map_singleton, List.map_singleton,
      trackIdAt_tkhd (by decide), trackIdAt_tkhd (by decide)]
  · rw [find_trex, map_perTrack, trackIdAt_trex (by decide), trackIdAt_trex (by decide)]
  · rw [find_append (by decide) (by decide), sampleEntries_initBoxes]
    unfold perTrack
    split
    · have hfind : find [ascii "mp4a"] [avc1Box params, mp4aBox params] = [mp4aBox params] := rfl
      rw [hfind, List.map_singleton, esds_mp4aBox params hasc]
    · rfl
  · rw [find_append (by decide) (by decide), sampleEntries_initBoxes]
    unfold perTrack
    split <;> rfl

end Boxes

/-- A 1280x720 stream with stereo AAC audio. -/
def stereoParams : InitSegmentParams where
  width := 1280
  height := 720
  videoTimescale := 90000
  audioTimescale := 48000
  sps := [0x67, 0x42, 0xE0, 0x1F, 0xDA, 0x01, 0x40, 0x16]
  pps := [0x68, 0xCE, 0x3C, 0x80]
  audioSpecificConfig := some [0x11, 0x90]
  hasAudio := true

theorem generateInitSegment_well_nested_stereo :
    ∃ data boxes, generateInitSegment stereoParams = .ok data ∧ readTree data = some boxes ∧
      (find (["moov", "trak"].map ascii) boxes).map (fun trak =>
        (find [ascii "tkhd"] trak.children).map (trackIdAt 12)) = [[some 1], [some 2]] ∧
      ∃ record, (find (stsdPath ++ [ascii "avc1", ascii "avcC"]) boxes).map content = [record] := by
  have hasc : ∀ asc ∈ stereoParams.audioSpecificConfig, asc.length ≤ 104 := by
    intro asc h
    cases h
    decide
  obtain ⟨data, boxes, hdata, hboxes, -, htraks, -, -, record, hrecord, -⟩ :=
    generateInitSegment_well_nested stereoParams (by decide) (by decide) hasc
  exact ⟨data, boxes, hdata, hboxes, htraks, record, hrecord⟩

end StreamInfa.Package
