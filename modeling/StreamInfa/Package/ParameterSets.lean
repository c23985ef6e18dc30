import StreamInfa.Ingest.Demuxer
import StreamInfa.Package.Runner

/-!
Parameter sets from the demuxer to the packager.

The demuxer puts the parameter sets it holds in front of every keyframe; the packager
looks for them in the first segment's bytes, with a scan that knows two start codes and
does not search the last three bytes. `scanNalu_append_startCode` and
`scanNalu_eq_self` say where the scan of one unit ends: at the next start code, also when
the unit ends in zeros that run into it, and otherwise at the end of the bytes.

**`extract_injected`**: whatever frames follow, the sets found are the sets put there.
-/

namespace StreamInfa.Package

open Ingest (FlvDemuxer DemuxM demuxVideo extractNalus extractNalusFrom startCode)

/-! ### The scan of one unit -/

/-- The shorter start code; the longer one ends in it. -/
def shortStartCode : Bytes := [0x00, 0x00, 0x01]

theorem startCodeLength_isSome {bs : Bytes} (h : (startCodeLength bs).isSome) :
    shortStartCode <+: bs ∨ startCode <+: bs := by
  unfold startCodeLength at h
  split at h
  · rename_i hlong
    exact .inr (List.isPrefixOf_iff_prefix.mp hlong)
  · split at h
    · rename_i hshort
      exact .inl (List.isPrefixOf_iff_prefix.mp hshort)
    · exact absurd h (by simp)

theorem startCodeLength_startCode (rest : Bytes) :
    startCodeLength (startCode ++ rest) = some 4 := rfl

theorem not_infix_tail {b : UInt8} {unit : Bytes} (h : ¬shortStartCode <:+: b :: unit) :
    ¬shortStartCode <:+: unit := by
  intro hwithin
  exact h (hwithin.trans (List.suffix_cons b unit).isInfix)

/-- Bytes without a start code do not begin with one. -/
theorem startCodeLength_eq_none {bs : Bytes} (h : ¬shortStartCode <:+: bs) :
    startCodeLength bs = none := by
  rw [← Option.not_isSome_iff_eq_none]
  intro hsome
  rcases startCodeLength_isSome hsome with hshort | hlong
  · exact h hshort.isInfix
  · have hend : shortStartCode <:+: startCode := ⟨[0x00], [], rfl⟩
    exact h (hend.trans hlong.isInfix)

/-- Nor do they when a start code follows, unless they are empty: its one is the fourth of
its bytes, so no start code ends in it earlier. -/
theorem startCodeLength_append_startCode {b : UInt8} {unit : Bytes}
    (h : ¬shortStartCode <:+: b :: unit) (rest : Bytes) :
    startCodeLength (b :: unit ++ (startCode ++ rest)) = none := by
  rw [← Option.not_isSome_iff_eq_none]
  intro hsome
  rcases startCodeLength_isSome hsome with hshort | hlong
  · -- The third byte is in the unit, or it is a zero of the start code.
    match unit with
    | [] => simp [shortStartCode, startCode, List.cons_prefix_cons] at hshort
    | [c] => simp [shortStartCode, startCode, List.cons_prefix_cons] at hshort
    | c :: d :: unit =>
      simp only [shortStartCode, List.cons_append, List.cons_prefix_cons] at hshort
      obtain ⟨rfl, rfl, rfl, -⟩ := hshort
      exact h ⟨[], unit, rfl⟩
  · match unit with
    | [] => simp [startCode, List.cons_prefix_cons] at hlong
    | [c] => simp [startCode, List.cons_prefix_cons] at hlong
    | [c, d] => simp [startCode, List.cons_prefix_cons] at hlong
    | c :: d :: e :: unit =>
      simp only [startCode, List.cons_append, List.cons_prefix_cons] at hlong
      obtain ⟨rfl, rfl, rfl, rfl, -⟩ := hlong
      exact h ⟨[0x00], unit, rfl⟩

/-- A unit ends where the next start code begins. -/
theorem scanNalu_append_startCode {unit : Bytes} (h : ¬shortStartCode <:+: unit) (rest : Bytes) :
    scanNalu (unit ++ (startCode ++ rest)) = unit := by
  induction unit with
  | nil => rfl
  | cons b unit ih =>
    have hlong : ¬(unit ++ (startCode ++ rest)).length < 3 := by
      simp only [List.length_append, startCode, List.length_cons]
      omega
    have hnone := startCodeLength_append_startCode h rest
    rw [List.cons_append] at hnone ⊢
    rw [scanNalu, if_neg hlong, hnone, if_neg (by simp), ih (not_infix_tail h)]

/-- A unit that no start code follows reaches to the end. -/
theorem scanNalu_eq_self {unit : Bytes} (h : ¬shortStartCode <:+: unit) :
    scanNalu unit = unit := by
  induction unit with
  | nil => rfl
  | cons b unit ih =>
    rw [scanNalu, startCodeLength_eq_none h, if_neg (by simp : ¬(none : Option ℕ).isSome = true),
      ih (not_infix_tail h)]
    split <;> rfl

/-! ### Annex B bytes -/

/-- Nothing, or a start code first. -/
def Framed (bs : Bytes) : Prop := bs = [] ∨ startCode <+: bs

theorem Framed.append {xs ys : Bytes} (hxs : Framed xs) (hys : Framed ys) : Framed (xs ++ ys) := by
  rcases hxs with rfl | hcode
  · exact hys
  · exact .inr (hcode.trans (List.prefix_append xs ys))

theorem framed_flatten {chunks : List Bytes} (h : ∀ bs ∈ chunks, Framed bs) :
    Framed chunks.flatten := by
  induction chunks with
  | nil => exact .inl rfl
  | cons bs chunks ih =>
    obtain ⟨hbs, hchunks⟩ := List.forall_mem_cons.mp h
    exact hbs.append (ih hchunks)

/-- A unit in front of framed bytes is scanned to its end. -/
theorem scanNalu_append_framed {unit rest : Bytes} (h : ¬shortStartCode <:+: unit)
    (hrest : Framed rest) : scanNalu (unit ++ rest) = unit := by
  rcases hrest with rfl | ⟨rest, rfl⟩
  · rw [List.append_nil, scanNalu_eq_self h]
  · exact scanNalu_append_startCode h rest

/-- The search loop at a unit. -/
theorem extractLoop_unit {unit rest : Bytes} (h : ¬shortStartCode <:+: unit) (hne : unit ≠ [])
    (hrest : Framed rest) (sets : Option Bytes × Option Bytes) :
    extractLoop sets (startCode ++ (unit ++ rest)) =
      if (keepParameterSet sets unit).1.isSome && (keepParameterSet sets unit).2.isSome then
        keepParameterSet sets unit
      else extractLoop (keepParameterSet sets unit) rest := by
  have hlen : 3 < (startCode ++ (unit ++ rest)).length := by
    simp only [List.length_append, startCode, List.length_cons]
    omega
  have hscan := scanNalu_append_framed h hrest
  rw [extractLoop, dif_pos hlen]
  split
  · rename_i hcode
    exact absurd hcode (by simp [startCodeLength_startCode])
  · rename_i prefixLen hcode
    rw [startCodeLength_startCode, Option.some.injEq] at hcode
    subst hcode
    have hbody : (startCode ++ (unit ++ rest)).drop 4 = unit ++ rest := rfl
    simp only [hbody, hscan, if_neg hne, List.drop_left]

/-- The type of a NAL unit. -/
def nalTypeOf (unit : Bytes) : Option UInt8 := unit.head?.map fun header => header &&& 0x1F

theorem keepParameterSet_sps {sps : Bytes} (h : nalTypeOf sps = some 7) :
    keepParameterSet (none, none) sps = (some sps, none) := by
  obtain ⟨header, hhead, htype⟩ := Option.map_eq_some_iff.mp h
  have hheadD : sps.headD 0 = header := by rw [List.headD_eq_head?_getD, hhead, Option.getD_some]
  simp only [keepParameterSet, hheadD, htype]
  rfl

theorem keepParameterSet_pps {sps pps : Bytes} (h : nalTypeOf pps = some 8) :
    keepParameterSet (some sps, none) pps = (some sps, some pps) := by
  obtain ⟨header, hhead, htype⟩ := Option.map_eq_some_iff.mp h
  have hheadD : pps.headD 0 = header := by rw [List.headD_eq_head?_getD, hhead, Option.getD_some]
  simp only [keepParameterSet, hheadD, htype]
  rfl

theorem ne_nil_of_nalTypeOf {unit : Bytes} {ty : UInt8} (h : nalTypeOf unit = some ty) :
    unit ≠ [] := by
  rintro rfl
  exact absurd h (by simp [nalTypeOf])

/-- Two parameter sets in front of framed bytes are the ones found. -/
theorem extractAvcParameterSets_injected {sps pps rest : Bytes} (hsps : nalTypeOf sps = some 7)
    (hpps : nalTypeOf pps = some 8) (hspsCode : ¬shortStartCode <:+: sps)
    (hppsCode : ¬shortStartCode <:+: pps) (hrest : Framed rest) :
    extractAvcParameterSets (startCode ++ sps ++ startCode ++ pps ++ rest) = some (sps, pps) := by
  have hbytes : startCode ++ sps ++ startCode ++ pps ++ rest =
      startCode ++ (sps ++ (startCode ++ (pps ++ rest))) := by
    simp only [List.append_assoc]
  have hfirst := @extractLoop_unit sps (startCode ++ (pps ++ rest)) hspsCode
    (ne_nil_of_nalTypeOf hsps) (.inr (List.prefix_append _ _)) (none, none)
  have hsecond := extractLoop_unit hppsCode (ne_nil_of_nalTypeOf hpps) hrest (some sps, none)
  rw [keepParameterSet_sps hsps] at hfirst
  rw [keepParameterSet_pps hpps] at hsecond
  rw [extractAvcParameterSets, hbytes, hfirst]
  simp only [Option.isSome_some, Option.isSome_none, Bool.and_false, Bool.false_eq_true, if_false,
    hsecond, Bool.and_self, if_true]

/-! ### What the demuxer emits -/

theorem framed_extractNalusFrom {pos : ℕ} {data output : Bytes} {keyframe : Bool}
    (h : extractNalusFrom pos data = .ok (keyframe, output)) : Framed output := by
  fun_induction extractNalusFrom pos data generalizing keyframe output with
  | case1 pos data hlen =>
    cases h
    exact .inl rfl
  | case2 pos data len rest hlen hunit => exact absurd h (by simp)
  | case3 pos data len rest hlen unit rest' hunit ih =>
    cases hrec : extractNalusFrom (pos + 4 + beNat len) rest' with
    | error e =>
      rw [hrec] at h
      exact absurd h (by simp [bind, Except.bind])
    | ok result =>
      rw [hrec] at h
      obtain ⟨keyframe', output'⟩ := result
      cases unit with
      | nil =>
        cases h
        exact ih hrec
      | cons header unit =>
        cases h
        exact .inr ⟨header :: unit ++ output', rfl⟩

/-- The bytes of a frame: on a keyframe behind the parameter sets, if both are known. -/
def frameBytes (d : FlvDemuxer) (isKeyframe : Bool) (naluBytes : Bytes) : Bytes :=
  match isKeyframe, d.sps, d.pps with
  | true, some sps, some pps => startCode ++ sps ++ startCode ++ pps ++ naluBytes
  | _, _, _ => naluBytes

/-- A frame that is emitted comes from a NAL unit tag. -/
theorem demuxVideo_eq_some {data : Bytes} {timestampMs : UInt32} {d d' : FlvDemuxer}
    {frame : DemuxedFrame} (h : (demuxVideo data timestampMs).run.run d = (.ok (some frame), d')) :
    ∃ body keyframe naluBytes, extractNalus body = .ok (keyframe, naluBytes) ∧
      frame.data = frameBytes d frame.keyframe naluBytes := by
  have houtcome := Ingest.demuxVideo_outcome data timestampMs d
  generalize (demuxVideo data timestampMs).run.run d = out at h houtcome
  cases houtcome with
  | failed | dropped => cases h
  | record =>
    obtain ⟨-, d₁, -, hmodify⟩ := DemuxM.run_bind_eq_ok h
    obtain ⟨-, d₂, -, hnone⟩ := DemuxM.run_bind_eq_ok hmodify
    cases hnone
  | units hdata hseq hnalus hfirst hframe =>
    cases h
    exact ⟨_, _, _, hnalus, by rw [hframe]; rfl⟩

/-- The frames `demux_video` can emit. -/
def EmittedVideo (frame : DemuxedFrame) : Prop :=
  ∃ d data timestampMs d', (demuxVideo data timestampMs).run.run d = (.ok (some frame), d')

theorem framed_frameBytes {d : FlvDemuxer} {isKeyframe : Bool} {naluBytes : Bytes}
    (h : Framed naluBytes) : Framed (frameBytes d isKeyframe naluBytes) := by
  unfold frameBytes
  split
  · rename_i sps pps _ _
    refine .inr ⟨sps ++ startCode ++ pps ++ naluBytes, ?_⟩
    simp only [List.append_assoc]
  · exact h

theorem EmittedVideo.framed {frame : DemuxedFrame} (h : EmittedVideo frame) :
    Framed frame.data := by
  obtain ⟨d, data, timestampMs, d', hrun⟩ := h
  obtain ⟨body, keyframe, naluBytes, hnalus, hdata⟩ := demuxVideo_eq_some hrun
  rw [hdata]
  exact framed_frameBytes (framed_extractNalusFrom hnalus)

/-- One unit behind its length. -/
theorem extractNalus_one {header : UInt8} {unit : Bytes} (hlen : unit.length + 1 < 256 ^ 4) :
    extractNalus (beBytes 4 (unit.length + 1) ++ (header :: unit)) =
      .ok (header.toNat % 32 == Ingest.nalTypeIdr, startCode ++ header :: unit) := by
  have hnat : beNat (beBytes 4 (unit.length + 1)) = unit.length + 1 := beNat_beBytes_of_lt hlen
  have hfour := takeExact_beBytes 4 (unit.length + 1) (header :: unit)
  have hunit : takeExact (beNat (beBytes 4 (unit.length + 1))) (header :: unit) =
      some (header :: unit, []) := by
    have h := @takeExact_append _ (header :: unit) [] rfl
    rwa [List.append_nil, List.length_cons, ← hnat] at h
  have hend : ∀ pos, extractNalusFrom pos [] = .ok (false, []) := by
    intro pos
    rw [extractNalusFrom]
    rfl
  rw [extractNalus, extractNalusFrom]
  split
  · rename_i hnone
    rw [hfour] at hnone
    cases hnone
  · rename_i len rest hsome
    rw [hfour] at hsome
    cases hsome
    split
    · rename_i hnone
      rw [hunit] at hnone
      cases hnone
    · rename_i unit' rest' hsome
      rw [hunit] at hsome
      cases hsome
      rw [hend]
      simp [bind, Except.bind, pure, Except.pure]

/-- A tag of well-formed units behind a sequence header is emitted. -/
theorem demuxVideo_accepts {b₀ b₂ b₃ b₄ : UInt8} {body naluBytes : Bytes} {keyframe : Bool}
    {d : FlvDemuxer} (hcodec : b₀.toNat % 16 = 7) (hseq : d.hasVideoSeqHeader = true)
    (hnalus : extractNalus body = .ok (keyframe, naluBytes)) (timestampMs : UInt32) :
    ∃ frame d', (demuxVideo (b₀ :: 1 :: b₂ :: b₃ :: b₄ :: body) timestampMs).run.run d =
        (.ok (some frame), d') ∧
      frame.keyframe = (keyframe || b₀.toNat / 16 == 1) ∧
      frame.data = frameBytes d frame.keyframe naluBytes ∧ d'.hasVideoSeqHeader = true := by
  have hlift : (demuxVideo.liftExcept (extractNalus body)).run.run d =
      (.ok (keyframe, naluBytes), d) := by
    rw [hnalus]
    rfl
  have hone : (1 : UInt8).toNat = 1 := rfl
  simp only [demuxVideo, hcodec, ne_eq, not_true_eq_false, if_false, hone]
  rw [DemuxM.run_bind (DemuxM.run_get d)]
  simp only [hseq, Bool.not_true, Bool.false_eq_true, if_false]
  rw [DemuxM.run_bind hlift]
  dsimp only
  rw [DemuxM.run_bind (Ingest.run_normalizePts _ _), DemuxM.run_bind (Ingest.run_normalizePts _ _)]
  exact ⟨_, _, rfl, rfl, rfl, hseq⟩

/-! ### From the demuxer to the packager -/

/-- **The packager extracts the parameter sets that the demuxer put in front of a
keyframe**, whatever video frames are appended. -/
theorem extract_injected {d d' : FlvDemuxer} {sps pps data : Bytes} {timestampMs : UInt32}
    {frame : DemuxedFrame} (hdSps : d.sps = some sps) (hdPps : d.pps = some pps)
    (hsps : nalTypeOf sps = some 7) (hpps : nalTypeOf pps = some 8)
    (hspsCode : ¬shortStartCode <:+: sps) (hppsCode : ¬shortStartCode <:+: pps)
    (hrun : (demuxVideo data timestampMs).run.run d = (.ok (some frame), d'))
    (hkey : frame.keyframe = true) (further : List DemuxedFrame)
    (hfurther : ∀ f ∈ further, EmittedVideo f) :
    extractAvcParameterSets (frame.data ++ (further.map DemuxedFrame.data).flatten) =
      some (sps, pps) := by
  obtain ⟨body, keyframe, naluBytes, hnalus, hdata⟩ := demuxVideo_eq_some hrun
  have hframe : frame.data = startCode ++ sps ++ startCode ++ pps ++ naluBytes := by
    rw [hdata, hkey]
    simp only [frameBytes, hdSps, hdPps]
  have hrest : Framed (further.map DemuxedFrame.data).flatten := by
    apply framed_flatten
    intro bs hbs
    obtain ⟨f, hf, rfl⟩ := List.mem_map.mp hbs
    exact (hfurther f hf).framed
  rw [hframe, List.append_assoc]
  exact extractAvcParameterSets_injected hsps hpps hspsCode hppsCode
    ((framed_extractNalusFrom hnalus).append hrest)

/-- A demuxer behind a sequence header; the sequence parameter set ends in a zero. -/
def configuredDemuxer : FlvDemuxer :=
  { FlvDemuxer.new ⟨0⟩ with
    hasVideoSeqHeader := true
    sps := some [0x67, 0x42, 0x00]
    pps := some [0x68, 0xCE] }

/-- A keyframe and a frame behind it. -/
theorem extract_injected_idr :
    ∃ frame d' next d'',
      (demuxVideo ([0x17, 1, 0, 0, 0] ++ (beBytes 4 2 ++ [0x65, 0x88])) 0).run.run
        configuredDemuxer = (.ok (some frame), d') ∧
      (demuxVideo ([0x27, 1, 0, 0, 0] ++ (beBytes 4 2 ++ [0x41, 0x9A])) 33).run.run d' =
        (.ok (some next), d'') ∧
      extractAvcParameterSets (frame.data ++ next.data) =
        some ([0x67, 0x42, 0x00], [0x68, 0xCE]) := by
  have hkeyframe := @extractNalus_one 0x65 [0x88] (by decide)
  have hinter := @extractNalus_one 0x41 [0x9A] (by decide)
  obtain ⟨frame, d', hrun, hkey, -, hseq⟩ :=
    @demuxVideo_accepts 0x17 0 0 0 _ _ _ configuredDemuxer rfl rfl hkeyframe 0
  obtain ⟨next, d'', hnext, -⟩ := @demuxVideo_accepts 0x27 0 0 0 _ _ _ d' rfl hseq hinter 33
  refine ⟨frame, d', next, d'', hrun, hnext, ?_⟩
  have hextract := extract_injected (d := configuredDemuxer) rfl rfl rfl rfl (by decide)
    (by decide) hrun hkey [next] fun f hf => List.mem_singleton.mp hf ▸ ⟨_, _, _, _, hnext⟩
  rwa [List.map_singleton, List.flatten_cons, List.flatten_nil, List.append_nil] at hextract

end StreamInfa.Package
