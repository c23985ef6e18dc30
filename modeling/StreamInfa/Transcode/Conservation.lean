import StreamInfa.Transcode.Segment

/-!
What a rendition's segments carry, from the first packet to the flush.

* `segmentation_conserves` — for every packet sequence: the segments are numbered
  from 0 without gaps, their video is exactly the video pushed, and their audio is
  a prefix of the audio pushed, each packet's audio being in the segment that was
  open when the packet was pushed.
* `signalsEnd_iff` — the end of the stream is signalled, with no audio lost,
  exactly when some video was pushed after the last cut. A stream whose last video
  packet is the keyframe that closes a segment ends without a last segment
  (`signalsEnd_fails_at_cut`).
-/

namespace StreamInfa.Transcode

open SegmentAccumulator

/-- The packets pushed since the last cut: the segment still open at the end. -/
def openTail (target : ℚ) (ps : List EncodedPacket) : List EncodedPacket :=
  (cutFrom (closesSegment target) [] ps).2

/-- The audio of a list of segments, concatenated. -/
def segmentsAudio (segs : List EncodedSegment) : Bytes := segs.flatMap (·.audioData.getD [])

/-- The video of a list of segments, concatenated. -/
def segmentsVideo (segs : List EncodedSegment) : Bytes := segs.flatMap (·.videoData)

/-- Exactly one segment is marked last, it is the last one, and all audio is in the
segments. -/
def SignalsEnd (segs : List EncodedSegment) (ps : List EncodedPacket) : Prop :=
  (segs.filter (·.isLast)).length = 1 ∧ segs.getLast?.map (·.isLast) = some true ∧
    segmentsAudio segs = audioBytes ps

instance (segs : List EncodedSegment) (ps : List EncodedPacket) :
    Decidable (SignalsEnd segs ps) :=
  inferInstanceAs (Decidable (_ ∧ _ ∧ _))

/-! ### From groups to bytes -/

theorem segmentsVideo_of_carries {segs : List EncodedSegment} {groups : List (List EncodedPacket)}
    (h : List.Forall₂ Carries segs groups) : segmentsVideo segs = groups.flatMap videoBytes := by
  induction h with
  | nil => rfl
  | cons hc _ ih => simpa [segmentsVideo, hc.video] using ih

theorem segmentsAudio_of_carries {segs : List EncodedSegment} {groups : List (List EncodedPacket)}
    (h : List.Forall₂ Carries segs groups) : segmentsAudio segs = groups.flatMap audioBytes := by
  induction h with
  | nil => rfl
  | cons hc _ ih => simpa [segmentsAudio, hc.audio] using ih

theorem videoBytes_cut (target : ℚ) (ps : List EncodedPacket) :
    (cutFrom (closesSegment target) [] ps).1.flatMap videoBytes ++
      videoBytes (openTail target ps) = videoBytes ps := by
  have h := flatMap_cutFrom (closesSegment target)
    (fun p : EncodedPacket => if p.isAudio then [] else p.data) [] ps
  simpa only [openTail, ← videoBytes_eq_flatMap, List.nil_append] using h

theorem audioBytes_cut (target : ℚ) (ps : List EncodedPacket) :
    (cutFrom (closesSegment target) [] ps).1.flatMap audioBytes ++
      audioBytes (openTail target ps) = audioBytes ps := by
  have h := flatMap_cutFrom (closesSegment target)
    (fun p : EncodedPacket => if p.isAudio then p.data else []) [] ps
  simpa only [openTail, ← audioBytes_eq_flatMap, List.nil_append] using h

theorem videoBytes_ne_nil_iff {ps : List EncodedPacket} :
    videoBytes ps ≠ [] ↔ ∃ p ∈ ps, p.isAudio = false ∧ p.data ≠ [] := by
  rw [videoBytes_eq_flatMap, ne_eq, List.flatMap_eq_nil_iff]
  push Not
  refine exists_congr fun p => and_congr_right fun _ => ?_
  cases p.isAudio <;> simp

/-! ### The groups that come out -/

/-- The groups that are emitted: the closed ones, and the open tail if it has video. -/
def emittedGroups (target : ℚ) (ps : List EncodedPacket) : List (List EncodedPacket) :=
  (cutFrom (closesSegment target) [] ps).1 ++
    if videoBytes (openTail target ps) = [] then [] else [openTail target ps]

theorem emittedGroups_prefix (target : ℚ) (ps : List EncodedPacket) :
    emittedGroups target ps <+:
      (cutFrom (closesSegment target) [] ps).1 ++ [openTail target ps] := by
  unfold emittedGroups
  split
  · rw [List.append_nil]
    exact List.prefix_append _ _
  · exact List.prefix_refl _

/-- A tail that is not emitted has no video to lose. -/
theorem videoBytes_emittedGroups (target : ℚ) (ps : List EncodedPacket) :
    (emittedGroups target ps).flatMap videoBytes = videoBytes ps := by
  rw [← videoBytes_cut target ps, emittedGroups, List.flatMap_append]
  split
  · rename_i hempty
    rw [hempty, List.flatMap_nil]
  · rw [List.flatMap_singleton]

theorem audioBytes_emittedGroups (target : ℚ) (ps : List EncodedPacket) :
    (emittedGroups target ps).flatMap audioBytes <+: audioBytes ps := by
  obtain ⟨rest, hrest⟩ := emittedGroups_prefix target ps
  refine ⟨rest.flatMap audioBytes, ?_⟩
  rw [← List.flatMap_append, hrest, List.flatMap_append, List.flatMap_singleton, audioBytes_cut]

section Rendition

variable (streamId : StreamId) (rendition : RenditionId) (target : ℚ)
  (width height videoKbps audioKbps : UInt32) (profile level : Text) (frameRate : ℚ)

/-- A fresh accumulator flushes exactly when video is left over, and then emits one
last segment carrying the open tail. -/
theorem flush_new (ps : List EncodedPacket) :
    let acc := new streamId rendition target width height videoKbps audioKbps profile level
      frameRate
    let cut := cutFrom (closesSegment target) [] ps
    (videoBytes (openTail target ps) = [] ∧ (acc.pushAll ps).2.flush = none) ∨
      (videoBytes (openTail target ps) ≠ [] ∧
        ∃ s, (acc.pushAll ps).2.flush = some s ∧ Carries s cut.2 ∧ s.isLast = true ∧
          s.sequence = cut.1.length) := by
  intro acc cut
  obtain ⟨-, -, -, hcount, hholds⟩ := pushAll_eq_cut (new_holds streamId rendition target width
    height videoKbps audioKbps profile level frameRate) ps
  by_cases hv : videoBytes (openTail target ps) = []
  · refine .inl ⟨hv, ?_⟩
    rw [flush, hholds.video]
    exact if_pos (List.isEmpty_iff.mpr hv)
  · refine .inr ⟨hv, _, ?_, emitSegment_carries hholds true, rfl, ?_⟩
    · rw [flush, hholds.video]
      exact if_neg (by rw [List.isEmpty_iff]; exact hv)
    · rw [emitSegment_sequence, hcount]
      exact Nat.zero_add _

/-- The segments carry the emitted groups, one each, and are numbered from 0. -/
theorem segments_carry (ps : List EncodedPacket) :
    let acc := new streamId rendition target width height videoKbps audioKbps profile level
      frameRate
    List.Forall₂ Carries (acc.segments ps) (emittedGroups target ps) ∧
      (acc.segments ps).map (·.sequence) = List.range (acc.segments ps).length := by
  intro acc
  obtain ⟨hall, hseqs, -, -, -⟩ := pushAll_eq_cut (new_holds streamId rendition target width
    height videoKbps audioKbps profile level frameRate) ps
  have htarget : acc.targetDurationSecs = target := rfl
  have hfirst : acc.nextSequence = 0 := rfl
  rw [htarget] at hall hseqs
  rw [hfirst, ← List.range_eq_range', ← hall.length_eq] at hseqs
  rcases flush_new streamId rendition target width height videoKbps audioKbps profile level
      frameRate ps with ⟨hempty, hflush⟩ | ⟨hvideo, s, hflush, hcarries, -, hnum⟩
  · have hsegs : acc.segments ps = (acc.pushAll ps).1 := by
      rw [segments, hflush, Option.toList_none, List.append_nil]
    rw [hsegs, emittedGroups, if_pos hempty, List.append_nil]
    exact ⟨hall, hseqs⟩
  · have hsegs : acc.segments ps = (acc.pushAll ps).1 ++ [s] := by
      rw [segments, hflush, Option.toList_some]
    rw [hsegs, emittedGroups, if_neg hvideo]
    refine ⟨List.rel_append hall (.cons hcarries .nil), ?_⟩
    rw [← hall.length_eq] at hnum
    rw [List.map_append, hseqs, List.map_singleton, hnum, List.length_append,
      List.length_singleton, List.range_succ]

/-- Group `i` is made of the packets pushed while segment `i` was open. -/
theorem openSegments_group (ps : List EncodedPacket) {i : ℕ}
    (hi : i < (emittedGroups target ps).length) :
    let acc := new streamId rendition target width height videoKbps audioKbps profile level
      frameRate
    ((acc.openSegments ps).filter (·.1 == i)).map Prod.snd = (emittedGroups target ps)[i] := by
  intro acc
  have hnew : acc.Holds [] := new_holds streamId rendition target width height videoKbps audioKbps
    profile level frameRate
  have hgroup : ((cutFrom (closesSegment target) [] ps).1 ++ [openTail target ps]).getD i [] =
      (emittedGroups target ps)[i] := by
    obtain ⟨rest, hrest⟩ := emittedGroups_prefix target ps
    rw [List.getD_eq_getElem?_getD, ← hrest, List.getElem?_append_left hi,
      List.getElem?_eq_getElem hi, Option.getD_some]
  have hstamp := filter_stampFrom (closesSegment target) 0 i [] ps
  rw [Nat.zero_add, ← openTail, hgroup, ite_self, List.nil_append] at hstamp
  rw [openSegments_eq_stamp hnew]
  exact hstamp

theorem sequence_getElem (ps : List EncodedPacket) {i : ℕ} :
    let acc := new streamId rendition target width height videoKbps audioKbps profile level
      frameRate
    ∀ hi : i < (acc.segments ps).length, ((acc.segments ps).get ⟨i, hi⟩).sequence = i := by
  intro acc hi
  have hget := congrArg (·[i]?) (segments_carry streamId rendition target width height videoKbps
    audioKbps profile level frameRate ps).2
  rw [List.getElem?_map, List.getElem?_eq_getElem hi, Option.map_some,
    List.getElem?_range hi] at hget
  exact Option.some.inj hget

/-- **Segmentation conserves video and prefixes audio.** For every packet sequence
pushed into a new accumulator and flushed. -/
theorem segmentation_conserves (ps : List EncodedPacket) :
    let acc := new streamId rendition target width height videoKbps audioKbps profile level
      frameRate
    let segs := acc.segments ps
    segs.map (·.sequence) = List.range segs.length ∧
      segmentsVideo segs = videoBytes ps ∧
      segmentsAudio segs <+: audioBytes ps ∧
      ∀ s ∈ segs, s.audioData.getD [] =
        audioBytes (((acc.openSegments ps).filter (·.1 == s.sequence)).map Prod.snd) := by
  intro acc segs
  obtain ⟨hall, hseqs⟩ := segments_carry streamId rendition target width height videoKbps
    audioKbps profile level frameRate ps
  refine ⟨hseqs, ?_, ?_, ?_⟩
  · rw [segmentsVideo_of_carries hall, videoBytes_emittedGroups]
  · rw [segmentsAudio_of_carries hall]
    exact audioBytes_emittedGroups target ps
  · intro s hs
    -- Segment `i` carries group `i`, which is what was pushed while `i` was open.
    obtain ⟨i, hi, rfl⟩ := List.getElem_of_mem hs
    have hi' : i < (emittedGroups target ps).length := hall.length_eq ▸ hi
    have hcarries : Carries segs[i] (emittedGroups target ps)[i] := hall.get hi hi'
    have hnumber : segs[i].sequence = i := sequence_getElem streamId rendition target width height
      videoKbps audioKbps profile level frameRate ps hi
    rw [hcarries.audio, hnumber, openSegments_group streamId rendition target width height
      videoKbps audioKbps profile level frameRate ps hi']

/-- **The end of the stream is signalled exactly when video follows the last cut.** -/
theorem signalsEnd_iff (ps : List EncodedPacket) :
    let acc := new streamId rendition target width height videoKbps audioKbps profile level
      frameRate
    SignalsEnd (acc.segments ps) ps ↔
      ∃ p ∈ openTail target ps, p.isAudio = false ∧ p.data ≠ [] := by
  intro acc
  have hnew : acc.Holds [] := new_holds streamId rendition target width height videoKbps audioKbps
    profile level frameRate
  obtain ⟨-, -, hlasts, -, -⟩ := pushAll_eq_cut hnew ps
  have hnone : (acc.pushAll ps).1.filter (·.isLast) = [] := by
    rw [List.filter_eq_nil_iff]
    intro s hs
    simp [hlasts s hs]
  rw [← videoBytes_ne_nil_iff]
  rcases flush_new streamId rendition target width height videoKbps audioKbps profile level
      frameRate ps with ⟨hv, hflush⟩ | ⟨hv, s, hflush, -, hlast, -⟩
  · -- No video is left: nothing is flushed and no segment is marked last.
    have hsegs : acc.segments ps = (acc.pushAll ps).1 := by
      rw [segments, hflush, Option.toList_none, List.append_nil]
    refine iff_of_false ?_ (not_not_intro hv)
    intro h
    have hone := h.1
    rw [hsegs, hnone] at hone
    exact absurd hone (by decide)
  · have hsegs : acc.segments ps = (acc.pushAll ps).1 ++ [s] := by
      rw [segments, hflush, Option.toList_some]
    refine iff_of_true ⟨?_, ?_, ?_⟩ hv
    · rw [hsegs, List.filter_append, hnone]
      simp [hlast]
    · rw [hsegs, List.getLast?_append]
      simp [hlast]
    · have hgroups := (segments_carry streamId rendition target width height videoKbps audioKbps
        profile level frameRate ps).1
      rw [segmentsAudio_of_carries hgroups, emittedGroups, if_neg hv, List.flatMap_append,
        List.flatMap_singleton, audioBytes_cut]

end Rendition

/-- A six-second group of two keyframes and a trailing audio packet: the second
keyframe closes the segment, so nothing is flushed and the audio after it is lost. -/
def endsAtCut : List EncodedPacket :=
  [{ pts := 0, dts := 0, keyframe := true, data := [0x65], isAudio := false },
    { pts := 540000, dts := 540000, keyframe := true, data := [0x65], isAudio := false },
    { pts := 541000, dts := 541000, keyframe := true, data := [0xAA], isAudio := true }]

theorem signalsEnd_fails_at_cut :
    (∃ p ∈ endsAtCut, p.isAudio = false ∧ p.data ≠ []) ∧
      ¬ SignalsEnd ((new ⟨0⟩ .high 6 1920 1080 3500 128 "high".toList "4.1".toList 30).segments
        endsAtCut) endsAtCut := by
  refine ⟨⟨_, List.mem_cons_self, rfl, by decide⟩, ?_⟩
  decide +kernel

end StreamInfa.Transcode
