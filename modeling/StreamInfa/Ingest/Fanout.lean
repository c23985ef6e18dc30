import StreamInfa.Ingest.Progress
import StreamInfa.Lib.Stage
import StreamInfa.Transcode.Conservation

/-!
What the transcode pipeline makes of a stream's frames, rendition by rendition.

A frame goes to the accumulators of all renditions, and over an open channel each of them does
with it what it would do alone (`processFrame_open`). So the segments of one rendition are those
of its own accumulator over all frames (`ownSegments_sentBy`), and they carry the frames' video
in full (`segmentsVideo_segmentsOf`).
-/

namespace StreamInfa.Ingest

open Transcode

/-! ### One accumulator -/

/-- A frame in the accumulator of one rendition. -/
def pushFrame (acc : SegmentAccumulator) (frame : DemuxedFrame) :
    Option EncodedSegment × SegmentAccumulator :=
  (takeAudioParams frame acc).push (.ofFrame frame)

/-- All frames of a stream in the accumulator of one rendition. -/
def pushFrames : SegmentAccumulator → List DemuxedFrame → List EncodedSegment × SegmentAccumulator
  | acc, [] => ([], acc)
  | acc, frame :: frames =>
    let (segment, acc) := pushFrame acc frame
    let (segments, acc) := pushFrames acc frames
    (segment.toList ++ segments, acc)

/-- The segments of one rendition: those of the frames, then that of the flush. -/
def segmentsOf (acc : SegmentAccumulator) (frames : List DemuxedFrame) : List EncodedSegment :=
  (pushFrames acc frames).1 ++ (pushFrames acc frames).2.flush.toList

/-- The packets the pipeline makes of frames. -/
def packetsOf (frames : List DemuxedFrame) : List EncodedPacket := frames.map .ofFrame

section Accumulator

open SegmentAccumulator

variable {acc : SegmentAccumulator}

/-- New audio parameters leave the open segment and its numbering alone. -/
theorem takeAudioParams_holds {o : List EncodedPacket} (h : acc.Holds o) (frame : DemuxedFrame) :
    (takeAudioParams frame acc).Holds o ∧
      (takeAudioParams frame acc).targetDurationSecs = acc.targetDurationSecs := by
  unfold takeAudioParams
  split
  · exact ⟨⟨h.video, h.audio, h.start, h.last, h.heard⟩, rfl⟩
  · exact ⟨h, rfl⟩

theorem rendition_pushFrame (acc : SegmentAccumulator) (frame : DemuxedFrame) :
    (pushFrame acc frame).2.rendition = acc.rendition :=
  (push_outcome _ _).1.trans (takeAudioParams_outcome frame acc).1

theorem rendition_of_pushFrame {frame : DemuxedFrame} {segment : EncodedSegment}
    (h : (pushFrame acc frame).1 = some segment) : segment.rendition = acc.rendition := by
  rcases (push_outcome (takeAudioParams frame acc) (.ofFrame frame)).2 with
    ⟨hnone, -⟩ | ⟨other, hsome, hown, -⟩
  · exact absurd (h.symm.trans hnone) (by simp)
  · obtain rfl := Option.some.inj (h.symm.trans hsome)
    exact hown.trans (takeAudioParams_outcome frame acc).1

theorem rendition_pushFrames (frames : List DemuxedFrame) :
    (pushFrames acc frames).2.rendition = acc.rendition := by
  induction frames generalizing acc with
  | nil => rfl
  | cons frame frames ih =>
    rw [pushFrames]
    exact ih.trans (rendition_pushFrame acc frame)

/-- The frames are cut as their packets are: one segment a closed group, numbered on, none of them
the last, and the accumulator holds the rest. -/
theorem pushFrames_eq_cut {o : List EncodedPacket} (h : acc.Holds o) (frames : List DemuxedFrame) :
    let cut := cutFrom (closesSegment acc.targetDurationSecs) o (packetsOf frames)
    let out := pushFrames acc frames
    List.Forall₂ Carries out.1 cut.1 ∧
      out.1.map (·.sequence) = List.range' acc.nextSequence cut.1.length ∧
      (∀ s ∈ out.1, s.isLast = false) ∧
      out.2.nextSequence = acc.nextSequence + cut.1.length ∧ out.2.Holds cut.2 := by
  induction frames generalizing acc o with
  | nil => simp [pushFrames, packetsOf, cutFrom, h]
  | cons frame frames ih =>
    obtain ⟨htaken, hsame⟩ := takeAudioParams_holds h frame
    have hnumber := (takeAudioParams_outcome frame acc).2
    rcases push_cases htaken (.ofFrame frame) with
      ⟨hc, s, acc', hpush, hcarries, hlast, hseq, hnext, htarget, hholds⟩ |
      ⟨hc, acc', hpush, hnext, htarget, hholds⟩
    · obtain ⟨hall, hseqs, hlasts, hcount, hrest⟩ := ih hholds
      rw [hsame] at hc htarget
      rw [htarget] at hall hseqs hcount hrest
      simp only [pushFrames, pushFrame, hpush, packetsOf, List.map_cons,
        cutFrom_cons_of_closes hc, Option.toList_some, List.singleton_append, List.length_cons]
      refine ⟨.cons hcarries hall, ?_, ?_, ?_, hrest⟩
      · rw [hseqs, hseq, hnext, hnumber, List.range'_succ]
        rfl
      · rintro t (_ | ⟨_, ht⟩)
        · exact hlast
        · exact hlasts t ht
      · rw [hcount, hnext, hnumber, packetsOf]
        omega
    · obtain ⟨hall, hseqs, hlasts, hcount, hrest⟩ := ih hholds
      rw [hsame] at hc htarget
      rw [htarget] at hall hseqs hcount hrest
      simp only [pushFrames, pushFrame, hpush, packetsOf, List.map_cons,
        cutFrom_cons_of_not_closes hc, Option.toList_none, List.nil_append]
      exact ⟨hall, by rw [hseqs, hnext, hnumber]; rfl, hlasts, by rw [hcount, hnext, hnumber]; rfl,
        hrest⟩

/-- What the accumulator flushes at the end: the open tail, if it has video, as the last segment. -/
theorem flush_pushFrames (h : acc.Holds []) (frames : List DemuxedFrame) :
    let tail := openTail acc.targetDurationSecs (packetsOf frames)
    (videoBytes tail = [] ∧ (pushFrames acc frames).2.flush = none) ∨
      (videoBytes tail ≠ [] ∧ ∃ s, (pushFrames acc frames).2.flush = some s ∧ Carries s tail ∧
        s.isLast = true ∧ s.sequence = acc.nextSequence + (pushFrames acc frames).1.length) := by
  obtain ⟨hall, -, -, hcount, hholds⟩ := pushFrames_eq_cut h frames
  by_cases hv : videoBytes (openTail acc.targetDurationSecs (packetsOf frames)) = []
  · refine .inl ⟨hv, ?_⟩
    rw [flush, hholds.video]
    exact if_pos (List.isEmpty_iff.mpr hv)
  · refine .inr ⟨hv, _, ?_, emitSegment_carries hholds true, rfl, ?_⟩
    · rw [flush, hholds.video]
      exact if_neg (by rw [List.isEmpty_iff]; exact hv)
    · rw [emitSegment_sequence, hcount, hall.length_eq]

/-- An accumulator that has seen nothing yet. -/
structure Fresh (acc : SegmentAccumulator) : Prop where
  holds : acc.Holds []
  first : acc.nextSequence = 0

/-- The segments of a fresh accumulator carry the emitted groups of the packets, one each, are
numbered from zero, and only the one of a flush is marked last. -/
theorem segmentsOf_carry (h : Fresh acc) (frames : List DemuxedFrame) :
    List.Forall₂ Carries (segmentsOf acc frames)
        (emittedGroups acc.targetDurationSecs (packetsOf frames)) ∧
      (segmentsOf acc frames).map (·.sequence) = List.range (segmentsOf acc frames).length ∧
      (∀ s ∈ (segmentsOf acc frames).dropLast, s.isLast = false) ∧
      (videoBytes (openTail acc.targetDurationSecs (packetsOf frames)) = [] →
        ∀ s ∈ segmentsOf acc frames, s.isLast = false) ∧
      (videoBytes (openTail acc.targetDurationSecs (packetsOf frames)) ≠ [] →
        ∃ s, (segmentsOf acc frames).getLast? = some s ∧ s.isLast = true) := by
  obtain ⟨hall, hseqs, hlasts, -, -⟩ := pushFrames_eq_cut h.holds frames
  rw [h.first, ← hall.length_eq, ← List.range_eq_range'] at hseqs
  rcases flush_pushFrames h.holds frames with
    ⟨hempty, hflush⟩ | ⟨hvideo, s, hflush, hcarries, hlast, hnum⟩
  · have hsegs : segmentsOf acc frames = (pushFrames acc frames).1 := by
      rw [segmentsOf, hflush, Option.toList_none, List.append_nil]
    rw [hsegs, emittedGroups, if_pos hempty, List.append_nil]
    exact ⟨hall, hseqs, fun t ht => hlasts t (List.dropLast_subset _ ht), fun _ => hlasts,
      fun hne => absurd hempty hne⟩
  · have hsegs : segmentsOf acc frames = (pushFrames acc frames).1 ++ [s] := by
      rw [segmentsOf, hflush, Option.toList_some]
    rw [h.first, Nat.zero_add] at hnum
    rw [hsegs, emittedGroups, if_neg hvideo]
    refine ⟨List.rel_append hall (.cons hcarries .nil), ?_, ?_, fun hempty => absurd hempty hvideo,
      fun _ => ⟨s, List.getLast?_concat, hlast⟩⟩
    · rw [List.map_append, hseqs, List.map_singleton, hnum, List.length_append,
        List.length_singleton, List.range_succ]
    · rw [List.dropLast_concat]
      exact hlasts

/-- No byte of video is lost, repeated or moved on the way into the segments. -/
theorem segmentsVideo_segmentsOf (h : Fresh acc) (frames : List DemuxedFrame) :
    segmentsVideo (segmentsOf acc frames) = videoBytes (packetsOf frames) := by
  rw [segmentsVideo_of_carries (segmentsOf_carry h frames).1, videoBytes_emittedGroups]

end Accumulator

/-! ### All accumulators -/

theorem fanOut_open (packet : EncodedPacket) (accs : List SegmentAccumulator) :
    fanOut false packet accs =
      (accs.map fun acc => (acc.push packet).2, accs.filterMap fun acc => (acc.push packet).1,
        true) := by
  induction accs with
  | nil => rfl
  | cons acc accs ih =>
    rcases hpush : acc.push packet with ⟨_ | segment, acc'⟩
    · simp only [fanOut, hpush, ih, List.map_cons, List.filterMap_cons]
    · simp only [fanOut, hpush, ih, List.map_cons, List.filterMap_cons, Bool.false_eq_true,
        if_false]

/-- Over an open channel every rendition treats the frame by itself. -/
theorem processFrame_open (accs : List SegmentAccumulator) (frame : DemuxedFrame) :
    processFrame false accs frame =
      (accs.map fun acc => (pushFrame acc frame).2,
        accs.filterMap fun acc => (pushFrame acc frame).1, .ok ()) := by
  simp only [processFrame, fanOut_open, List.map_map, List.filterMap_map, if_true]
  rfl

/-- The segments of a rendition. -/
def ownSegments (r : RenditionId) (segments : List EncodedSegment) : List EncodedSegment :=
  segments.filter fun segment => segment.rendition = r

theorem ownSegments_append (r : RenditionId) (xs ys : List EncodedSegment) :
    ownSegments r (xs ++ ys) = ownSegments r xs ++ ownSegments r ys := List.filter_append ..

/-- Where every accumulator puts out segments of its own rendition, those of a rendition that only
one of them has come from that accumulator. -/
theorem ownSegments_filterMap {accs : List SegmentAccumulator} {acc : SegmentAccumulator}
    {f : SegmentAccumulator → Option EncodedSegment}
    (hown : ∀ acc segment, f acc = some segment → segment.rendition = acc.rendition)
    (hacc : acc ∈ accs) (hid : (accs.map (·.rendition)).count acc.rendition = 1) :
    ownSegments acc.rendition (accs.filterMap f) = (f acc).toList := by
  induction accs with
  | nil => cases hacc
  | cons first accs ih =>
    have hcons : (first :: accs).filterMap f = (f first).toList ++ accs.filterMap f := by
      rw [List.filterMap_cons]
      cases f first <;> rfl
    rw [hcons, ownSegments_append]
    by_cases hfirst : first.rendition = acc.rendition
    · have hothers : acc.rendition ∉ accs.map (·.rendition) := by
        rw [List.map_cons, List.count_cons, hfirst, beq_self_eq_true, if_pos rfl] at hid
        exact List.count_eq_zero.mp (by omega)
      obtain rfl : acc = first := by
        refine (List.mem_cons.mp hacc).resolve_right fun hmem => hothers ?_
        exact List.mem_map_of_mem hmem
      have hself : ownSegments acc.rendition (f acc).toList = (f acc).toList := by
        refine List.filter_eq_self.mpr fun segment hmem => decide_eq_true ?_
        exact hown acc segment (Option.mem_toList.mp hmem)
      have hrest : ownSegments acc.rendition (accs.filterMap f) = [] := by
        refine List.filter_eq_nil_iff.mpr fun segment hmem hr => hothers ?_
        obtain ⟨other, hother, hsegment⟩ := List.mem_filterMap.mp hmem
        rw [← of_decide_eq_true hr, hown other segment hsegment]
        exact List.mem_map_of_mem hother
      rw [hself, hrest, List.append_nil]
    · have hnone : ownSegments acc.rendition (f first).toList = [] := by
        refine List.filter_eq_nil_iff.mpr fun segment hmem hr => hfirst ?_
        rw [← hown first segment (Option.mem_toList.mp hmem), of_decide_eq_true hr]
      rw [List.map_cons, List.count_cons_of_ne hfirst] at hid
      rw [hnone, List.nil_append]
      refine ih ((List.mem_cons.mp hacc).resolve_left ?_) hid
      rintro rfl
      exact hfirst rfl

/-- All that the pipeline sends for the frames: the segments of the loop, then those of the
flush. -/
def sentBy (accs : List SegmentAccumulator) (frames : List DemuxedFrame) : List EncodedSegment :=
  (decodeFrames accs frames).2 ++ (decodeFrames accs frames).1.filterMap fun acc => acc.flush

section All

variable {accs : List SegmentAccumulator}

theorem fst_decodeFrames (accs : List SegmentAccumulator) (frames : List DemuxedFrame) :
    (decodeFrames accs frames).1 = accs.map fun acc => (pushFrames acc frames).2 := by
  induction frames generalizing accs with
  | nil => simp [decodeFrames, pushFrames]
  | cons frame frames ih =>
    simp only [decodeFrames, processFrame_open, ih, List.map_map]
    rfl

theorem decodeFrames_append (xs ys : List DemuxedFrame) :
    decodeFrames accs (xs ++ ys) =
      ((decodeFrames (decodeFrames accs xs).1 ys).1,
        (decodeFrames accs xs).2 ++ (decodeFrames (decodeFrames accs xs).1 ys).2) := by
  induction xs generalizing accs with
  | nil => rfl
  | cons x xs ih => simp only [List.cons_append, decodeFrames, ih, List.append_assoc]

theorem rendition_of_flush (acc : SegmentAccumulator) (segment : EncodedSegment)
    (h : acc.flush = some segment) : segment.rendition = acc.rendition := (flush_outcome h).1

theorem ownSegments_decodeFrames {acc : SegmentAccumulator} (hacc : acc ∈ accs)
    (hid : (accs.map (·.rendition)).count acc.rendition = 1) (frames : List DemuxedFrame) :
    ownSegments acc.rendition (decodeFrames accs frames).2 = (pushFrames acc frames).1 := by
  induction frames generalizing accs acc with
  | nil => rfl
  | cons frame frames ih =>
    simp only [decodeFrames, processFrame_open, pushFrames, ownSegments_append]
    have hsame : (accs.map fun acc => (pushFrame acc frame).2).map (·.rendition) =
        accs.map (·.rendition) := by
      rw [List.map_map]
      exact List.map_congr_left fun acc _ => rendition_pushFrame acc frame
    rw [ownSegments_filterMap (fun acc segment => rendition_of_pushFrame) hacc hid]
    have hrest := ih (List.mem_map_of_mem hacc) (by rw [hsame, rendition_pushFrame, hid])
    rw [rendition_pushFrame] at hrest
    rw [hrest]

/-- The segments of a rendition that only one accumulator has are those of this accumulator. -/
theorem ownSegments_sentBy {acc : SegmentAccumulator} (hacc : acc ∈ accs)
    (hid : (accs.map (·.rendition)).count acc.rendition = 1) (frames : List DemuxedFrame) :
    ownSegments acc.rendition (sentBy accs frames) = segmentsOf acc frames := by
  have hsame : ((decodeFrames accs frames).1).map (·.rendition) = accs.map (·.rendition) := by
    rw [fst_decodeFrames, List.map_map]
    exact List.map_congr_left fun acc _ => rendition_pushFrames frames
  have hmem : (pushFrames acc frames).2 ∈ (decodeFrames accs frames).1 := by
    rw [fst_decodeFrames]
    exact List.mem_map_of_mem hacc
  have hflush := ownSegments_filterMap rendition_of_flush hmem
    (by rw [hsame, rendition_pushFrames, hid])
  rw [rendition_pushFrames] at hflush
  rw [sentBy, ownSegments_append, ownSegments_decodeFrames hacc hid, hflush, segmentsOf]

theorem rendition_mem_of_decodeFrames {frames : List DemuxedFrame} {segment : EncodedSegment}
    (h : segment ∈ (decodeFrames accs frames).2) :
    segment.rendition ∈ accs.map (·.rendition) := by
  induction frames generalizing accs with
  | nil => cases h
  | cons frame frames ih =>
    simp only [decodeFrames, processFrame_open] at h
    rcases List.mem_append.mp h with h | h
    · obtain ⟨acc, hacc, hpush⟩ := List.mem_filterMap.mp h
      rw [rendition_of_pushFrame hpush]
      exact List.mem_map_of_mem hacc
    · obtain ⟨acc, hacc, hrendition⟩ := List.mem_map.mp (ih h)
      obtain ⟨start, hstart, rfl⟩ := List.mem_map.mp hacc
      rw [← hrendition, rendition_pushFrame]
      exact List.mem_map_of_mem hstart

/-- Nothing is sent but for the renditions of the accumulators. -/
theorem rendition_mem_of_sentBy {frames : List DemuxedFrame} {segment : EncodedSegment}
    (h : segment ∈ sentBy accs frames) : segment.rendition ∈ accs.map (·.rendition) := by
  rcases List.mem_append.mp h with h | h
  · exact rendition_mem_of_decodeFrames h
  · obtain ⟨acc, hacc, hflush⟩ := List.mem_filterMap.mp h
    rw [fst_decodeFrames] at hacc
    obtain ⟨start, hstart, rfl⟩ := List.mem_map.mp hacc
    rw [rendition_of_flush _ _ hflush, rendition_pushFrames]
    exact List.mem_map_of_mem hstart

end All

/-! ### The stage -/

/-- The main loop of `run_live` takes a frame, over an open segment channel. -/
def Decodes (accs : List SegmentAccumulator) (frame : DemuxedFrame)
    (accs' : List SegmentAccumulator) (segments : List EncodedSegment) : Prop :=
  processFrame false accs frame = (accs', segments, .ok ())

theorem decodeFrames_of_feeds {accs accs' : List SegmentAccumulator} {frames : List DemuxedFrame}
    {segments : List EncodedSegment} (h : Feeds Decodes accs frames accs' segments) :
    decodeFrames accs frames = (accs', segments) := by
  induction h with
  | nil => rfl
  | concat h hstep ih =>
    rw [decodeFrames_append, ih]
    simp only [decodeFrames, List.append_nil]
    rw [hstep]

end StreamInfa.Ingest
