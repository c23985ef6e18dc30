import StreamInfa.Ingest.Fanout
import StreamInfa.Ingest.Ladder
import StreamInfa.Package.Packing

/-!
The pipeline of a live stream as a whole.

The demux loop, the transcode pipeline and the packager run side by side, each behind its
channel. `Produced` and `Packed` place the latter two between their channels, and
**`live_pipeline_refines`** says what comes of it: whatever the interleaving, the packager has
written what it writes alone for the segments it took, these are the first of the segments that
`run_live` alone sends for the frames it took, and these are the first of the frames that the
demux loop alone finds in the messages read. Once the channels are empty all three lists are
complete, and the segments of a rendition whose id no other has carry all of the video.

The pipeline is that of a build without FFmpeg, in which the frames are passed through.
-/

namespace StreamInfa.Ingest

open Control Transcode Package

/-! ### Stages between their channels -/

/-- What the transcode pipeline has sent in all: `frames` are in the channel in front of it, of
all the frames `fed` to it. -/
inductive Produced (start : List SegmentAccumulator) (fed frames : List DemuxedFrame) :
    TranscodeTask → List EncodedSegment → Prop
  | starting (hframes : frames = fed) : Produced start fed frames .starting []
  | decoding {accs : List SegmentAccumulator} {errors : ℕ} {out : List EncodedSegment}
      (h : Between Decodes start fed frames accs out) :
      Produced start fed frames (.decoding accs errors) out
  | flushed (hframes : frames = []) :
      Produced start fed frames (.returned (.ok ())) (sentBy start fed)

/-- A packager over an open channel: `segments` are in the channel in front of it, of all the
segments `out` that were sent. -/
structure Packed (env : PackagerEnv) (out segments : List EncodedSegment) (p : Packager) :
    Prop where
  opened : p.Open
  stage : ∃ writes, Between (Packages env) (Packager.start none) out segments p writes

section Stages

variable {start : List SegmentAccumulator} {fed frames : List DemuxedFrame}
  {transcode : TranscodeTask} {out segments : List EncodedSegment} {env : PackagerEnv}
  {p p' : Packager}

theorem Produced.feed (h : Produced start fed frames transcode out)
    (hopen : transcode.hasReturned = false) (more : List DemuxedFrame) :
    Produced start (fed ++ more) (frames ++ more) transcode out := by
  cases h with
  | starting hframes => exact .starting (by rw [hframes])
  | decoding h => exact .decoding (h.send more)
  | flushed hframes => cases hopen

theorem Produced.launch (h : Produced start fed frames .starting out) :
    Produced start fed frames (.decoding start 0) out := by
  cases h with
  | starting hframes => exact .decoding ⟨[], hframes, .nil⟩

theorem Produced.take {accs : List SegmentAccumulator} {errors : ℕ} {frame : DemuxedFrame}
    (h : Produced start fed (frame :: frames) (.decoding accs errors) out) :
    Produced start fed frames (.decoding (processFrame false accs frame).1 0)
      (out ++ (processFrame false accs frame).2.1) := by
  cases h with
  | decoding h =>
    refine .decoding (h.take ?_)
    rw [Decodes, processFrame_open]

theorem Produced.flush {accs : List SegmentAccumulator} {errors : ℕ}
    (h : Produced start fed [] (.decoding accs errors) out) :
    Produced start fed [] (.returned (.ok ())) (out ++ accs.filterMap fun acc => acc.flush) := by
  cases h with
  | decoding h =>
    have hall := decodeFrames_of_feeds h.drained
    have hsent : sentBy start fed = out ++ accs.filterMap fun acc => acc.flush := by
      rw [sentBy, hall]
    rw [← hsent]
    exact .flushed rfl

theorem Packed.send (h : Packed env out segments p) (more : List EncodedSegment) :
    Packed env (out ++ more) (segments ++ more) p := by
  obtain ⟨writes, hstage⟩ := h.stage
  exact ⟨h.opened, writes, hstage.send more⟩

theorem Packed.take {segment : EncodedSegment} {now : DateTime}
    (h : Packed env out (segment :: segments) p)
    (hturn : handleSegment env { p with events := [] } segment now = .ok p') :
    Packed env out segments p' := by
  obtain ⟨writes, hstage⟩ := h.stage
  obtain ⟨more, hpackages⟩ := packages_of_open h.opened hturn
  obtain ⟨q, hok, hopen, -⟩ := handleSegment_open env segment now (h.opened.withEvents [])
  obtain rfl := Except.ok.inj (hok.symm.trans hturn)
  exact ⟨hopen, _, hstage.take hpackages⟩

/-- The packager has written what one run over the segments it took writes. -/
theorem Packed.exists_input (h : Packed env out segments p) :
    ∃ input, input.map Prod.fst ++ segments = out ∧
      packagerLoop env (Packager.start none) input =
        { p with events := (input.map Prod.fst).flatMap (segmentEvents env) } := by
  obtain ⟨writes, taken, htaken, hfeeds⟩ := h.stage
  obtain ⟨input, rfl, -, -, hloop⟩ := packagerLoop_of_feeds hfeeds
  exact ⟨input, htaken, hloop⟩

/-- The segments sent so far come of the frames taken so far. -/
theorem Produced.exists_taken (h : Produced start fed frames transcode out) :
    ∃ taken, taken ++ frames = fed ∧
      out = if transcode.hasReturned then sentBy start taken else (decodeFrames start taken).2 := by
  cases h with
  | starting hframes => exact ⟨[], hframes, rfl⟩
  | decoding h =>
    obtain ⟨taken, htaken, hfeeds⟩ := h
    refine ⟨taken, htaken, ?_⟩
    rw [decodeFrames_of_feeds hfeeds]
    rfl
  | flushed hframes => exact ⟨fed, by rw [hframes, List.append_nil], rfl⟩

end Stages

/-! ### The frames the demux loop finds -/

/-- The demux loop over the reads it makes, while the transcode pipeline takes its frames: the
loop, if it goes on, and the frames sent. -/
def demuxReads : DemuxLoop → List ReadResult → Option DemuxLoop × List DemuxedFrame
  | loop, [] => (some loop, [])
  | loop, result :: results =>
    match demuxTurn false loop result with
    | (_, some _) => (none, [])
    | (loop, none) =>
      let (next, frames) := demuxReads loop results
      (next, loop.frames ++ frames)

/-- The reads among the actions of a run. -/
def readsOf (as : List LiveAction) : List ReadResult :=
  as.filterMap fun a => match a with
    | .read result => some result
    | _ => none

/-- All frames that the demux loop sends for the reads. -/
def LiveConfig.demuxed (cfg : LiveConfig) (results : List ReadResult) : List DemuxedFrame :=
  (demuxReads ⟨cfg.demuxer, 0, []⟩ results).2

theorem demuxReads_concat {loop now : DemuxLoop} {results : List ReadResult}
    (h : (demuxReads loop results).1 = some now) (result : ReadResult) :
    demuxReads loop (results ++ [result]) =
      match demuxTurn false now result with
      | (_, some _) => (none, (demuxReads loop results).2)
      | (next, none) => (some next, (demuxReads loop results).2 ++ next.frames) := by
  induction results generalizing loop with
  | nil =>
    obtain rfl := Option.some.inj h
    rcases hturn : demuxTurn false loop result with ⟨next, _ | ended⟩
    · simp only [demuxReads, List.append_nil, List.nil_append, hturn]
    · simp only [demuxReads, List.nil_append, hturn]
  | cons first results ih =>
    simp only [demuxReads, List.cons_append] at h ⊢
    rcases hturn : demuxTurn false loop first with ⟨next, _ | ended⟩
    · rw [hturn] at h
      simp only [ih h]
      rcases demuxTurn false now result with ⟨last, _ | ended⟩
      · simp only [List.append_assoc]
      · rfl
    · rw [hturn] at h
      cases h

/-! ### The whole pipeline -/

/-- The demux loop stands behind the reads, and the two stages between their channels. -/
structure Conveyed (cfg : LiveConfig) (results : List ReadResult) (s : LiveTasks) : Prop where
  demux : (demuxReads ⟨cfg.demuxer, 0, []⟩ results).1 = s.demux
  stages : ∃ out, Produced cfg.accumulators (cfg.demuxed results) s.frames s.transcode out ∧
    ∀ p, s.packager = some p → Packed cfg.packagerEnv out s.segments p
  running : s.transcode.hasReturned = false → s.packager ≠ none
  reading : s.demux ≠ none → s.transcode.hasReturned = false

section Steps

variable {cfg : LiveConfig} {m : StreamStateManager} {results : List ReadResult} {s s' : LiveTasks}

theorem conveyed_start (cfg : LiveConfig) (m : StreamStateManager) :
    Conveyed cfg [] (.start cfg m) where
  demux := rfl
  stages := by
    refine ⟨[], .starting rfl, fun p hp => ?_⟩
    obtain rfl := Option.some.inj hp
    exact ⟨Packager.open_start, [], Between.start _ _⟩
  running _ h := by cases h
  reading _ := rfl

theorem Conveyed.read (h : Conveyed cfg results s) {loop : DemuxLoop} (hdemux : s.demux = some loop)
    (result : ReadResult) : Conveyed cfg (results ++ [result]) (s.read cfg loop result) := by
  have hopen : s.transcode.hasReturned = false :=
    h.reading (by rw [hdemux]; exact Option.some_ne_none _)
  have hreads := demuxReads_concat (h.demux.trans hdemux) result
  obtain ⟨out, hproduced, hpacked⟩ := h.stages
  unfold LiveTasks.read
  rw [hopen]
  rcases hturn : demuxTurn false loop result with ⟨next, _ | ended⟩
  · rw [hturn] at hreads
    refine ⟨by rw [hreads], ⟨out, ?_, hpacked⟩, h.running, fun _ => hopen⟩
    rw [LiveConfig.demuxed, hreads]
    exact hproduced.feed hopen next.frames
  · rw [hturn] at hreads
    refine ⟨by rw [hreads], ⟨out, ?_, hpacked⟩, h.running, fun hne => absurd rfl hne⟩
    rw [LiveConfig.demuxed, hreads]
    exact hproduced

theorem Conveyed.decode (h : Conveyed cfg results s) {accs : List SegmentAccumulator} {errors : ℕ}
    {frame : DemuxedFrame} {frames : List DemuxedFrame}
    (htranscode : s.transcode = .decoding accs errors) (hframes : s.frames = frame :: frames) :
    Conveyed cfg results (s.decode cfg accs errors frame frames) := by
  obtain ⟨out, hproduced, hpacked⟩ := h.stages
  obtain ⟨p, hp⟩ := Option.ne_none_iff_exists'.mp (h.running (by rw [htranscode]; rfl))
  rw [htranscode, hframes] at hproduced
  have htake := hproduced.take
  have hturn : s.decode cfg accs errors frame frames = { s with
      frames := frames
      segments := s.segments ++ (processFrame false accs frame).2.1
      transcode := .decoding (processFrame false accs frame).1 0 } := by
    simp only [LiveTasks.decode, hp, Option.isNone_some, processFrame_open]
  rw [hturn]
  exact ⟨h.demux, ⟨_, htake, fun q hq => (hpacked q hq).send _⟩, fun _ hne => by simp [hp] at hne,
    fun _ => rfl⟩

/-- Every step but a turn of the demux loop, where some rendition is selected. -/
theorem Conveyed.step (h : Conveyed cfg results s) (hladder : cfg.renditions ≠ []) {a : LiveAction}
    (ha : ∀ r, a ≠ .read r) (hstep : liveStep cfg s a = some s') : Conveyed cfg results s' := by
  obtain ⟨out, hproduced, hpacked⟩ := h.stages
  cases liveStep_outcome hstep with
  | read hdemux r => exact absurd rfl (ha r)
  | refused hstarting hnone => exact absurd hnone hladder
  | launched hstarting hsome =>
    rw [hstarting] at hproduced
    exact ⟨h.demux, ⟨out, hproduced.launch, hpacked⟩, fun _ => h.running (by rw [hstarting]; rfl),
      fun _ => rfl⟩
  | decoded htranscode hframes => exact h.decode htranscode hframes
  | @flushed accs errors htranscode hframes hdemux =>
    rw [htranscode, hframes] at hproduced
    obtain ⟨p, hp⟩ := Option.ne_none_iff_exists'.mp (h.running (by rw [htranscode]; rfl))
    have hflush := hproduced.flush
    rw [← hframes] at hflush
    refine ⟨h.demux, ⟨_, hflush, fun q hq => ?_⟩, fun hopen => (by cases hopen),
      fun hne => absurd hdemux hne⟩
    simp only [hp, Option.isNone_some, Bool.false_eq_true, if_false]
    exact (hpacked q hq).send _
  | packaged hp hsegments hturn =>
    refine ⟨h.demux, ⟨out, hproduced, fun q hq => ?_⟩, fun _ hne => (by cases hne), h.reading⟩
    obtain rfl := Option.some.inj hq
    have hbefore := hpacked _ hp
    rw [hsegments] at hbefore
    exact hbefore.take hturn
  | broken hp hsegments hturn =>
    obtain ⟨q, hok, -⟩ := packaged_open (hpacked _ hp).opened hturn
    cases hok
  | packagerEnded hp hsegments htranscode =>
    refine ⟨h.demux, ⟨out, hproduced, fun q hq => (by cases hq)⟩, fun hopen => ?_, h.reading⟩
    rw [htranscode] at hopen
    cases hopen
  | writerEnded hpackager hwriting =>
    exact ⟨h.demux, ⟨out, hproduced, hpacked⟩, h.running, h.reading⟩
  | handled now hevents => exact ⟨h.demux, ⟨out, hproduced, hpacked⟩, h.running, h.reading⟩

theorem conveyed_of_run (hladder : cfg.renditions ≠ []) {as : List LiveAction}
    (hrun : run (liveStep cfg) (.start cfg m) as = some s) : Conveyed cfg (readsOf as) s := by
  refine run_history (I := fun p s => Conveyed cfg (readsOf p) s) ?_ (conveyed_start cfg m) hrun
  intro p c a c' _ hc hstep
  cases a with
  | read result =>
    obtain ⟨loop, hdemux, rfl⟩ := Option.map_eq_some_iff.mp hstep
    rw [readsOf, List.filterMap_append]
    exact hc.read hdemux result
  | launch | decode | flush | package | packagerEnd | writerEnd | handle =>
    rw [readsOf, List.filterMap_append]
    exact (List.append_nil (readsOf p)).symm ▸ hc.step hladder (by simp) hstep

end Steps

/-! ### What comes of it -/

theorem fresh_accumulators (cfg : LiveConfig) : ∀ acc ∈ cfg.accumulators, Fresh acc := by
  intro acc hacc
  obtain ⟨r, -, rfl⟩ := List.mem_map.mp hacc
  exact ⟨SegmentAccumulator.new_holds .., rfl⟩

/-- **The live pipeline refines its stages run one after the other.** In every run of the tasks of
a stream that has a rendition, as long as the packager runs: it has written what one run over the
segments it took writes; with those in its channel they are what `run_live` sends for the frames it
took; and with those in its channel they are the frames the demux loop finds in the messages
read. When the pipeline has returned and the packager has taken every segment, the segments of
each selected rendition whose id no other shares carry all of the frames' video. -/
theorem live_pipeline_refines (cfg : LiveConfig) (m : StreamStateManager) (as : List LiveAction)
    (s : LiveTasks) (p : Packager) (hladder : cfg.ladder ≠ [])
    (hrun : run (liveStep cfg) (.start cfg m) as = some s) (hp : s.packager = some p) :
    ∃ taken input, taken ++ s.frames = cfg.demuxed (readsOf as) ∧
      input.map Prod.fst ++ s.segments = (if s.transcode.hasReturned then cfg.sent taken
        else (decodeFrames cfg.accumulators taken).2) ∧
      p.writes = (packagerLoop cfg.packagerEnv (Packager.start none) input).writes ∧
      (s.transcode.hasReturned = true → s.segments = [] →
        ∀ r ∈ cfg.renditions, cfg.ids.count r.id = 1 →
          segmentsVideo (ownSegments r.id (input.map Prod.fst)) =
            videoBytes (packetsOf (cfg.demuxed (readsOf as)))) := by
  have hne : cfg.renditions ≠ [] := fun h => hladder ((selectRenditions_eq_nil_iff _ _ _).mp h)
  obtain ⟨out, hproduced, hpacked⟩ := (conveyed_of_run hne hrun).stages
  obtain ⟨taken, htaken, hout⟩ := hproduced.exists_taken
  obtain ⟨input, hinput, hloop⟩ := (hpacked p hp).exists_input
  refine ⟨taken, input, htaken, hinput.trans hout, by rw [hloop], ?_⟩
  intro hreturned hsegments r hr hid
  have hframes : s.frames = [] := by
    cases htranscode : s.transcode with
    | starting => rw [htranscode] at hreturned; cases hreturned
    | decoding => rw [htranscode] at hreturned; cases hreturned
    | returned result =>
      rw [htranscode] at hproduced
      cases hproduced with
      | flushed hframes => exact hframes
  rw [hframes, List.append_nil] at htaken
  rw [hreturned, if_pos rfl, htaken] at hout
  rw [hsegments, List.append_nil] at hinput
  have hacc : SegmentAccumulator.new cfg.streamId r.id (cfg.keyframeIntervalSecs * 3) r.width
      r.height r.videoBitrateKbps r.audioBitrateKbps r.profile r.level cfg.sourceFps ∈
        cfg.accumulators := List.mem_map_of_mem hr
  have hown := ownSegments_sentBy hacc (by rw [renditions_accumulators]; exact hid)
    (cfg.demuxed (readsOf as))
  rw [hinput, hout]
  exact (congrArg segmentsVideo hown).trans
    (segmentsVideo_segmentsOf (fresh_accumulators cfg _ hacc) _)

/-- A ladder with two rungs that become `source`, beside one that keeps its name. -/
def highBesideTwo : LiveConfig :=
  { twoRungs with
    ladder :=
      ⟨"high".toList, 1920, 1080, 3500, 128, "high".toList, "4.1".toList, "medium".toList⟩ ::
        twoRungs.ladder }

/-- A stream of one frame that has been flushed and packaged: three renditions are selected, and the
segments of the one with an id of its own carry the frame's video. -/
theorem live_pipeline_refines_flushed :
    highBesideTwo.ids = [.high, .source, .source] ∧
    ∃ as s p, run (liveStep highBesideTwo) (.start highBesideTwo .new) as = some s ∧
      s.packager = some p ∧ ∃ taken input,
        taken ++ s.frames = highBesideTwo.demuxed (readsOf as) ∧
        input.map Prod.fst ++ s.segments = (if s.transcode.hasReturned
          then highBesideTwo.sent taken
          else (decodeFrames highBesideTwo.accumulators taken).2) ∧
        p.writes = (packagerLoop highBesideTwo.packagerEnv (Packager.start none) input).writes ∧
        segmentsVideo (ownSegments .high (input.map Prod.fst)) =
          videoBytes (packetsOf (highBesideTwo.demuxed (readsOf as))) := by
  have hids : highBesideTwo.ids = [.high, .source, .source] := by decide
  have hne : highBesideTwo.renditions ≠ [] := by decide
  obtain ⟨as₁, s₁, hrun₁, hreturned, -, hp₁, -⟩ := exists_flushed (m := .new) rfl hne
  obtain ⟨as₂, s, p, hrun₂, hp, hsegments, hsame, -⟩ :=
    exists_packaged hp₁ Packager.open_start
  have hrun := (run_append hrun₁ as₂).trans hrun₂
  obtain ⟨taken, input, hframes, hsent, hwrites, hvideo⟩ :=
    live_pipeline_refines highBesideTwo .new (as₁ ++ as₂) s p (by decide) hrun hp
  obtain ⟨r, hr, hhigh⟩ : ∃ r ∈ highBesideTwo.renditions, r.id = .high :=
    List.mem_map.mp (by rw [← LiveConfig.ids, hids]; exact List.mem_cons_self)
  have hcarried := hvideo (by rw [hsame, hreturned]; rfl) hsegments r hr
    (by rw [hhigh, hids]; decide)
  rw [hhigh] at hcarried
  exact ⟨hids, as₁ ++ as₂, s, p, hrun, hp, taken, input, hframes, hsent, hwrites, hcarried⟩

end StreamInfa.Ingest
