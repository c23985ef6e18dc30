import StreamInfa.Ingest.VodRecord
import StreamInfa.Ingest.VodStream

/-!
When an uploaded file becomes READY.

`Staged` places the feeder, the transcode pipeline and the packager of an uploaded file behind one
another, as `Conveyed` does for a live stream; `Recorded` says what the stream's record has heard of
it.
-/

namespace StreamInfa.Ingest

open Control Transcode Package

/-! ### The file and its frames -/

/-- The frames of the pieces of the file. -/
def VodConfig.framesOf (cfg : VodConfig) (chunks : List Bytes) : List DemuxedFrame :=
  chunks.mapIdx cfg.frameAt

/-- What a read can return. -/
def IsChunk (chunk : Bytes) : Prop := chunk ≠ [] ∧ chunk.length ≤ readBufferLen

/-- The feeder has cut these pieces off the file. -/
inductive Fed (cfg : VodConfig) (chunks : List Bytes) : Feeder → Prop
  | opening (hnone : chunks = []) : Fed cfg chunks .opening
  | reading {rest : Bytes} (hfile : chunks.flatten ++ rest = cfg.file) :
      Fed cfg chunks (.reading rest chunks.flatten.length chunks.length)
  | sent {rest : Bytes} {frameIdx : ℕ} (hfile : chunks.flatten ++ rest = cfg.file)
      (hcount : chunks.length = frameIdx + 1) :
      Fed cfg chunks (.sent rest chunks.flatten.length frameIdx)
  | closing (hfile : chunks.flatten = cfg.file) : Fed cfg chunks .closing
  | removing (hfile : chunks.flatten = cfg.file) : Fed cfg chunks .removing
  | done (hfile : chunks.flatten = cfg.file) : Fed cfg chunks .done
  | failed (hfront : chunks.flatten <+: cfg.file) (error : Text) : Fed cfg chunks (.failed error)
  | aborted (hfront : chunks.flatten <+: cfg.file) : Fed cfg chunks .aborted

section Pieces

variable {cfg : VodConfig} {chunks : List Bytes} {rest : Bytes} {bytesRead frameIdx n : ℕ}

theorem framesOf_concat (chunk : Bytes) :
    cfg.framesOf (chunks ++ [chunk]) = cfg.framesOf chunks ++ [cfg.frameAt chunks.length chunk] :=
  List.mapIdx_concat

theorem isChunk_take (hn : n ≠ 0) (hread : IsRead rest n) : IsChunk (rest.take n) := by
  have hlen : (rest.take n).length = n := by
    rw [List.length_take]
    exact Nat.min_eq_left hread.2.1
  refine ⟨fun hnil => hn ?_, hlen.trans_le hread.1⟩
  rw [← hlen, hnil, List.length_nil]

/-- A read cuts the next piece off. -/
theorem Fed.read (h : Fed cfg chunks (.reading rest bytesRead frameIdx)) (hread : IsRead rest n) :
    Fed cfg (chunks ++ [rest.take n]) (.sent (rest.drop n) (bytesRead + n) frameIdx) ∧
      frameIdx = chunks.length := by
  cases h with
  | reading hfile =>
    have hbytes : (chunks ++ [rest.take n]).flatten = chunks.flatten ++ rest.take n := by
      rw [List.flatten_append, List.flatten_singleton]
    have hlen : (chunks ++ [rest.take n]).flatten.length = chunks.flatten.length + n := by
      rw [hbytes, List.length_append, List.length_take, Nat.min_eq_left hread.2.1]
    refine ⟨?_, rfl⟩
    rw [← hlen]
    refine .sent ?_ (by rw [List.length_append]; rfl)
    rw [hbytes, List.append_assoc, List.take_append_drop, hfile]

/-- The packets of a file come at a steady cadence. -/
theorem steady_framesOf (cfg : VodConfig) (chunks : List Bytes) :
    Steady (packetsOf (cfg.framesOf chunks)) := by
  intro i packet hpacket
  rw [packetsOf, VodConfig.framesOf, List.getElem?_map, List.getElem?_mapIdx] at hpacket
  obtain ⟨frame, hframe, rfl⟩ := Option.map_eq_some_iff.mp hpacket
  obtain ⟨chunk, -, rfl⟩ := Option.map_eq_some_iff.mp hframe
  exact ⟨rfl, rfl, rfl⟩

theorem length_packetsOf_framesOf (cfg : VodConfig) (chunks : List Bytes) :
    (packetsOf (cfg.framesOf chunks)).length = chunks.length := by
  rw [packetsOf, VodConfig.framesOf, List.length_map, List.length_mapIdx]

end Pieces

/-! ### The stages behind one another -/

/-- What the transcode pipeline has sent in all, of the frames of the pieces; without a rendition it
has failed or is going to. -/
inductive Transcoded (cfg : VodConfig) (chunks : List Bytes) (frames : List DemuxedFrame)
    (transcode : TranscodeTask) : List EncodedSegment → Prop
  | produced {out : List EncodedSegment} (hsome : cfg.renditions ≠ [])
      (h : Produced cfg.accumulators (cfg.framesOf chunks) frames transcode out) :
      Transcoded cfg chunks frames transcode out
  | refused (hnone : cfg.renditions = [])
      (h : transcode = .starting ∨ ∃ e, transcode = .returned (.error e)) :
      Transcoded cfg chunks frames transcode []

/-- The packager takes its segments, or has ended and left the final multivariant playlist. -/
inductive Packaged (env : PackagerEnv) (out segments : List EncodedSegment) (p : Packager) :
    Bool → Prop
  | running (h : Packed env out segments p) : Packaged env out segments p true
  | ended {input : List (EncodedSegment × DateTime)} (hsegments : segments = [])
      (hinput : input.map Prod.fst = out)
      (hwrites : p.writes = (runPackager env none input).writes) :
      Packaged env out segments p false

/-- The feeder has given up. -/
def Feeder.hasFailed : Feeder → Bool
  | .failed _ | .aborted => true
  | .opening | .reading .. | .sent .. | .closing | .removing | .done => false

/-- The temp file cannot be opened or read. -/
def VodAction.isFault : VodAction → Bool
  | .openFile (some _) | .read (.error _) => true
  | _ => false

/-- A piece of the file is read. -/
def VodAction.isFrame : VodAction → Bool
  | .read (.ok n) => n ≠ 0
  | _ => false

/-- Feeder, transcode pipeline and packager after the actions, where the pipeline has sent the
segments `out`. -/
structure Staged (cfg : VodConfig) (as : List VodAction) (s : VodTasks)
    (out : List EncodedSegment) : Prop where
  stages : ∃ chunks, (∀ chunk ∈ chunks, IsChunk chunk) ∧ Fed cfg chunks s.feeder ∧
    Transcoded cfg chunks s.frames s.transcode out ∧
      (cfg.renditions ≠ [] → chunks.length = as.countP (·.isFrame))
  packaged : Packaged cfg.packagerEnv out s.segments s.packager s.packaging
  running : s.transcode.hasReturned = false → s.packaging = true
  feeding : cfg.renditions ≠ [] → s.feeder.isFeeding = true → s.transcode.hasReturned = false
  faults : cfg.renditions ≠ [] → s.feeder.hasFailed = as.any (·.isFault)

/-- The segments that a step sends. -/
def VodTasks.sends (s : VodTasks) : VodAction → List EncodedSegment
  | .decode =>
    match s.transcode, s.frames with
    | .decoding accs _, frame :: _ => (processFrame false accs frame).2.1
    | _, _ => []
  | .flush =>
    match s.transcode with
    | .decoding accs _ => accs.filterMap fun acc => acc.flush
    | _ => []
  | _ => []

section Staging

variable {cfg : VodConfig} {as : List VodAction} {a : VodAction} {s s' : VodTasks}
  {out : List EncodedSegment}

theorem staged_start (cfg : VodConfig) (m : StreamStateManager) : Staged cfg [] (.start m) [] where
  stages := by
    refine ⟨[], fun chunk hmem => absurd hmem List.not_mem_nil, .opening rfl, ?_, fun _ => rfl⟩
    by_cases hnone : cfg.renditions = []
    · exact .refused hnone (.inl rfl)
    · exact .produced hnone (.starting rfl)
  packaged := .running ⟨Packager.open_start, [], Between.start _ _⟩
  running _ := rfl
  feeding _ _ := rfl
  faults _ := rfl

/-- The actions of the other tasks are neither reads nor faults. -/
theorem Staged.history (h : Staged cfg as s out) (hframe : a.isFrame = false)
    (hfault : a.isFault = false) : Staged cfg (as ++ [a]) s out := by
  obtain ⟨chunks, hchunks, hfed, htranscoded, hcount⟩ := h.stages
  refine ⟨⟨chunks, hchunks, hfed, htranscoded, fun hsome => ?_⟩, h.packaged, h.running,
    h.feeding, fun hsome => ?_⟩
  · rw [hcount hsome, List.countP_append, List.countP_singleton, hframe]
    rfl
  · rw [h.faults hsome, List.any_append, List.any_cons, List.any_nil, hfault, Bool.or_false,
      Bool.or_false]

/-- A step of the feeder that sends no frame. -/
theorem Staged.feeder (h : Staged cfg as s out) {feeder : Feeder}
    (hfed : ∀ chunks, Fed cfg chunks s.feeder → Fed cfg chunks feeder)
    (hframe : cfg.renditions ≠ [] → a.isFrame = false)
    (hfeeding : feeder.isFeeding = true → s.feeder.isFeeding = true)
    (hfailed : cfg.renditions ≠ [] → feeder.hasFailed = (s.feeder.hasFailed || a.isFault))
    (events : List PipelineEvent) (tempFile : Bool) :
    Staged cfg (as ++ [a]) { s with feeder := feeder, events := events, tempFile := tempFile }
      out := by
  obtain ⟨chunks, hchunks, hbefore, htranscoded, hcount⟩ := h.stages
  refine ⟨⟨chunks, hchunks, hfed chunks hbefore, htranscoded, fun hsome => ?_⟩, h.packaged,
    h.running, fun hsome hopen => h.feeding hsome (hfeeding hopen), fun hsome => ?_⟩
  · rw [hcount hsome, List.countP_append, List.countP_singleton, hframe hsome]
    rfl
  · rw [hfailed hsome, h.faults hsome, List.any_append, List.any_cons, List.any_nil, Bool.or_false]

/-- A piece of the file is sent to the pipeline. -/
theorem Staged.fed (h : Staged cfg as s out) {rest : Bytes} {bytesRead frameIdx n : ℕ}
    (hfeeder : s.feeder = .reading rest bytesRead frameIdx) (hn : n ≠ 0) (hread : IsRead rest n)
    (hopen : s.transcode.hasReturned = false) :
    Staged cfg (as ++ [.read (.ok n)]) { s with
      frames := s.frames ++ [cfg.frameAt frameIdx (rest.take n)]
      feeder := .sent (rest.drop n) (bytesRead + n) frameIdx } out := by
  obtain ⟨chunks, hchunks, hfed, htranscoded, hcount⟩ := h.stages
  have hfailed : s.feeder.hasFailed = false := by
    rw [hfeeder]
    rfl
  rw [hfeeder] at hfed
  obtain ⟨hsent, hidx⟩ := hfed.read hread
  have hnonzero : VodAction.isFrame (.read (.ok n)) = true := decide_eq_true hn
  refine ⟨⟨chunks ++ [rest.take n], ?_, hsent, ?_, fun hsome => ?_⟩, h.packaged, h.running,
    fun _ _ => hopen, fun hsome => ?_⟩
  · intro chunk hmem
    rcases List.mem_append.mp hmem with hmem | hmem
    · exact hchunks chunk hmem
    · obtain rfl := List.mem_singleton.mp hmem
      exact isChunk_take hn hread
  · cases htranscoded with
    | produced hsome hproduced =>
      refine .produced hsome ?_
      rw [framesOf_concat, ← hidx]
      exact hproduced.feed hopen _
    | refused hnone hfailing => exact .refused hnone hfailing
  · rw [List.length_append, hcount hsome, List.countP_append, List.countP_singleton, hnonzero]
    rfl
  · rw [List.any_append, ← h.faults hsome, hfailed]
    rfl

/-- A frame goes through the pipeline. -/
theorem Staged.decode (h : Staged cfg as s out) {accs : List SegmentAccumulator} {errors : ℕ}
    {frame : DemuxedFrame} {frames : List DemuxedFrame}
    (htranscode : s.transcode = .decoding accs errors) (hframes : s.frames = frame :: frames) :
    Staged cfg (as ++ [.decode]) (s.decode cfg accs errors frame frames)
      (out ++ (processFrame false accs frame).2.1) := by
  have hrunning := h.running (by rw [htranscode]; rfl)
  have hhistory := h.history (a := .decode) rfl rfl
  obtain ⟨chunks, hchunks, hfed, htranscoded, hcount⟩ := hhistory.stages
  have hturn : s.decode cfg accs errors frame frames = { s with
      frames := frames
      segments := s.segments ++ (processFrame false accs frame).2.1
      transcode := .decoding (processFrame false accs frame).1 0 } := by
    simp only [VodTasks.decode, hrunning, Bool.not_true, processFrame_open]
  rw [hturn]
  refine ⟨⟨chunks, hchunks, hfed, ?_, hcount⟩, ?_, fun _ => hrunning, fun _ _ => rfl,
    hhistory.faults⟩
  · rw [htranscode, hframes] at htranscoded
    cases htranscoded with
    | produced hsome hproduced => exact .produced hsome hproduced.take
    | refused hnone hfailing =>
      rcases hfailing with hstarting | ⟨e, hreturned⟩
      · cases hstarting
      · cases hreturned
  · have hpackaged := h.packaged
    rw [hrunning] at hpackaged ⊢
    cases hpackaged with
    | running hpacked => exact .running (hpacked.send _)

/-- The pipeline flushes its accumulators. -/
theorem Staged.flush (h : Staged cfg as s out) {accs : List SegmentAccumulator} {errors : ℕ}
    (htranscode : s.transcode = .decoding accs errors) (hframes : s.frames = [])
    (hfeeder : s.feeder.isFeeding = false) :
    Staged cfg (as ++ [.flush]) { s with
      transcode := .returned (.ok ())
      segments := s.segments ++
        if s.packaging then accs.filterMap fun acc => acc.flush else [] }
      (out ++ accs.filterMap fun acc => acc.flush) := by
  have hrunning := h.running (by rw [htranscode]; rfl)
  have hhistory := h.history (a := .flush) rfl rfl
  obtain ⟨chunks, hchunks, hfed, htranscoded, hcount⟩ := hhistory.stages
  rw [htranscode, hframes] at htranscoded
  refine ⟨⟨chunks, hchunks, hfed, ?_, hcount⟩, ?_, fun hopen => (by cases hopen),
    fun _ hfeeding => ?_, hhistory.faults⟩
  · cases htranscoded with
    | produced hsome hproduced =>
      refine .produced hsome ?_
      rw [hframes]
      exact hproduced.flush
    | refused hnone hfailing =>
      rcases hfailing with hstarting | ⟨e, hreturned⟩
      · cases hstarting
      · cases hreturned
  · have hpackaged := h.packaged
    rw [hrunning] at hpackaged ⊢
    cases hpackaged with
    | running hpacked => exact .running (hpacked.send _)
  · rw [hfeeder] at hfeeding
    cases hfeeding

theorem writes_finishPackager (env : PackagerEnv) {p : Packager} (hroom : p.room = none) :
    (finishPackager env p).writes =
      p.writes ++ if p.renditionInfos = [] then [] else [masterWrite env p.renditionInfos] := by
  unfold finishPackager
  split
  · rw [List.append_nil]
  · rw [writeMasterPlaylist, Packager.send_of_open hroom, Option.getD_some]

/-- The packager ends behind the last segment. -/
theorem Packed.end {env : PackagerEnv} {p : Packager} (h : Packed env out [] p) :
    Packaged env out [] (finishPackager env p) false := by
  obtain ⟨input, hinput, hloop⟩ := h.exists_input
  rw [List.append_nil] at hinput
  refine .ended rfl hinput ?_
  have hrun : runPackager env none input =
      finishPackager env (packagerLoop env (Packager.start none) input) := rfl
  rw [hrun, hloop, writes_finishPackager env h.opened.room]
  symm
  exact writes_finishPackager env h.opened.room

/-- A turn of the packager. -/
theorem Staged.package (h : Staged cfg as s out) {p : Packager} {segment : EncodedSegment}
    {segments : List EncodedSegment} {now : DateTime} (hpackaging : s.packaging = true)
    (hsegments : s.segments = segment :: segments)
    (hturn : handleSegment cfg.packagerEnv { s.packager with events := [] } segment now = .ok p) :
    Staged cfg (as ++ [.package now])
      { s with packager := p, segments := segments, events := s.events ++ p.events } out := by
  have hhistory := h.history (a := .package now) rfl rfl
  refine ⟨hhistory.stages, ?_, h.running, h.feeding, hhistory.faults⟩
  have hpackaged := h.packaged
  rw [hpackaging, hsegments] at hpackaged
  cases hpackaged with
  | running hpacked =>
    rw [hpackaging]
    exact .running (hpacked.take hturn)

/-- **One step of the tasks of an uploaded file**: the stages go on as they would alone. -/
theorem Staged.step (h : Staged cfg as s out) (hstep : vodStep cfg s a = some s') :
    Staged cfg (as ++ [a]) s' (out ++ s.sends a) := by
  have hquiet : ∀ {b : VodAction}, Staged cfg (as ++ [b]) s' out → s.sends b = [] →
      Staged cfg (as ++ [b]) s' (out ++ s.sends b) := by
    intro b hstaged hnone
    rwa [hnone, List.append_nil]
  cases vodStep_outcome hstep with
  | opened hfeeder =>
    refine hquiet (h.feeder ?_ (fun _ => rfl) ?_ ?_ _ _) rfl
    · intro chunks hfed
      rw [hfeeder] at hfed
      cases hfed with
      | opening hnone =>
        subst hnone
        exact .reading rfl
    · exact fun _ => by rw [hfeeder]; rfl
    · exact fun _ => by rw [hfeeder]; rfl
  | notOpened hfeeder fault =>
    refine hquiet (h.feeder ?_ (fun _ => rfl) (fun hopen => by cases hopen) ?_ _ _) rfl
    · intro chunks hfed
      rw [hfeeder] at hfed
      cases hfed with
      | opening hnone =>
        subst hnone
        refine .failed ?_ _
        exact List.nil_prefix
    · exact fun _ => by rw [hfeeder]; rfl
  | readFailed hfeeder e =>
    refine hquiet (h.feeder ?_ (fun _ => rfl) (fun hopen => by cases hopen) ?_ _ _) rfl
    · intro chunks hfed
      rw [hfeeder] at hfed
      cases hfed with
      | reading hfile => exact .failed ⟨_, hfile⟩ _
    · exact fun _ => by rw [hfeeder]; rfl
  | endOfFile hfeeder =>
    refine hquiet (h.feeder ?_ (fun _ => rfl) (fun hopen => by cases hopen) ?_ _ _) rfl
    · intro chunks hfed
      rw [hfeeder] at hfed
      cases hfed with
      | reading hfile => exact .closing (by rwa [List.append_nil] at hfile)
    · exact fun _ => by rw [hfeeder]; rfl
  | refusedFrame hfeeder hn hread hreturned =>
    -- With a rendition the pipeline is open as long as the feeder feeds it.
    have hclosed : ¬ cfg.renditions ≠ [] := by
      intro hsome
      have hopen := h.feeding hsome (by rw [hfeeder]; rfl)
      rw [hreturned] at hopen
      cases hopen
    refine hquiet (h.feeder ?_ (fun hsome => absurd hsome hclosed) (fun hopen => by cases hopen)
      (fun hsome => absurd hsome hclosed) _ _) rfl
    intro chunks hfed
    rw [hfeeder] at hfed
    cases hfed with
    | reading hfile => exact .failed ⟨_, hfile⟩ _
  | fed hfeeder hn hread hopen => exact hquiet (h.fed hfeeder hn hread hopen) rfl
  | progressed hfeeder =>
    refine hquiet (h.feeder ?_ (fun _ => rfl) ?_ ?_ _ _) rfl
    · intro chunks hfed
      rw [hfeeder] at hfed
      cases hfed with
      | sent hfile hcount =>
        rw [← hcount]
        exact .reading hfile
    · exact fun _ => by rw [hfeeder]; rfl
    · exact fun _ => by rw [hfeeder]; rfl
  | concluded hfeeder =>
    refine hquiet (h.feeder ?_ (fun _ => rfl) (fun hopen => by cases hopen) ?_ _ _) rfl
    · intro chunks hfed
      rw [hfeeder] at hfed
      cases hfed with
      | closing hfile => exact .removing hfile
    · exact fun _ => by rw [hfeeder]; rfl
  | removed hfeeder removed =>
    refine hquiet (h.feeder ?_ (fun _ => rfl) (fun hopen => by cases hopen) ?_ _ _) rfl
    · intro chunks hfed
      rw [hfeeder] at hfed
      cases hfed with
      | removing hfile => exact .done hfile
    · exact fun _ => by rw [hfeeder]; rfl
  | aborted hfeeder =>
    refine hquiet (h.feeder ?_ (fun _ => rfl) (fun hopen => by cases hopen) ?_ _ _) rfl
    · intro chunks hfed
      rw [hfeeder] at hfed
      cases hfed with
      | failed hfront error => exact .aborted hfront
    · exact fun _ => by rw [hfeeder]; rfl
  | refused hstarting hnone =>
    have hhistory := h.history (a := .launch) rfl rfl
    obtain ⟨chunks, hchunks, hfed, htranscoded, hcount⟩ := hhistory.stages
    refine hquiet ⟨⟨chunks, hchunks, hfed, ?_, hcount⟩, h.packaged,
      fun hopen => (by cases hopen), fun hsome => absurd hnone hsome, hhistory.faults⟩ rfl
    cases htranscoded with
    | produced hsome hproduced => exact absurd hnone hsome
    | refused _ hfailing => exact .refused hnone (.inr ⟨_, rfl⟩)
  | launched hstarting hsome =>
    have hhistory := h.history (a := .launch) rfl rfl
    obtain ⟨chunks, hchunks, hfed, htranscoded, hcount⟩ := hhistory.stages
    refine hquiet ⟨⟨chunks, hchunks, hfed, ?_, hcount⟩, h.packaged,
      fun _ => h.running (by rw [hstarting]; rfl), fun _ _ => rfl, hhistory.faults⟩ rfl
    rw [hstarting] at htranscoded
    cases htranscoded with
    | produced _ hproduced => exact .produced hsome hproduced.launch
    | refused hnone hfailing => exact absurd hnone hsome
  | @decoded accs errors frame frames htranscode hframes =>
    have hsends : s.sends .decode = (processFrame false accs frame).2.1 := by
      simp only [VodTasks.sends, htranscode, hframes]
    rw [hsends]
    exact h.decode htranscode hframes
  | @flushed accs errors htranscode hframes hfeeder =>
    have hsends : s.sends .flush = accs.filterMap fun acc => acc.flush := by
      simp only [VodTasks.sends, htranscode]
    rw [hsends]
    exact h.flush htranscode hframes hfeeder
  | reported htranscode hreported =>
    have hhistory := h.history (a := .reportTranscode) rfl rfl
    exact hquiet ⟨hhistory.stages, h.packaged, h.running, h.feeding, hhistory.faults⟩ rfl
  | packaged hpackaging hsegments hturn =>
    exact hquiet (h.package hpackaging hsegments hturn) rfl
  | broken hpackaging hsegments hturn =>
    have hpackaged := h.packaged
    rw [hpackaging] at hpackaged
    cases hpackaged with
    | running hpacked =>
      obtain ⟨q, hok, -⟩ := handleSegment_open _ _ _ (hpacked.opened.withEvents [])
      cases hok.symm.trans hturn
  | packagerEnded hpackaging hsegments htranscode =>
    have hhistory := h.history (a := .packagerEnd) rfl rfl
    refine hquiet ⟨hhistory.stages, ?_, fun hopen => ?_, h.feeding, hhistory.faults⟩ rfl
    · have hpackaged := h.packaged
      rw [hpackaging, hsegments] at hpackaged
      cases hpackaged with
      | running hpacked =>
        rw [hsegments]
        exact hpacked.end
    · rw [htranscode] at hopen
      cases hopen
  | handled now hevents =>
    have hhistory := h.history (a := .handle now) rfl rfl
    exact hquiet ⟨hhistory.stages, h.packaged, h.running, h.feeding, hhistory.faults⟩ rfl

end Staging

/-! ### What the record has heard -/

/-- How many renditions the pipeline has said it expects. -/
def VodConfig.expecting (cfg : VodConfig) : TranscodeTask → Option ℕ
  | .decoding .. | .returned (.ok ()) => some cfg.renditions.length
  | .starting | .returned (.error _) => none

/-- The record when the events `handled` have reached it, where the pipeline has sent the segments
`out`. -/
structure Recorded (cfg : VodConfig) (s : VodTasks) (out : List EncodedSegment)
    (handled : List PipelineEvent) (entry : StreamEntry) : Prop where
  record : s.manager.streams.lookup cfg.streamId = some entry
  kept : Kept cfg.streamId (cfg.expecting s.transcode) handled entry
  own : ∀ event ∈ handled ++ s.events, VodEvent cfg.streamId event
  ordered : Ordered cfg.streamId (handled ++ s.events)
  completed : completedNames (handled ++ s.events) ++ lastNames s.segments = lastNames out
  errors : (∃ error, .streamError cfg.streamId error ∈ handled ++ s.events) ↔
    s.feeder = .aborted ∨ s.reported = true

section Recording

variable {cfg : VodConfig} {as : List VodAction} {a : VodAction} {s s' : VodTasks}
  {out : List EncodedSegment} {handled : List PipelineEvent} {entry : StreamEntry}

theorem recorded_start {m : StreamStateManager}
    (hentry : m.streams.lookup cfg.streamId = some entry) (hawaiting : Awaiting entry) :
    Recorded cfg (.start m) [] [] entry where
  record := hentry
  kept := hawaiting.kept cfg.streamId
  own event hmem := absurd hmem List.not_mem_nil
  ordered := ordered_nil cfg.streamId
  completed := rfl
  errors := by simp [VodTasks.start]

/-- A step that tells the record nothing, but may send segments. -/
theorem Recorded.quiet {more : List EncodedSegment} (h : Recorded cfg s out handled entry)
    (hmanager : s'.manager = s.manager) (hevents : s'.events = s.events)
    (hexpecting : cfg.expecting s'.transcode = cfg.expecting s.transcode)
    (herrors : s'.feeder = .aborted ∨ s'.reported = true ↔
      s.feeder = .aborted ∨ s.reported = true)
    (hsegments : s'.segments = s.segments ++ more) :
    Recorded cfg s' (out ++ more) handled entry where
  record := by rw [hmanager, h.record]
  kept := by
    rw [hexpecting]
    exact h.kept
  own := by
    rw [hevents]
    exact h.own
  ordered := by
    rw [hevents]
    exact h.ordered
  completed := by
    rw [hevents, hsegments, lastNames_append, lastNames_append, ← List.append_assoc, h.completed]
  errors := by rw [hevents, herrors, h.errors]

/-- A step that sends an event which completes nothing. -/
theorem Recorded.send {event : PipelineEvent} (h : Recorded cfg s out handled entry)
    (hevent : VodEvent cfg.streamId event) (hname : completedName event = none)
    (hmanager : s'.manager = s.manager) (hevents : s'.events = s.events ++ [event])
    (htranscode : s'.transcode = s.transcode) (hsegments : s'.segments = s.segments)
    (herrors : s'.feeder = .aborted ∨ s'.reported = true ↔
      (s.feeder = .aborted ∨ s.reported = true) ∨
        ∃ error, event = .streamError cfg.streamId error) :
    Recorded cfg s' out handled entry where
  record := by rw [hmanager, h.record]
  kept := by
    rw [htranscode]
    exact h.kept
  own other hmem := by
    rw [hevents, ← List.append_assoc] at hmem
    rcases List.mem_append.mp hmem with hmem | hmem
    · exact h.own other hmem
    · obtain rfl := List.mem_singleton.mp hmem
      exact hevent
  ordered := by
    rw [hevents, ← List.append_assoc]
    refine h.ordered.concat fun name heq => ?_
    rw [heq] at hname
    cases hname
  completed := by
    have hnone : completedNames [event] = [] := by
      simp only [completedNames, List.filterMap_cons, hname, List.filterMap_nil]
    rw [hevents, hsegments, ← List.append_assoc, completedNames_append, hnone, List.append_nil]
    exact h.completed
  errors := by
    rw [hevents, herrors, ← h.errors, ← exists_or, ← List.append_assoc]
    refine exists_congr fun error => ?_
    rw [List.mem_append, List.mem_singleton, eq_comm (a := event)]

/-- The packager sends the events of a segment. -/
theorem Recorded.package (h : Recorded cfg s out handled entry) {p : Packager}
    {segment : EncodedSegment} {segments : List EncodedSegment}
    (hsegments : s.segments = segment :: segments)
    (hevents : p.events = segmentEvents cfg.packagerEnv segment) :
    Recorded cfg { s with packager := p, segments := segments, events := s.events ++ p.events }
      out handled entry := by
  refine ⟨h.record, h.kept, fun event hmem => ?_, ?_, ?_, ?_⟩
  · rw [hevents, ← List.append_assoc] at hmem
    rcases List.mem_append.mp hmem with hmem | hmem
    · exact h.own event hmem
    · exact vodEvent_segmentEvents _ segment event hmem
  · rw [hevents, ← List.append_assoc]
    exact h.ordered.package rfl segment
  · have hcompleted := h.completed
    have hcons : lastNames (segment :: segments) = lastNames [segment] ++ lastNames segments :=
      lastNames_append [segment] segments
    rw [hsegments, hcons] at hcompleted
    rw [hevents, ← List.append_assoc, completedNames_append, completedNames_segmentEvents,
      List.append_assoc, hcompleted]
  · refine Iff.trans (exists_congr fun error => ?_) h.errors
    rw [hevents, ← List.append_assoc, List.mem_append]
    refine or_iff_left fun hmem => ?_
    rcases List.mem_cons.mp hmem with heq | hmem
    · cases heq
    · split at hmem
      · cases List.mem_singleton.mp hmem
      · cases hmem

/-- The event handler takes an event. -/
theorem Recorded.handle (h : Recorded cfg s out handled entry) {event : PipelineEvent}
    {events : List PipelineEvent} (hevents : s.events = event :: events) (now : DateTime) :
    Recorded cfg (s.handle event events now) out (handled ++ [event])
      (ControlStep.onEntry now entry (.event event)) := by
  have hall : handled ++ [event] ++ events = handled ++ s.events := by
    rw [hevents, List.append_assoc, List.singleton_append]
  have hevent := h.own event (by rw [hevents]; simp)
  have hordered : Ordered cfg.streamId (handled ++ [event]) := by
    intro before name later heq
    exact h.ordered before name (later ++ events) (by rw [← hall, heq, List.append_assoc]; rfl)
  refine ⟨?_, h.kept.handle hevent hordered now, ?_, ?_, ?_, ?_⟩
  · have hown : event.streamId = cfg.streamId := by cases hevent <;> rfl
    have hlookup := lookup_controlStep_self s.manager (.event event) now
    rw [ControlStep.streamId, hown, h.record] at hlookup
    exact hlookup
  · exact hall ▸ h.own
  · exact hall ▸ h.ordered
  · exact hall ▸ h.completed
  · exact hall ▸ h.errors

/-- The pipeline says how many renditions it expects. -/
theorem Recorded.launch (h : Recorded cfg s out handled entry) (hstaged : Staged cfg as s out)
    (hstarting : s.transcode = .starting) (hsome : cfg.renditions ≠ []) :
    Recorded cfg { s with
      manager := s.manager.setExpectedRenditions cfg.streamId cfg.renditions.length
      transcode := .decoding cfg.accumulators 0 } out handled
      { entry with expectedRenditions := some cfg.renditions.length } := by
  have hout : out = [] := by
    obtain ⟨chunks, -, -, htranscoded, -⟩ := hstaged.stages
    rw [hstarting] at htranscoded
    cases htranscoded with
    | produced _ hproduced =>
      cases hproduced with
      | starting => rfl
    | refused hnone => exact absurd hnone hsome
  have hnone : completedNames handled = [] := by
    have hcompleted := h.completed
    rw [hout, completedNames_append, List.append_assoc] at hcompleted
    exact (List.append_eq_nil_iff.mp hcompleted).1
  have hkept := h.kept
  rw [hstarting] at hkept
  refine ⟨?_, hkept.expect (List.length_pos_iff.mpr hsome) hnone, h.own, h.ordered, h.completed,
    h.errors⟩
  have hlookup : (s.manager.setExpectedRenditions cfg.streamId cfg.renditions.length).streams.lookup
      cfg.streamId = (s.manager.streams.lookup cfg.streamId).map fun entry =>
        { entry with expectedRenditions := some cfg.renditions.length } :=
    Map.lookup_adjust_self _ _ _
  rw [hlookup, h.record]
  rfl

/-- A frame goes through the pipeline: no rendition ends. -/
theorem Recorded.decode (h : Recorded cfg s out handled entry) (hstaged : Staged cfg as s out)
    {accs : List SegmentAccumulator} {errors : ℕ} {frame : DemuxedFrame}
    {frames : List DemuxedFrame} (htranscode : s.transcode = .decoding accs errors) :
    Recorded cfg (s.decode cfg accs errors frame frames)
      (out ++ (processFrame false accs frame).2.1) handled entry := by
  have hrunning := hstaged.running (by rw [htranscode]; rfl)
  have hturn : s.decode cfg accs errors frame frames = { s with
      frames := frames
      segments := s.segments ++ (processFrame false accs frame).2.1
      transcode := .decoding (processFrame false accs frame).1 0 } := by
    simp only [VodTasks.decode, hrunning, Bool.not_true, processFrame_open]
  rw [hturn]
  exact h.quiet rfl rfl (by rw [htranscode]; rfl) Iff.rfl rfl

/-- **One step of the tasks of an uploaded file**: what the record hears of it. -/
theorem Recorded.step (h : Recorded cfg s out handled entry) (hstaged : Staged cfg as s out)
    (hstep : vodStep cfg s a = some s') :
    ∃ handled entry, Recorded cfg s' (out ++ s.sends a) handled entry := by
  have hsame : ∀ {t : VodTasks} {b : VodAction} {handled : List PipelineEvent}
      {entry : StreamEntry}, s.sends b = [] → Recorded cfg t out handled entry →
      ∃ handled entry, Recorded cfg t (out ++ s.sends b) handled entry := by
    intro t b handled entry hnone hrecorded
    exact ⟨handled, entry, by rwa [hnone, List.append_nil]⟩
  have hnothing : s.segments = s.segments ++ [] := (List.append_nil _).symm
  cases vodStep_outcome hstep with
  | opened hfeeder | progressed hfeeder | concluded hfeeder =>
    refine hsame rfl (h.send (.progress _) rfl rfl rfl rfl rfl ?_)
    simp [hfeeder]
  | notOpened hfeeder | readFailed hfeeder | endOfFile hfeeder | refusedFrame hfeeder
  | fed hfeeder | removed hfeeder =>
    refine ⟨handled, entry, h.quiet rfl rfl rfl ?_ hnothing⟩
    simp [hfeeder]
  | aborted hfeeder =>
    refine hsame rfl (h.send (.error _) rfl rfl rfl rfl rfl ?_)
    simp
  | refused hstarting hnone =>
    exact ⟨handled, entry, h.quiet rfl rfl (by rw [hstarting]; rfl) Iff.rfl hnothing⟩
  | launched hstarting hsome =>
    exact hsame rfl (h.launch hstaged hstarting hsome)
  | @decoded accs errors frame frames htranscode hframes =>
    have hsends : s.sends .decode = (processFrame false accs frame).2.1 := by
      simp only [VodTasks.sends, htranscode, hframes]
    rw [hsends]
    exact ⟨handled, entry, h.decode hstaged htranscode⟩
  | @flushed accs errors htranscode hframes hfeeder =>
    have hrunning := hstaged.running (by rw [htranscode]; rfl)
    have hsends : s.sends .flush = accs.filterMap fun acc => acc.flush := by
      simp only [VodTasks.sends, htranscode]
    rw [hsends]
    exact ⟨handled, entry, h.quiet rfl rfl (by rw [htranscode]; rfl) Iff.rfl
      (by rw [if_pos hrunning])⟩
  | reported htranscode hreported =>
    refine hsame rfl (h.send (.error _) rfl rfl rfl rfl rfl ?_)
    simp
  | @packaged p segment segments now hpackaging hsegments hturn =>
    have hemits := emits_handleSegment cfg.packagerEnv { s.packager with events := [] } segment now
    rw [hturn] at hemits
    exact hsame rfl (h.package hsegments hemits)
  | broken hpackaging hsegments hturn =>
    have hpackaged := hstaged.packaged
    rw [hpackaging] at hpackaged
    cases hpackaged with
    | running hpacked =>
      obtain ⟨q, hok, -⟩ := handleSegment_open _ _ _ (hpacked.opened.withEvents [])
      cases hok.symm.trans hturn
  | packagerEnded => exact ⟨handled, entry, h.quiet rfl rfl rfl Iff.rfl hnothing⟩
  | handled now hevents =>
    exact hsame rfl (h.handle hevents now)

end Recording

/-! ### The end of the file -/

/-- The ids of the selected renditions. -/
def VodConfig.ids (cfg : VodConfig) : List RenditionId := cfg.renditions.map (·.id)

section End

variable {cfg : VodConfig} {m : StreamStateManager} {as : List VodAction} {s : VodTasks}
  {entry : StreamEntry}

theorem staged_of_run (hrun : run (vodStep cfg) (.start m) as = some s) :
    ∃ out, Staged cfg as s out := by
  refine run_history (I := fun p s => ∃ out, Staged cfg p s out) ?_
    ⟨[], staged_start cfg m⟩ hrun
  rintro p c a c' _ ⟨out, hstaged⟩ hstep
  exact ⟨_, hstaged.step hstep⟩

theorem recorded_of_run (hentry : m.streams.lookup cfg.streamId = some entry)
    (hawaiting : Awaiting entry) (hrun : run (vodStep cfg) (.start m) as = some s) :
    ∃ out handled entry, Staged cfg as s out ∧ Recorded cfg s out handled entry := by
  refine run_history (I := fun p s => ∃ out handled entry, Staged cfg p s out ∧
    Recorded cfg s out handled entry) ?_
    ⟨[], [], entry, staged_start cfg m, recorded_start hentry hawaiting⟩ hrun
  rintro p c a c' _ ⟨out, handled, entry, hstaged, hrecorded⟩ hstep
  obtain ⟨handled', entry', hnext⟩ := hrecorded.step hstaged hstep
  exact ⟨_, handled', entry', hstaged.step hstep, hnext⟩

/-- Accumulators with one target end their renditions all at once: if video is left over. -/
theorem lastNames_sentBy {accs : List SegmentAccumulator} {target : ℚ}
    (hfresh : ∀ acc ∈ accs, Fresh acc ∧ acc.targetDurationSecs = target)
    (frames : List DemuxedFrame) :
    lastNames (sentBy accs frames) =
      if videoBytes (openTail target (packetsOf frames)) = [] then []
      else accs.map fun acc => acc.rendition.asStr := by
  have hearly : lastNames (decodeFrames accs frames).2 = [] := by
    clear hfresh
    refine lastNames_eq_nil ?_
    induction frames generalizing accs with
    | nil => exact fun segment hmem => absurd hmem List.not_mem_nil
    | cons frame frames ih =>
      intro segment hmem
      rcases List.mem_append.mp hmem with hmem | hmem
      · exact isLast_processFrame false accs frame segment hmem
      · exact ih segment hmem
  have hflushes : (decodeFrames accs frames).1.filterMap (fun acc => acc.flush) =
      accs.filterMap fun acc => (pushFrames acc frames).2.flush := by
    rw [fst_decodeFrames, List.filterMap_map]
    rfl
  rw [sentBy, lastNames_append, hearly, List.nil_append, hflushes]
  clear hearly hflushes
  induction accs with
  | nil => exact (ite_self _).symm
  | cons acc accs ih =>
    obtain ⟨⟨hacc, htarget⟩, hrest⟩ := List.forall_mem_cons.mp hfresh
    have hnames := ih hrest
    subst htarget
    rcases flush_pushFrames hacc.holds frames with
      ⟨hempty, hflush⟩ | ⟨hvideo, segment, hflush, -, hlast, -⟩
    · rw [List.filterMap_cons, hflush, hnames, if_pos hempty, if_pos hempty]
    · have hname : segment.rendition = acc.rendition :=
        (rendition_of_flush _ _ hflush).trans (rendition_pushFrames frames)
      rw [if_neg hvideo] at hnames ⊢
      have hcons : (acc :: accs).filterMap (fun acc => (pushFrames acc frames).2.flush) =
          [segment] ++ accs.filterMap fun acc => (pushFrames acc frames).2.flush :=
        List.filterMap_cons_some (by exact hflush)
      rw [hcons, lastNames_append, hnames, lastNames, List.filter_cons_of_pos hlast,
        List.filter_nil, List.map_singleton, hname]
      rfl

theorem fresh_vodAccumulators (cfg : VodConfig) : ∀ acc ∈ cfg.accumulators,
    Fresh acc ∧ acc.targetDurationSecs = (cfg.keyframeIntervalSecs : ℚ) * 3 := by
  intro acc hacc
  obtain ⟨r, -, rfl⟩ := List.mem_map.mp hacc
  exact ⟨⟨SegmentAccumulator.new_holds .., rfl⟩, rfl⟩

theorem mem_packetsOf_framesOf {chunks : List Bytes} {packet : EncodedPacket}
    (h : packet ∈ packetsOf (cfg.framesOf chunks)) :
    packet.isAudio = false ∧ packet.data ∈ chunks := by
  obtain ⟨frame, hframe, rfl⟩ := List.mem_map.mp h
  obtain ⟨i, hi, rfl⟩ := List.mem_mapIdx.mp hframe
  exact ⟨rfl, List.getElem_mem hi⟩

/-- The open tail of a file has video as soon as there is a piece in it. -/
theorem videoBytes_openTail_eq_nil_iff {chunks : List Bytes} (hchunks : ∀ c ∈ chunks, IsChunk c)
    (target : ℚ) :
    videoBytes (openTail target (packetsOf (cfg.framesOf chunks))) = [] ↔
      openTail target (packetsOf (cfg.framesOf chunks)) = [] := by
  refine ⟨fun hempty => ?_, fun hnil => by rw [hnil]; rfl⟩
  by_contra hne
  obtain ⟨packet, hpacket⟩ := List.exists_mem_of_ne_nil _ hne
  have hall := flatten_cutFrom (closesSegment target) [] (packetsOf (cfg.framesOf chunks))
  have hmem : packet ∈ packetsOf (cfg.framesOf chunks) := by
    rw [← List.nil_append (packetsOf (cfg.framesOf chunks)), ← hall]
    exact List.mem_append_right _ hpacket
  obtain ⟨hvideo, hdata⟩ := mem_packetsOf_framesOf hmem
  exact videoBytes_ne_nil_iff.mpr ⟨packet, hpacket, hvideo, (hchunks _ hdata).1⟩ hempty

theorem length_le_flatten {chunks : List Bytes} (hchunks : ∀ c ∈ chunks, IsChunk c) :
    chunks.length ≤ chunks.flatten.length := by
  induction chunks with
  | nil => exact Nat.le_refl 0
  | cons chunk chunks ih =>
    obtain ⟨hchunk, hrest⟩ := List.forall_mem_cons.mp hchunks
    have hpos := List.length_pos_iff.mpr hchunk.1
    have hle := ih hrest
    rw [List.flatten_cons, List.length_append, List.length_cons]
    omega

/-- Only an error of the pipeline is reported. -/
theorem error_of_reported (hrun : run (vodStep cfg) (.start m) as = some s)
    (hreported : s.reported = true) : ∃ e, s.transcode = .returned (.error e) := by
  refine run_invariant (I := fun s => s.reported = true →
    ∃ e, s.transcode = .returned (.error e)) ?_ (fun hstart => by cases hstart) hrun hreported
  intro s a s' h hstep
  cases vodStep_outcome hstep with
  | refused => exact fun _ => ⟨_, rfl⟩
  | reported htranscode => exact fun _ => ⟨_, htranscode⟩
  | launched hstarting =>
    intro hreported
    obtain ⟨e, hreturned⟩ := h hreported
    rw [hstarting] at hreturned
    cases hreturned
  | flushed hdecoding =>
    intro hreported
    obtain ⟨e, hreturned⟩ := h hreported
    rw [hdecoding] at hreturned
    cases hreturned
  | decoded hdecoding =>
    intro hreported
    have hsame : s.reported = true := by
      simp only [VodTasks.decode] at hreported
      split at hreported
      · exact hreported
      · split at hreported <;> exact hreported
    obtain ⟨e, hreturned⟩ := h hsame
    rw [hdecoding] at hreturned
    cases hreturned
  | _ => exact h

/-- As many names as there are renditions, if no two renditions share an id. -/
theorem length_dedup_names (cfg : VodConfig) :
    cfg.renditions.length ≤ (cfg.ids.map RenditionId.asStr).dedup.length ↔ cfg.ids.Nodup := by
  have hlen : cfg.renditions.length = (cfg.ids.map RenditionId.asStr).length := by
    rw [List.length_map, VodConfig.ids, List.length_map]
  rw [hlen, ← List.nodup_map_iff (fun _ _ h => RenditionId.asStr_injective h)]
  constructor
  · intro hle
    exact List.dedup_eq_self.mp ((List.dedup_sublist _).eq_of_length_le hle)
  · intro hnodup
    rw [List.dedup_eq_self.mpr hnodup]

/-- An error reaches the record if there is no ladder or the temp file is at fault, and in no other
case. -/
theorem errors_of_settled {out : List EncodedSegment} {handled : List PipelineEvent}
    {final : StreamEntry} (hrun : run (vodStep cfg) (.start m) as = some s)
    (hstaged : Staged cfg as s out) (hrecorded : Recorded cfg s out handled final)
    (hsettled : s.Settled) :
    (∃ error, .streamError cfg.streamId error ∈ handled) ↔
      cfg.ladder = [] ∨ as.any (·.isFault) = true := by
  have hladder : cfg.renditions = [] ↔ cfg.ladder = [] := selectRenditions_eq_nil_iff _ _ _
  have herrors := hrecorded.errors
  rw [hsettled.events, List.append_nil] at herrors
  rw [herrors]
  obtain ⟨chunks, -, -, htranscoded, -⟩ := hstaged.stages
  by_cases hnone : cfg.renditions = []
  · -- The pipeline has nothing to do, and says so.
    refine iff_of_true (.inr ?_) (.inl (hladder.mp hnone))
    rcases hsettled.transcode with hok | ⟨e, -, hreported⟩
    · rw [hok] at htranscoded
      cases htranscoded with
      | produced hsome => exact absurd hnone hsome
      | refused _ hfailing =>
        rcases hfailing with hstarting | ⟨e, hreturned⟩
        · cases hstarting
        · cases hreturned
    · exact hreported
  · have hunreported : ¬ s.reported = true := by
      intro hreported
      obtain ⟨e, hreturned⟩ := error_of_reported hrun hreported
      rw [hreturned] at htranscoded
      cases htranscoded with
      | produced _ hproduced => cases hproduced
      | refused hnil => exact hnone hnil
    have hfaults := hstaged.faults hnone
    rw [or_iff_left hunreported, or_iff_right (mt hladder.mpr hnone), ← hfaults]
    rcases hsettled.feeder with hdone | haborted
    · rw [hdone]
      simp [Feeder.hasFailed]
    · rw [haborted]
      simp [Feeder.hasFailed]

/-- A file that is fed in full has been cut into pieces, and the pipeline has sent what it makes
of them. -/
theorem sent_of_settled {out : List EncodedSegment} (hstaged : Staged cfg as s out)
    (hsettled : s.Settled) (hsome : cfg.renditions ≠ []) (hdone : s.feeder = .done) :
    ∃ chunks, (∀ chunk ∈ chunks, IsChunk chunk) ∧ chunks.flatten = cfg.file ∧
      chunks.length = as.countP (·.isFrame) ∧
        out = sentBy cfg.accumulators (cfg.framesOf chunks) := by
  obtain ⟨chunks, hchunks, hfed, htranscoded, hcount⟩ := hstaged.stages
  rw [hdone] at hfed
  refine ⟨chunks, hchunks, ?_, hcount hsome, ?_⟩
  · cases hfed with
    | done hfile => exact hfile
  · cases htranscoded with
    | refused hnone => exact absurd hnone hsome
    | produced _ hproduced =>
      rcases hsettled.transcode with hok | ⟨e, herror, -⟩
      · rw [hok] at hproduced
        cases hproduced with
        | flushed => rfl
      · rw [herror] at hproduced
        cases hproduced

/-- When all tasks are done the packager has written what one run over the segments writes. -/
theorem Staged.exists_input {out : List EncodedSegment} (hstaged : Staged cfg as s out)
    (hsettled : s.Settled) : ∃ input, input.map Prod.fst = out ∧
      s.packager.writes = packagerTrace cfg.packagerEnv input := by
  have hpackaged := hstaged.packaged
  rw [hsettled.packaging] at hpackaged
  cases hpackaged with
  | ended hsegments hinput hwrites => exact ⟨_, hinput, hwrites⟩

/-- The open tail of the file is empty exactly if it ends right behind a cut. -/
theorem openTail_framesOf_eq_nil_iff {chunks : List Bytes} (hsize : cfg.file.length ≤ 2 ^ 50)
    (hchunks : ∀ chunk ∈ chunks, IsChunk chunk) (hfile : chunks.flatten = cfg.file) :
    videoBytes (openTail ((cfg.keyframeIntervalSecs : ℚ) * 3) (packetsOf (cfg.framesOf chunks))) =
        [] ↔ ∃ j, chunks.length = cutStart cfg.keyframeIntervalSecs j := by
  have hlen : (packetsOf (cfg.framesOf chunks)).length ≤ 2 ^ 50 := by
    rw [length_packetsOf_framesOf]
    exact (length_le_flatten hchunks).trans (hfile ▸ hsize)
  rw [videoBytes_openTail_eq_nil_iff hchunks,
    openTail_eq_nil_iff (steady_framesOf cfg chunks) hlen, length_packetsOf_framesOf]

/-- The file that is fed in full ends its renditions, unless it ends right behind a cut. -/
theorem lastNames_of_settled {out : List EncodedSegment} (hsize : cfg.file.length ≤ 2 ^ 50)
    (hstaged : Staged cfg as s out) (hsettled : s.Settled) (hsome : cfg.renditions ≠ [])
    (hdone : s.feeder = .done) :
    ((∀ j, as.countP (·.isFrame) ≠ cutStart cfg.keyframeIntervalSecs j) →
        lastNames out = cfg.ids.map RenditionId.asStr) ∧
      ((∃ j, as.countP (·.isFrame) = cutStart cfg.keyframeIntervalSecs j) →
        lastNames out = []) := by
  obtain ⟨chunks, hchunks, hfile, hcount, rfl⟩ := sent_of_settled hstaged hsettled hsome hdone
  have htail := openTail_framesOf_eq_nil_iff hsize hchunks hfile
  rw [hcount] at htail
  have hnames : cfg.accumulators.map (fun acc => acc.rendition.asStr) =
      cfg.ids.map RenditionId.asStr := by
    rw [VodConfig.accumulators, VodConfig.ids, List.map_map, List.map_map]
    rfl
  rw [lastNames_sentBy (fresh_vodAccumulators cfg), hnames]
  refine ⟨fun hno => if_neg fun hempty => ?_, fun hcut => if_pos (htail.mpr hcut)⟩
  obtain ⟨j, hj⟩ := htail.mp hempty
  exact hno j hj

/-- The feeder of a file that meets no fault is done when all tasks are. -/
theorem done_of_settled {out : List EncodedSegment} (hstaged : Staged cfg as s out)
    (hsettled : s.Settled) (hsome : cfg.renditions ≠ []) (hfaults : as.any (·.isFault) = false) :
    s.feeder = .done := by
  refine hsettled.feeder.resolve_right fun haborted => ?_
  have hfailed := hstaged.faults hsome
  rw [haborted, hfaults] at hfailed
  cases hfailed

/-- The file goes wrong: there is no ladder, or the temp file cannot be opened or read. -/
def VodConfig.Fails (cfg : VodConfig) (as : List VodAction) : Prop :=
  cfg.ladder = [] ∨ as.any (·.isFault) = true

/-- The file completes its renditions: they have different ids, and it does not end right behind a
cut. -/
def VodConfig.Completes (cfg : VodConfig) (as : List VodAction) : Prop :=
  cfg.ids.Nodup ∧ ∀ j, as.countP (·.isFrame) ≠ cutStart cfg.keyframeIntervalSecs j

/-- The three ways in which an uploaded file ends. -/
theorem settled_cases (hsize : cfg.file.length ≤ 2 ^ 50)
    (hentry : m.streams.lookup cfg.streamId = some entry) (hawaiting : Awaiting entry)
    (hrun : run (vodStep cfg) (.start m) as = some s) (hsettled : s.Settled) :
    ∃ final, s.manager.streams.lookup cfg.streamId = some final ∧
      ((cfg.Fails as ∧ final.state = .error) ∨
        (¬ cfg.Fails as ∧ cfg.Completes as ∧ final.state = .ready) ∨
          (¬ cfg.Fails as ∧ ¬ cfg.Completes as ∧ final.state = .processing)) := by
  obtain ⟨out, handled, final, hstaged, hrecorded⟩ := recorded_of_run hentry hawaiting hrun
  have herror := errors_of_settled hrun hstaged hrecorded hsettled
  refine ⟨final, hrecorded.record, ?_⟩
  by_cases hfail : cfg.Fails as
  · obtain ⟨error, hmem⟩ := herror.mpr hfail
    exact .inl ⟨hfail, hrecorded.kept.failed error hmem⟩
  refine .inr ?_
  have hsome : cfg.renditions ≠ [] := fun hnone =>
    hfail (.inl ((selectRenditions_eq_nil_iff _ _ _).mp hnone))
  have hdone : s.feeder = .done :=
    done_of_settled hstaged hsettled hsome (Bool.eq_false_iff.mpr fun h => hfail (.inr h))
  have hok : s.transcode = .returned (.ok ()) := by
    refine hsettled.transcode.resolve_right fun hreturned => ?_
    obtain ⟨e, -, hreported⟩ := hreturned
    have herrors := hrecorded.errors.mpr (.inr hreported)
    rw [hsettled.events, List.append_nil] at herrors
    exact hfail (herror.mp herrors)
  have hpackaged := hstaged.packaged
  rw [hsettled.packaging] at hpackaged
  have hnames : completedNames handled = lastNames out := by
    have hcompleted := hrecorded.completed
    cases hpackaged with
    | ended hsegments =>
      rw [hsettled.events, hsegments, List.append_nil] at hcompleted
      exact (List.append_nil _).symm.trans hcompleted
  have hstate := hrecorded.kept.going fun error hmem => hfail (herror.mp ⟨error, hmem⟩)
  have hexpecting : cfg.expecting s.transcode = some cfg.renditions.length := by rw [hok]; rfl
  obtain ⟨hlast, hcut⟩ := lastNames_of_settled hsize hstaged hsettled hsome hdone
  rw [hnames, hexpecting] at hstate
  by_cases hcomplete : cfg.Completes as
  · refine .inl ⟨hfail, hcomplete, ?_⟩
    rw [hstate, hlast hcomplete.2, allComplete,
      if_pos (decide_eq_true ((length_dedup_names cfg).mpr hcomplete.1))]
  · refine .inr ⟨hfail, hcomplete, ?_⟩
    rw [hstate, allComplete, if_neg]
    rw [decide_eq_true_eq]
    intro hle
    -- Some renditions are complete, so the file does not end behind a cut.
    by_cases hno : ∀ j, as.countP (·.isFrame) ≠ cutStart cfg.keyframeIntervalSecs j
    · rw [hlast hno] at hle
      exact hcomplete ⟨(length_dedup_names cfg).mp hle, hno⟩
    · push Not at hno
      rw [hcut hno, List.dedup_nil, List.length_nil] at hle
      exact hsome (List.length_eq_zero_iff.mp (Nat.le_zero.mp hle))

end End

/-- **What becomes of an uploaded file.** When all its tasks are done, whatever their
interleaving: its record is in ERROR if the ladder is empty or the temp file could not be opened
or read; otherwise it is READY if the selected renditions have different ids and the file does not
end right behind a cut, and in PROCESSING, for good, if not. -/
theorem vod_settles (cfg : VodConfig) (m : StreamStateManager) (entry : StreamEntry)
    (as : List VodAction) (s : VodTasks) (hsize : cfg.file.length ≤ 2 ^ 50)
    (hentry : m.streams.lookup cfg.streamId = some entry) (hawaiting : Awaiting entry)
    (hrun : run (vodStep cfg) (.start m) as = some s) (hsettled : s.Settled) :
    ∃ final, s.manager.streams.lookup cfg.streamId = some final ∧
      (final.state = .error ↔ cfg.Fails as) ∧
      (final.state = .ready ↔ ¬ cfg.Fails as ∧ cfg.Completes as) ∧
      (final.state = .processing ↔ ¬ cfg.Fails as ∧ ¬ cfg.Completes as) ∧
      ∀ a, vodStep cfg s a = none := by
  obtain ⟨final, hfinal, hcases⟩ := settled_cases hsize hentry hawaiting hrun hsettled
  refine ⟨final, hfinal, ?_⟩
  rcases hcases with ⟨hfail, hstate⟩ | ⟨hfail, hcomplete, hstate⟩ | ⟨hfail, hcomplete, hstate⟩
  · simp [hstate, hfail, hsettled.step_eq_none]
  · simp [hstate, hfail, hcomplete, hsettled.step_eq_none]
  · simp [hstate, hfail, hcomplete, hsettled.step_eq_none]

/-- A feeder that is done meets no faults and sends no frames. -/
theorem idle_of_done {cfg : VodConfig} {s t : VodTasks} {more : List VodAction}
    (hdone : s.feeder = .done) (hmore : run (vodStep cfg) s more = some t) :
    more.any (·.isFault) = false ∧ more.countP (·.isFrame) = 0 := by
  obtain ⟨-, hidle⟩ := done_of_run hdone hmore
  rw [List.any_eq_false, List.countP_eq_zero]
  constructor
  · intro a hmem
    obtain ⟨hopen, hread⟩ := hidle a hmem
    cases a with
    | openFile fault => exact absurd rfl (hopen fault)
    | read result => exact absurd rfl (hread result)
    | _ => exact Bool.false_ne_true
  · intro a hmem
    cases a with
    | read result => exact absurd rfl ((hidle _ hmem).2 result)
    | _ => exact Bool.false_ne_true

/-- A file that is read at once completes its renditions, if they have different ids and keyframes
are at least a second apart. -/
theorem exists_settled_fedAtOnce {cfg : VodConfig} (hfile : cfg.file ≠ [])
    (hshort : cfg.file.length ≤ readBufferLen) (hsome : cfg.renditions ≠ [])
    (hids : cfg.ids.Nodup) (hinterval : 0 < cfg.keyframeIntervalSecs) (m : StreamStateManager) :
    ∃ as s, run (vodStep cfg) (.start m) as = some s ∧ s.Settled ∧ ¬ cfg.Fails as ∧
      cfg.Completes as := by
  obtain ⟨s, hrun, hdone⟩ := run_fedAtOnce hfile hshort hsome m
  obtain ⟨more, t, hmore, hsettled⟩ := exists_settled hrun
  obtain ⟨hfaults, hframes⟩ := idle_of_done hdone hmore
  have hladder : cfg.ladder ≠ [] := mt (selectRenditions_eq_nil_iff _ _ _).mpr hsome
  have hlen : cfg.file.length ≠ 0 := fun hzero => hfile (List.length_eq_zero_iff.mp hzero)
  refine ⟨fedAtOnce cfg ++ more, t, (run_append hrun more).trans hmore, hsettled, fun hfails => ?_,
    hids, fun j => ?_⟩
  · rw [VodConfig.Fails, List.any_append, hfaults] at hfails
    exact hfails.elim hladder Bool.false_ne_true
  · have hone : (fedAtOnce cfg).countP (·.isFrame) = 1 := by
      simp [fedAtOnce, VodAction.isFrame, hlen]
    rw [List.countP_append, hframes, hone]
    -- The first cut is behind the first second at least.
    cases j with
    | zero => exact Nat.one_ne_zero
    | succ j =>
      have hcut : cutStart cfg.keyframeIntervalSecs 1 ≤ cutStart cfg.keyframeIntervalSecs (j + 1) :=
        (cutStart_strictMono _).monotone (Nat.le_add_left 1 j)
      have hfirst : 1 < cutStart cfg.keyframeIntervalSecs 1 := by
        simp only [cutStart, keyframeEvery]
        omega
      exact (lt_of_lt_of_le hfirst hcut).ne

/-- The record of an upload, in PROCESSING. -/
def uploaded : StreamEntry := ⟨.processing, .new ⟨7⟩ .vod ⟨0⟩, none, ∅, none⟩

/-- The file of one byte becomes READY. -/
theorem vod_settles_oneByte :
    ∃ as s final,
      run (vodStep oneByte) (.start (.setEntry .new ⟨7⟩ uploaded .pending)) as = some s ∧
      s.manager.streams.lookup ⟨7⟩ = some final ∧ final.state = .ready := by
  obtain ⟨as, s, hrun, hsettled, hends⟩ := @exists_settled_fedAtOnce oneByte
    (List.cons_ne_nil _ _) (by decide) (by decide) (by decide) (by decide)
    (.setEntry .new ⟨7⟩ uploaded .pending)
  obtain ⟨final, hfinal, -, hready, -⟩ := vod_settles oneByte _ uploaded as s (by decide)
    (AList.lookup_insert _) ⟨rfl, rfl, rfl⟩ hrun hsettled
  exact ⟨as, s, final, hrun, hfinal, hready.mpr hends⟩

end StreamInfa.Ingest
