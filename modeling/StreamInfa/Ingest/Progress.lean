import StreamInfa.Control.Sound
import StreamInfa.Ingest.LiveStream
import StreamInfa.Package.Sent

/-!
The progress of renditions (`update_rendition_progress` of `src/control/state.rs`).

The status of a rendition counts its segments by the sequence number of the last one, and the
accumulator numbers segments from zero. Whatever the pipeline sends, a segment's number is below
the number of its rendition's segments so far (`counted_sent`). **`progress_counts_iff`**: the
recorded counts are right exactly in runs that package nothing.
-/

namespace StreamInfa.Ingest

open Control Transcode Package

/-! ### What the pipeline sends -/

/-- The main loop of `run_live` over an open channel: the accumulators after the frames, and
the segments sent. -/
def decodeFrames : List SegmentAccumulator → List DemuxedFrame →
    List SegmentAccumulator × List EncodedSegment
  | accs, [] => (accs, [])
  | accs, frame :: frames =>
    let (accs, segments, _) := processFrame false accs frame
    let (accs, more) := decodeFrames accs frames
    (accs, segments ++ more)

/-- All that `run_live` sends for the frames: the segments of the loop, then those of the
flush. -/
def LiveConfig.sent (cfg : LiveConfig) (frames : List DemuxedFrame) : List EncodedSegment :=
  let (accs, segments) := decodeFrames cfg.accumulators frames
  segments ++ accs.filterMap fun acc => acc.flush

/-- The number of a rendition's segments. -/
def countOf (r : RenditionId) (segments : List EncodedSegment) : ℕ :=
  segments.countP fun segment => segment.rendition = r

theorem countOf_append (r : RenditionId) (xs ys : List EncodedSegment) :
    countOf r (xs ++ ys) = countOf r xs + countOf r ys := List.countP_append

theorem countOf_singleton (segment : EncodedSegment) : countOf segment.rendition [segment] = 1 :=
  List.countP_eq_length.mpr fun _ h => decide_eq_true (congrArg _ (List.mem_singleton.mp h))

/-- Every segment is numbered at most by the segments of its rendition in front of it. -/
def Counted (segments : List EncodedSegment) : Prop :=
  ∀ before segment later, segments = before ++ segment :: later →
    segment.sequence ≤ countOf segment.rendition before

section Counted

variable {segments : List EncodedSegment} {segment : EncodedSegment}

theorem Counted.of_front {front : List EncodedSegment} (h : Counted segments)
    (hfront : front <+: segments) : Counted front := by
  rintro before segment later rfl
  obtain ⟨rest, rfl⟩ := hfront
  exact h before segment (later ++ rest) (by rw [List.append_assoc, List.cons_append])

theorem Counted.concat (h : Counted segments)
    (hsegment : segment.sequence ≤ countOf segment.rendition segments) :
    Counted (segments ++ [segment]) := by
  intro before other later heq
  rcases List.eq_nil_or_concat later with rfl | ⟨later, last, rfl⟩
  · obtain ⟨rfl, hlast⟩ := List.append_inj' heq rfl
    obtain rfl := (List.cons.inj hlast).1
    exact hsegment
  · rw [List.concat_eq_append, ← List.cons_append, ← List.append_assoc] at heq
    obtain ⟨rfl, -⟩ := List.append_inj' heq rfl
    exact h before other later rfl

/-- The accumulators number on from what was sent of their renditions. -/
def NumberedFrom (segments : List EncodedSegment) (accs : List SegmentAccumulator) : Prop :=
  ∀ acc ∈ accs, acc.nextSequence ≤ countOf acc.rendition segments

theorem NumberedFrom.mono {accs : List SegmentAccumulator} (h : NumberedFrom segments accs)
    (more : List EncodedSegment) : NumberedFrom (segments ++ more) accs := by
  intro acc hacc
  rw [countOf_append]
  exact (h acc hacc).trans (Nat.le_add_right _ _)

end Counted


/-- A packet behind what was sent: what is sent for it is counted, and the accumulators number
on. -/
theorem counted_fanOut {sent : List EncodedSegment} (hsent : Counted sent) (packet : EncodedPacket)
    {accs : List SegmentAccumulator} (haccs : NumberedFrom sent accs) :
    Counted (sent ++ (fanOut false packet accs).2.1) ∧
      NumberedFrom (sent ++ (fanOut false packet accs).2.1) (fanOut false packet accs).1 := by
  induction accs generalizing sent with
  | nil =>
    rw [fanOut, List.append_nil]
    refine ⟨hsent, fun acc hacc => ?_⟩
    cases hacc
  | cons acc accs ih =>
    obtain ⟨hacc, haccs⟩ := List.forall_mem_cons.mp haccs
    obtain ⟨hrendition, houtcome⟩ := push_outcome acc packet
    rcases hpush : acc.push packet with ⟨_ | segment, acc'⟩
    · simp only [hpush] at hrendition houtcome
      rcases houtcome with ⟨-, hnext⟩ | ⟨segment, hsome, -⟩
      · obtain ⟨hcounted, hnumbered⟩ := ih hsent haccs
        simp only [fanOut, hpush]
        refine ⟨hcounted, List.forall_mem_cons.mpr ⟨?_, hnumbered⟩⟩
        rw [hrendition, hnext, countOf_append]
        exact hacc.trans (Nat.le_add_right _ _)
      · cases hsome
    · simp only [hpush] at hrendition houtcome
      rcases houtcome with ⟨hnone, -⟩ | ⟨segment', hsome, hown, hsequence, hnext⟩
      · cases hnone
      · obtain rfl := Option.some.inj hsome
        have hone : Counted (sent ++ [segment]) :=
          hsent.concat (by rw [hown, hsequence]; exact hacc)
        obtain ⟨hcounted, hnumbered⟩ := ih hone (NumberedFrom.mono haccs [segment])
        rw [List.append_assoc, List.singleton_append] at hcounted hnumbered
        simp only [fanOut, hpush, Bool.false_eq_true, if_false]
        refine ⟨hcounted, List.forall_mem_cons.mpr ⟨?_, hnumbered⟩⟩
        rw [hrendition, hnext, ← List.singleton_append, countOf_append, countOf_append, ← hown,
          countOf_singleton, hown]
        omega

theorem counted_processFrame {sent : List EncodedSegment} (hsent : Counted sent)
    {accs : List SegmentAccumulator} (haccs : NumberedFrom sent accs) (frame : DemuxedFrame) :
    Counted (sent ++ (processFrame false accs frame).2.1) ∧
      NumberedFrom (sent ++ (processFrame false accs frame).2.1)
        (processFrame false accs frame).1 := by
  refine counted_fanOut hsent (.ofFrame frame) fun acc hacc => ?_
  obtain ⟨before, hbefore, rfl⟩ := List.mem_map.mp hacc
  obtain ⟨hrendition, hnext⟩ := takeAudioParams_outcome frame before
  rw [hrendition, hnext]
  exact haccs before hbefore

theorem counted_decodeFrames {sent : List EncodedSegment} (hsent : Counted sent)
    {accs : List SegmentAccumulator} (haccs : NumberedFrom sent accs)
    (frames : List DemuxedFrame) :
    Counted (sent ++ (decodeFrames accs frames).2) ∧
      NumberedFrom (sent ++ (decodeFrames accs frames).2) (decodeFrames accs frames).1 := by
  induction frames generalizing sent accs with
  | nil =>
    rw [decodeFrames, List.append_nil]
    exact ⟨hsent, haccs⟩
  | cons frame frames ih =>
    obtain ⟨hcounted, hnumbered⟩ := counted_processFrame hsent haccs frame
    have hrest := ih hcounted hnumbered
    rwa [List.append_assoc] at hrest

theorem counted_flush {sent : List EncodedSegment} (hsent : Counted sent)
    {accs : List SegmentAccumulator} (haccs : NumberedFrom sent accs) :
    Counted (sent ++ accs.filterMap fun acc => acc.flush) := by
  induction accs generalizing sent with
  | nil => rwa [List.filterMap_nil, List.append_nil]
  | cons acc accs ih =>
    obtain ⟨hacc, haccs⟩ := List.forall_mem_cons.mp haccs
    cases hflush : acc.flush with
    | none =>
      rw [List.filterMap_cons_none hflush]
      exact ih hsent haccs
    | some segment =>
      obtain ⟨hown, hsequence⟩ := flush_outcome hflush
      have hone : Counted (sent ++ [segment]) :=
        hsent.concat (by rw [hown, hsequence]; exact hacc)
      have hrest := ih hone (NumberedFrom.mono haccs [segment])
      rwa [List.append_assoc, List.singleton_append, ← List.filterMap_cons_some hflush] at hrest

/-- Whatever a pipeline sends is counted. -/
theorem counted_sent (cfg : LiveConfig) (frames : List DemuxedFrame) :
    Counted (cfg.sent frames) := by
  have hnil : Counted [] := by
    intro before segment later heq
    cases before <;> cases heq
  have hstart : NumberedFrom [] cfg.accumulators := by
    intro acc hacc
    obtain ⟨r, -, rfl⟩ := List.mem_map.mp hacc
    exact Nat.zero_le _
  obtain ⟨hcounted, hnumbered⟩ := counted_decodeFrames hnil hstart frames
  exact counted_flush hcounted hnumbered

/-! ### The events of a run -/

/-- What a turn, or a part of one, emits if the loop goes on. -/
def Emits (events : List PipelineEvent) (p : Packager) : Except Packager Packager → Prop
  | .ok p' => p'.events = p.events ++ events
  | .error p' => p'.events = p.events

section Emits

variable {env : PackagerEnv} {p p' : Packager}

theorem events_send {w : StorageWrite} (h : p.send w = some p') : p'.events = p.events := by
  unfold Packager.send at h
  split at h
  · exact Option.some.inj h ▸ rfl
  · cases h
  · exact Option.some.inj h ▸ rfl

theorem events_writeMasterPlaylist (env : PackagerEnv) (p : Packager) :
    ((writeMasterPlaylist env p).getD p).events = p.events := by
  unfold writeMasterPlaylist
  cases hsend : p.send (masterWrite env p.renditionInfos) with
  | none => rfl
  | some p' => exact events_send hsend

theorem events_registerRendition (segment : EncodedSegment) :
    (registerRendition env p segment).events = p.events := by
  simp only [registerRendition]
  split
  · exact events_writeMasterPlaylist env _
  · rfl

theorem emits_writeInitSegment (segment : EncodedSegment) :
    Emits [] p (writeInitSegment env p segment) := by
  unfold writeInitSegment
  rw [generateInitSegment_eq]
  dsimp only
  split
  · rfl
  · rename_i p₁ hsend
    exact (events_send hsend).trans (List.append_nil _).symm

theorem emits_writeMediaSegment (segment : EncodedSegment) (now : DateTime) :
    Emits (segmentEvents env segment) p (writeMediaSegment env p segment now) := by
  unfold writeMediaSegment
  rw [generateMediaSegment_eq]
  dsimp only
  split
  · rfl
  · rename_i p₁ hsend
    have hfirst := events_send hsend
    split
    · exact hfirst
    · rename_i p₂ hsend₂
      have hsecond := events_send hsend₂
      exact congrArg (· ++ segmentEvents env segment) (hsecond.trans hfirst)

/-- A turn that does not end the loop emits the events of its segment. -/
theorem emits_handleSegment (env : PackagerEnv) (p : Packager) (segment : EncodedSegment)
    (now : DateTime) : Emits (segmentEvents env segment) p (handleSegment env p segment now) := by
  unfold handleSegment
  dsimp only
  split
  · exact emits_writeMediaSegment segment now
  · have hinit := @emits_writeInitSegment env
      { p with indexes := p.indexes.insert segment.rendition (indexFor env p segment.rendition) }
      segment
    cases hopened : writeInitSegment env
      { p with indexes := p.indexes.insert segment.rendition (indexFor env p segment.rendition) }
      segment with
    | error p₁ =>
      rw [hopened] at hinit
      exact hinit
    | ok p₁ =>
      rw [hopened] at hinit
      have hregistered : (registerRendition env p₁ segment).events = p.events :=
        (events_registerRendition segment).trans (hinit.trans (List.append_nil _))
      have hmedia := @emits_writeMediaSegment env (registerRendition env p₁ segment) segment now
      show Emits (segmentEvents env segment) p
        (writeMediaSegment env (registerRendition env p₁ segment) segment now)
      generalize writeMediaSegment env (registerRendition env p₁ segment) segment now = result
        at hmedia ⊢
      cases result with
      | ok p₂ => exact hmedia.trans (by rw [hregistered])
      | error p₂ => exact hmedia.trans hregistered

/-- The loop emits the events of the segments in front of the one that ends it. -/
theorem events_packagerLoop (env : PackagerEnv) (p : Packager)
    (input : List (EncodedSegment × DateTime)) :
    ∃ front, front <+: input.map (·.1) ∧
      (packagerLoop env p input).events = p.events ++ front.flatMap (segmentEvents env) := by
  induction input generalizing p with
  | nil => exact ⟨[], List.nil_prefix, (List.append_nil _).symm⟩
  | cons x input ih =>
    obtain ⟨segment, now⟩ := x
    have hturn := emits_handleSegment env p segment now
    rw [packagerLoop]
    cases hresult : handleSegment env p segment now with
    | error p₁ =>
      rw [hresult] at hturn
      exact ⟨[], List.nil_prefix, hturn.trans (List.append_nil _).symm⟩
    | ok p₁ =>
      rw [hresult] at hturn
      obtain ⟨front, hfront, hevents⟩ := ih p₁
      refine ⟨segment :: front, List.cons_prefix_cons.mpr ⟨rfl, hfront⟩, ?_⟩
      show (packagerLoop env p₁ input).events = _
      rw [hevents, show p₁.events = p.events ++ segmentEvents env segment from hturn,
        List.flatMap_cons, List.append_assoc]

theorem events_runPackager (env : PackagerEnv) (room : Option ℕ)
    (input : List (EncodedSegment × DateTime)) :
    (runPackager env room input).events = (packagerLoop env (.start room) input).events := by
  unfold runPackager
  dsimp only
  split
  · rfl
  · exact events_writeMasterPlaylist env _

/-- Over an open channel a run announces every segment. -/
theorem events_open (env : PackagerEnv) (input : List (EncodedSegment × DateTime)) :
    (runPackager env none input).events = (input.map (·.1)).flatMap (segmentEvents env) := by
  have hloop : ∀ p : Packager, p.Open → (packagerLoop env p input).events =
      p.events ++ (input.map (·.1)).flatMap (segmentEvents env) := by
    induction input with
    | nil => exact fun p _ => (List.append_nil _).symm
    | cons x input ih =>
      intro p hopen
      obtain ⟨segment, now⟩ := x
      obtain ⟨p', hturn, hopen', -, hevents, -⟩ := handleSegment_open env segment now hopen
      rw [packagerLoop, hturn, List.map_cons, List.flatMap_cons, ← List.append_assoc, ← hevents]
      exact ih p' hopen'
  rw [events_runPackager, hloop _ Packager.open_start]
  rfl

end Emits

/-! ### The first segment -/

section Room

variable {env : PackagerEnv} {p : Packager}

theorem send_eq (p : Packager) (w : StorageWrite) :
    p.send w = if p.room = some 0 then none else
      some { p with room := p.room.map (· - 1), writes := p.writes ++ [w] } := by
  unfold Packager.send
  split
  · rename_i hroom
    rw [hroom]
    rfl
  · rename_i hroom
    rw [if_pos hroom]
  · rename_i room hroom
    rw [hroom]
    rfl

/-- A segment and its playlist are two writes. -/
theorem writeMediaSegment_ok_iff (segment : EncodedSegment) (now : DateTime) :
    (∃ p', writeMediaSegment env p segment now = .ok p') ↔ ∀ n, p.room = some n → 2 ≤ n := by
  unfold writeMediaSegment
  rw [generateMediaSegment_eq]
  simp only [send_eq]
  split
  · rename_i hsend
    refine iff_of_false (fun ⟨p', hp'⟩ => by cases hp') fun h => ?_
    split at hsend
    · rename_i hzero
      exact absurd (h 0 hzero) (by decide)
    · cases hsend
  · rename_i p₁ hsend
    split at hsend
    · cases hsend
    · rename_i hzero
      obtain rfl := Option.some.inj hsend
      dsimp only
      split
      · rename_i hsend₂
        refine iff_of_false (fun ⟨p', hp'⟩ => by cases hp') fun h => ?_
        split at hsend₂
        · rename_i hone
          obtain ⟨n, hn, hpred⟩ := Option.map_eq_some_iff.mp hone
          have hge := h n hn
          omega
        · cases hsend₂
      · rename_i p₂ hsend₂
        refine iff_of_true ⟨_, rfl⟩ fun n hn => ?_
        split at hsend₂
        · cases hsend₂
        · rename_i hone
          rw [hn] at hzero hone
          simp only [Option.map_some, Option.some.injEq] at hzero hone
          omega

/-- A new rendition takes a write for the master playlist, if there is room. -/
theorem room_registerRendition (segment : EncodedSegment)
    (hpublished : p.lastMasterRenditionCount = p.renditionInfos.length) :
    (registerRendition env p segment).room = p.room.map (· - 1) := by
  have hnew : (p.renditionInfos ++ [renditionInfo segment]).length >
      p.lastMasterRenditionCount := by
    rw [hpublished, List.length_append, List.length_singleton]
    exact Nat.lt_succ_self _
  simp only [registerRendition, if_pos hnew, writeMasterPlaylist, send_eq]
  split
  · rename_i hzero
    rw [Option.getD_none]
    simp only [hzero, Option.map_some]
  · rfl

/-- The first segment takes four writes: the init segment, the master playlist, the segment and
the media playlist. -/
theorem first_turn_ok_iff (env : PackagerEnv) (room : Option ℕ) (segment : EncodedSegment)
    (now : DateTime) :
    (∃ p, handleSegment env (.start room) segment now = .ok p) ↔ ∀ n, room = some n → 4 ≤ n := by
  have hturn : handleSegment env (.start room) segment now =
      ((writeInitSegment env { Packager.start room with
          indexes := (Packager.start room).indexes.insert segment.rendition
            (indexFor env (.start room) segment.rendition) } segment).map fun p =>
        registerRendition env p segment).bind fun p => writeMediaSegment env p segment now := rfl
  rw [hturn, writeInitSegment, generateInitSegment_eq]
  simp only [send_eq]
  by_cases hzero : room = some 0
  · rw [if_pos (by exact hzero)]
    refine iff_of_false (fun hok => ?_) fun h => ?_
    · obtain ⟨p', hp'⟩ := hok
      cases hp'
    · exact absurd (h 0 hzero) (by decide)
  · rw [if_neg (by exact hzero)]
    refine (writeMediaSegment_ok_iff segment now).trans ?_
    rw [room_registerRendition segment rfl]
    cases room with
    | none => exact iff_of_true nofun nofun
    | some n =>
      simp only [Packager.start, Option.map_some, Option.some.injEq, forall_eq'] at hzero ⊢
      omega

end Room

/-! ### Recorded counts -/

/-- The packager's events of a stream among the steps of the handler. -/
def packagerEvent (streamId : StreamId) : ControlStep × DateTime → Option PipelineEvent
  | (.event (.segmentProduced id rendition sequence), _) =>
    if id = streamId then some (.segmentProduced id rendition sequence) else none
  | (.event (.renditionComplete id rendition), _) =>
    if id = streamId then some (.renditionComplete id rendition) else none
  | _ => none

/-- The event of a packaged segment of a rendition; each packaged segment has one. -/
def announces (name : Text) : PipelineEvent → Bool
  | .segmentProduced _ rendition _ => rendition = name
  | _ => false

/-- The number of segments of a rendition packaged when the handler has come so far. -/
def packagedCount (streamId : StreamId) (name : Text) (steps : List (ControlStep × DateTime)) : ℕ :=
  (steps.filterMap (packagerEvent streamId)).countP (announces name)

/-- After every SegmentProduced the record counts the packaged segments of each rendition. -/
def CountsSegments (streamId : StreamId) (m : StreamStateManager)
    (steps : List (ControlStep × DateTime)) : Prop :=
  ∀ before name sequence now,
    before ++ [(.event (.segmentProduced streamId name sequence), now)] <+: steps →
    ∀ entry, (runControl m (before ++
        [(.event (.segmentProduced streamId name sequence), now)])).streams.lookup streamId =
          some entry →
      ∀ rendition status, entry.renditions.lookup rendition = some status →
        status.segmentsProduced = packagedCount streamId rendition
          (before ++ [(.event (.segmentProduced streamId name sequence), now)])

section Recorded

variable {env : PackagerEnv} {segments : List EncodedSegment}

/-- The events of packaged segments announce the segments of each rendition. -/
theorem countP_announces (env : PackagerEnv) (r : RenditionId) (segments : List EncodedSegment) :
    (segments.flatMap (segmentEvents env)).countP (announces r.asStr) = countOf r segments := by
  induction segments with
  | nil => rfl
  | cons segment segments ih =>
    have hlast : (if segment.isLast then [PipelineEvent.renditionComplete env.streamId
        segment.rendition.asStr] else []).countP (announces r.asStr) = 0 := by
      split <;> rfl
    have hname : segment.rendition.asStr = r.asStr ↔ segment.rendition = r :=
      ⟨fun h => RenditionId.asStr_injective h, fun h => congrArg _ h⟩
    rw [List.flatMap_cons, List.countP_append, ih, segmentEvents, List.countP_cons, hlast,
      ← List.singleton_append, countOf_append]
    simp only [announces, countOf, List.countP_singleton, decide_eq_true_eq, hname, Nat.zero_add]

/-- The completion behind a last segment announces nothing. -/
theorem skip_completion {segment : EncodedSegment} {events before later : List PipelineEvent}
    {id : StreamId} {name : Text} {sequence : ℕ}
    (h : (if segment.isLast then [PipelineEvent.renditionComplete env.streamId
      segment.rendition.asStr] else []) ++ events =
        before ++ .segmentProduced id name sequence :: later) :
    ∃ more, before = (if segment.isLast then [PipelineEvent.renditionComplete env.streamId
      segment.rendition.asStr] else []) ++ more ∧
        events = more ++ .segmentProduced id name sequence :: later := by
  by_cases hlast : segment.isLast
  · rw [if_pos hlast] at h ⊢
    cases before with
    | nil => cases (List.cons.inj h).1
    | cons event before =>
      obtain ⟨rfl, hrest⟩ := List.cons.inj h
      exact ⟨before, rfl, hrest⟩
  · rw [if_neg hlast] at h ⊢
    exact ⟨before, rfl, h⟩

/-- An event that announces a segment splits the segments. -/
theorem split_at_produced {before later : List PipelineEvent} {id : StreamId} {name : Text}
    {sequence : ℕ} (h : segments.flatMap (segmentEvents env) =
      before ++ .segmentProduced id name sequence :: later) :
    ∃ front segment rest, segments = front ++ segment :: rest ∧
      before = front.flatMap (segmentEvents env) ∧ name = segment.rendition.asStr ∧
      sequence = segment.sequence := by
  induction segments generalizing before with
  | nil =>
    have hempty : before = [] ∧ _ := List.append_eq_nil_iff.mp h.symm
    cases hempty.2
  | cons segment segments ih =>
    rw [List.flatMap_cons, segmentEvents, List.cons_append] at h
    cases before with
    | nil =>
      have hevent := (List.cons.inj h).1
      obtain ⟨-, hname, hsequence⟩ := PipelineEvent.segmentProduced.inj hevent
      exact ⟨[], segment, segments, rfl, rfl, hname.symm, hsequence.symm⟩
    | cons event before =>
      obtain ⟨hfirst, hbehind⟩ := List.cons.inj h
      obtain ⟨more, rfl, hmore⟩ := skip_completion hbehind
      obtain ⟨front, segment', rest, rfl, rfl, hname, hsequence⟩ := ih hmore
      refine ⟨segment :: front, segment', rest, rfl, ?_, hname, hsequence⟩
      rw [List.flatMap_cons, segmentEvents, ← hfirst, List.cons_append]

end Recorded

/-! ### Counts that run behind -/

section Progress

variable {env : PackagerEnv} {room : Option ℕ} {input : List (EncodedSegment × DateTime)}

/-- A run emits events unless its first segment meets a closed channel. -/
theorem events_eq_nil_iff :
    (runPackager env room input).events = [] ↔ input = [] ∨ ∃ n, room = some n ∧ n < 4 := by
  rw [events_runPackager]
  cases input with
  | nil => exact iff_of_true rfl (Or.inl rfl)
  | cons x input =>
    obtain ⟨segment, now⟩ := x
    have hfirst := first_turn_ok_iff env room segment now
    have hturn := emits_handleSegment env (.start room) segment now
    rw [packagerLoop]
    cases hresult : handleSegment env (.start room) segment now with
    | error p =>
      rw [hresult] at hfirst hturn
      refine iff_of_true hturn (Or.inr ?_)
      by_contra hopen
      push Not at hopen
      obtain ⟨p', hp'⟩ := hfirst.mpr hopen
      cases hp'
    | ok p =>
      rw [hresult] at hfirst hturn
      obtain ⟨front, -, hevents⟩ := events_packagerLoop env p input
      refine iff_of_false (fun hnil => ?_) ?_
      · have hempty : p.events = [] := (List.append_eq_nil_iff.mp (hevents.symm.trans hnil)).1
        cases hempty.symm.trans hturn
      · rintro (hnil | ⟨n, hroom, hlt⟩)
        · cases hnil
        · exact absurd (hfirst.mp ⟨p, rfl⟩ n hroom) (Nat.not_le.mpr hlt)

variable {cfg : LiveConfig} {frames : List DemuxedFrame} {m : StreamStateManager}
  {steps before later : List (ControlStep × DateTime)} {name : Text} {sequence : ℕ} {now : DateTime}

/-- The number an event carries is below the number of segments packaged with it. -/
theorem sequence_lt_packagedCount (hinput : input.map (·.1) <+: cfg.sent frames)
    (hhandled : (before ++ (.event (.segmentProduced env.streamId name sequence), now) ::
      later).filterMap (packagerEvent env.streamId) = (runPackager env room input).events) :
    sequence < packagedCount env.streamId name
      (before ++ [(.event (.segmentProduced env.streamId name sequence), now)]) := by
  have hevent : packagerEvent env.streamId
      (.event (.segmentProduced env.streamId name sequence), now) =
        some (.segmentProduced env.streamId name sequence) := if_pos rfl
  obtain ⟨front, hfront, hevents⟩ := events_packagerLoop env (.start room) input
  rw [List.filterMap_append, List.filterMap_cons_some hevent, events_runPackager,
    hevents] at hhandled
  obtain ⟨sent, segment, rest, rfl, hbefore, rfl, rfl⟩ := split_at_produced hhandled.symm
  have hcounted : Counted (sent ++ segment :: rest) :=
    ((counted_sent cfg frames).of_front hinput).of_front hfront
  have hle := hcounted sent segment rest rfl
  rw [packagedCount, List.filterMap_append, List.filterMap_cons_some hevent, List.filterMap_nil,
    hbefore, List.countP_append, countP_announces]
  have hone : [PipelineEvent.segmentProduced env.streamId segment.rendition.asStr
      segment.sequence].countP (announces segment.rendition.asStr) = 1 := by
    rw [List.countP_singleton, announces, if_pos (decide_eq_true rfl)]
  rw [hone]
  exact Nat.lt_succ_of_le hle

/-- A SegmentProduced leaves its number in the record. -/
theorem recorded_sequence {entry : StreamEntry} {streamId : StreamId}
    (hentry : m.streams.lookup streamId = some entry)
    (before : List (ControlStep × DateTime)) (name : Text) (sequence : ℕ) (now : DateTime) :
    ∃ entry' status, (runControl m (before ++
        [(.event (.segmentProduced streamId name sequence), now)])).streams.lookup streamId =
          some entry' ∧
      entry'.renditions.lookup name = some status ∧ status.segmentsProduced = sequence := by
  have hbefore := lookup_runControl m streamId before
  rw [hentry] at hbefore
  have hstep := lookup_controlStep_self (runControl m before)
    (.event (.segmentProduced streamId name sequence)) now
  rw [show ControlStep.streamId (.event (.segmentProduced streamId name sequence)) = streamId
    from rfl, hbefore] at hstep
  rw [runControl, List.foldl_append]
  exact ⟨_, _, hstep, AList.lookup_insert _, rfl⟩

theorem packagerEvent_eq_produced {streamId id : StreamId} {step : ControlStep × DateTime}
    (h : packagerEvent streamId step = some (.segmentProduced id name sequence)) :
    step = (.event (.segmentProduced streamId name sequence), step.2) := by
  unfold packagerEvent at h
  split at h
  · split at h
    · rename_i hid
      subst hid
      cases h
      rfl
    · cases h
  · split at h <;> cases h
  · cases h

/-- A run that emits events has a SegmentProduced handled. -/
theorem exists_produced
    (hhandled : steps.filterMap (packagerEvent env.streamId) = (runPackager env room input).events)
    (hne : steps.filterMap (packagerEvent env.streamId) ≠ []) :
    ∃ before later name sequence now, steps =
      before ++ (.event (.segmentProduced env.streamId name sequence), now) :: later := by
  obtain ⟨front, -, hevents⟩ := events_packagerLoop env (.start room) input
  rw [events_runPackager, hevents] at hhandled
  cases front with
  | nil => exact absurd hhandled hne
  | cons segment front =>
    rw [List.flatMap_cons, segmentEvents, List.cons_append] at hhandled
    obtain ⟨before, step, later, rfl, -, hstep, -⟩ := List.filterMap_eq_cons_iff.mp hhandled
    exact ⟨before, later, _, _, _, by rw [← packagerEvent_eq_produced hstep]⟩

end Progress

/-- The record of a stream counts the segments packaged from what a pipeline sends exactly in
runs that package none: the input is empty, or the storage channel takes fewer than the four
writes of the first segment. -/
theorem progress_counts_iff (cfg : LiveConfig) (frames : List DemuxedFrame) (env : PackagerEnv)
    (room : Option ℕ) (input : List (EncodedSegment × DateTime)) (m : StreamStateManager)
    (steps : List (ControlStep × DateTime)) (hinput : input.map (·.1) <+: cfg.sent frames)
    (hhandled : steps.filterMap (packagerEvent env.streamId) =
      (runPackager env room input).events) :
    CountsSegments env.streamId m steps ↔
      m.streams.lookup env.streamId = none ∨ input = [] ∨ ∃ n, room = some n ∧ n < 4 := by
  rw [← @events_eq_nil_iff env, ← hhandled]
  constructor
  · intro hcounts
    cases hentry : m.streams.lookup env.streamId with
    | none => exact Or.inl rfl
    | some entry =>
      refine Or.inr ?_
      by_contra hne
      obtain ⟨before, later, name, sequence, now, rfl⟩ := exists_produced hhandled hne
      obtain ⟨entry', status, hentry', hstatus, hsequence⟩ :=
        recorded_sequence hentry before name sequence now
      have hcount := hcounts before name sequence now
        ⟨later, by rw [List.append_assoc, List.singleton_append]⟩ entry' hentry' name status hstatus
      have hlt := sequence_lt_packagedCount hinput hhandled
      omega
  · rintro hnothing before name sequence now ⟨later, rfl⟩ entry hentry
    rcases hnothing with hnone | hnil
    · rw [lookup_runControl, hnone] at hentry
      cases hentry
    · have hevent : packagerEvent env.streamId
          (.event (.segmentProduced env.streamId name sequence), now) =
            some (.segmentProduced env.streamId name sequence) := if_pos rfl
      rw [List.filterMap_append, List.filterMap_append, List.filterMap_cons_some hevent] at hnil
      have hmiddle := (List.append_eq_nil_iff.mp (List.append_eq_nil_iff.mp hnil).1).2
      cases hmiddle

/-- One rung: every frame goes to one rendition. -/
def oneRung : LiveConfig where
  streamId := ⟨1⟩
  mediaInfo := { encoderMedia with videoWidth := 640, videoHeight := 360 }
  demuxer := FlvDemuxer.new ⟨1⟩
  sourceFps := 30
  ladder := [⟨"low".toList, 640, 360, 800, 96, "main".toList, "3.0".toList, "fast".toList⟩]
  keyframeIntervalSecs := 2
  packaging := ⟨5, 7⟩

def onlyFrame : DemuxedFrame := ⟨⟨1⟩, .video .h264 640 360, 0, 0, true, [0x65]⟩

/-- The flush closes the only segment of a stream of one frame. -/
def oneSegment : List (EncodedSegment × DateTime) :=
  (oneRung.sent [onlyFrame]).map fun segment => (segment, ⟨0⟩)

/-- The events of its run, as the handler takes them. -/
def oneSegmentSteps : List (ControlStep × DateTime) :=
  [(.event (.segmentProduced ⟨1⟩ "low".toList 0), ⟨0⟩),
    (.event (.renditionComplete ⟨1⟩ "low".toList), ⟨0⟩)]

def oneStream : StreamStateManager := (StreamStateManager.new.createStream ⟨1⟩ .live ⟨0⟩).2

theorem oneSegment_sent : oneSegment.map (·.1) <+: oneRung.sent [onlyFrame] := by
  rw [oneSegment, List.map_map, Function.comp_def, List.map_id']

theorem oneSegment_handled :
    oneSegmentSteps.filterMap (packagerEvent oneRung.packagerEnv.streamId) =
      (runPackager oneRung.packagerEnv none oneSegment).events := by
  rw [events_open]
  decide +kernel

/-- One segment is packaged, and the record counts none. -/
theorem progress_runs_behind :
    oneSegment.map (·.1) <+: oneRung.sent [onlyFrame] ∧
      oneSegmentSteps.filterMap (packagerEvent ⟨1⟩) =
        (runPackager oneRung.packagerEnv none oneSegment).events ∧
      packagedCount ⟨1⟩ "low".toList (oneSegmentSteps.take 1) = 1 ∧
      ((runControl oneStream (oneSegmentSteps.take 1)).streams.lookup ⟨1⟩).map (fun entry =>
        (entry.renditions.lookup "low".toList).map (·.segmentsProduced)) = some (some 0) ∧
      ¬ CountsSegments ⟨1⟩ oneStream oneSegmentSteps := by
  refine ⟨oneSegment_sent, oneSegment_handled, by decide, by decide, fun hcounts => ?_⟩
  obtain ⟨entry, status, hentry, hstatus, hsequence⟩ :=
    recorded_sequence (m := oneStream) (AList.lookup_insert _) [] "low".toList 0 ⟨0⟩
  have hcount := hcounts [] _ _ _ ⟨_, rfl⟩ entry hentry _ status hstatus
  rw [hsequence] at hcount
  exact absurd hcount (by decide)

theorem progress_counts_iff_closed :
    CountsSegments ⟨1⟩ oneStream [] ∧ ¬ CountsSegments ⟨1⟩ oneStream oneSegmentSteps := by
  have hclosed : ∃ n, some 3 = some n ∧ n < 4 := ⟨3, rfl, by decide⟩
  have hnothing : (runPackager oneRung.packagerEnv (some 3) oneSegment).events = [] :=
    events_eq_nil_iff.mpr (Or.inr hclosed)
  constructor
  · exact (progress_counts_iff oneRung [onlyFrame] oneRung.packagerEnv (some 3) oneSegment
      oneStream [] oneSegment_sent hnothing.symm).mpr (Or.inr (Or.inr hclosed))
  · intro hcounts
    have hone : oneSegment.length = 1 := by decide +kernel
    rcases (progress_counts_iff oneRung [onlyFrame] oneRung.packagerEnv none oneSegment oneStream
      oneSegmentSteps oneSegment_sent oneSegment_handled).mp hcounts with
      hnone | hnil | ⟨n, hroom, -⟩
    · cases hnone
    · rw [hnil] at hone
      cases hone
    · cases hroom

end StreamInfa.Ingest
