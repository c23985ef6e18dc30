import Mathlib.Data.Set.Card
import StreamInfa.Control.Sound
import StreamInfa.Ingest.LiveStream
import StreamInfa.Ingest.Nalus
import StreamInfa.Package.Manifest

/-!
The names of a profile ladder (`select_renditions` of `src/transcode/profile.rs`).

A rung's name becomes one of four rendition ids, which is then the directory of the rendition's
objects and the key under which it is marked complete; every name but `high`, `medium` and
`low` becomes `source`. **`no_collision_iff`**: the renditions of a ladder with distinct names
keep apart, and the stream expects as many as can complete, exactly if at most one of the rungs
that fit the source has another name. With two of them (`two_rungs_collide`) the stream
expects two renditions and can complete only one.
-/

namespace StreamInfa.Ingest

open Control Transcode Package

/-! ### Ids -/

/-- The rung is no larger than the source. -/
def fitsSource (width height : UInt32) (r : TranscodeProfile) : Bool :=
  r.width ≤ width ∧ r.height ≤ height

/-- The rung's name is none of those with an id of their own. -/
def hasOtherName (r : TranscodeProfile) : Bool :=
  r.name ≠ "high".toList ∧ r.name ≠ "medium".toList ∧ r.name ≠ "low".toList

/-- At most one of the rungs that fit the source has another name. -/
def AtMostOneOther (width height : UInt32) (ladder : List TranscodeProfile) : Prop :=
  ((ladder.filter (fitsSource width height)).filter hasOtherName).length ≤ 1

theorem nameToRenditionId_eq_source_iff (r : TranscodeProfile) :
    nameToRenditionId r.name = .source ↔ hasOtherName r = true := by
  rw [hasOtherName, decide_eq_true_iff]
  unfold nameToRenditionId
  split
  · rename_i h
    exact ⟨nofun, fun hother => absurd h hother.1⟩
  · rename_i hhigh
    split
    · rename_i h
      exact ⟨nofun, fun hother => absurd h hother.2.1⟩
    · rename_i hmedium
      split
      · rename_i h
        exact ⟨nofun, fun hother => absurd h hother.2.2⟩
      · rename_i hlow
        exact ⟨fun _ => ⟨hhigh, hmedium, hlow⟩, fun _ => rfl⟩

/-- An id of a name of its own is written as the name. -/
theorem asStr_nameToRenditionId {name : Text} (hne : nameToRenditionId name ≠ .source) :
    (nameToRenditionId name).asStr = name := by
  unfold nameToRenditionId at hne ⊢
  split
  · rename_i h
    exact h.symm
  · rename_i hhigh
    rw [if_neg hhigh] at hne
    split
    · rename_i h
      exact h.symm
    · rename_i hmedium
      rw [if_neg hmedium] at hne
      split
      · rename_i h
        exact h.symm
      · rename_i hlow
        rw [if_neg hlow] at hne
        exact absurd rfl hne

theorem name_eq_of_nameToRenditionId {name name' : Text}
    (h : nameToRenditionId name = nameToRenditionId name')
    (hne : nameToRenditionId name ≠ .source) : name = name' := by
  have hname := asStr_nameToRenditionId hne
  have hname' := asStr_nameToRenditionId (h ▸ hne)
  rw [← hname, h, hname']

theorem nodup_ids_iff {rungs : List TranscodeProfile} (hnames : (rungs.map (·.name)).Nodup) :
    (rungs.map fun r => nameToRenditionId r.name).Nodup ↔
      (rungs.filter hasOtherName).length ≤ 1 := by
  induction rungs with
  | nil => simp
  | cons r rungs ih =>
    rw [List.map_cons, List.nodup_cons] at hnames ⊢
    have hids := ih hnames.2
    cases hother : hasOtherName r with
    | true =>
      have hid := (nameToRenditionId_eq_source_iff r).mpr hother
      rw [List.filter_cons_of_pos hother, List.length_cons]
      have hnone : RenditionId.source ∉ rungs.map (fun r => nameToRenditionId r.name) ↔
          (rungs.filter hasOtherName).length = 0 := by
        rw [List.length_eq_zero_iff, List.filter_eq_nil_iff, List.mem_map]
        push Not
        exact forall₂_congr fun r' _ => not_congr (nameToRenditionId_eq_source_iff r')
      rw [hid, hnone, hids]
      omega
    | false =>
      have hid : nameToRenditionId r.name ≠ .source := by
        rw [ne_eq, nameToRenditionId_eq_source_iff, hother]
        exact Bool.false_ne_true
      rw [List.filter_cons_of_neg (by rw [hother]; exact Bool.false_ne_true), ← hids]
      refine and_iff_right fun hmem => hnames.1 ?_
      obtain ⟨r', hr', heq⟩ := List.mem_map.mp hmem
      rw [name_eq_of_nameToRenditionId heq.symm hid]
      exact List.mem_map_of_mem hr'

/-- The ids of the selected renditions. -/
def LiveConfig.ids (cfg : LiveConfig) : List RenditionId := cfg.renditions.map (·.id)

theorem nodup_selected_ids_iff {width height : UInt32} {ladder : List TranscodeProfile}
    (hnames : (ladder.map (·.name)).Nodup) :
    ((selectRenditions width height ladder).map (·.id)).Nodup ↔
      AtMostOneOther width height ladder := by
  have hsub : ((ladder.filter (fitsSource width height)).map (·.name)).Nodup :=
    hnames.sublist (List.filter_sublist.map _)
  rw [AtMostOneOther, ← nodup_ids_iff hsub]
  simp only [selectRenditions]
  split
  · rename_i hnil
    rw [show ladder.filter (fitsSource width height) = [] from List.map_eq_nil_iff.mp hnil]
    split
    · exact ⟨fun _ => List.nodup_nil, fun _ => List.nodup_singleton _⟩
    · exact Iff.rfl
  · rw [List.map_map]
    rfl

/-! ### Storage paths -/

/-- The objects of a rendition. -/
inductive StoredAt (streamId rendition : Text) : Text → Prop
  | init : StoredAt streamId rendition (initSegmentPath streamId rendition)
  | segment (sequence : ℕ) : StoredAt streamId rendition (segmentPath streamId rendition sequence)
  | playlist : StoredAt streamId rendition (mediaPlaylistPath streamId rendition)

theorem StoredAt.exists_file {streamId rendition path : Text}
    (h : StoredAt streamId rendition path) :
    ∃ file, path = renditionPrefix streamId rendition ++ file := by
  cases h with
  | init => exact ⟨_, initSegmentPath_eq streamId rendition⟩
  | segment sequence => exact ⟨_, segmentPath_eq streamId rendition sequence⟩
  | playlist => exact ⟨_, mediaPlaylistPath_eq streamId rendition⟩

/-- The objects of different renditions are stored apart. -/
theorem StoredAt.disjoint {streamId path : Text} {r r' : RenditionId}
    (h : StoredAt streamId r.asStr path) (hne : r ≠ r') : ¬ StoredAt streamId r'.asStr path := by
  intro h'
  obtain ⟨file, rfl⟩ := h.exists_file
  obtain ⟨file', heq⟩ := h'.exists_file
  have hnames : r.asStr ≠ r'.asStr := fun hname => hne (RenditionId.asStr_injective hname)
  have hother : isOfRendition streamId r.asStr
      (renditionPrefix streamId r'.asStr ++ file') = false :=
    isOfRendition_append_ne r.slash_notMem_asStr r'.slash_notMem_asStr hnames file'
  rw [← heq, isOfRendition_append] at hother
  cases hother

/-! ### Complete renditions of a record -/

/-- The record has the name as a complete rendition. -/
def HasComplete (entry : StreamEntry) (name : Text) : Prop :=
  ∃ status, entry.renditions.lookup name = some status ∧ status.status = .complete

theorem renditions_completed (now : DateTime) (entry : StreamEntry) (id : StreamId)
    (rendition : Text) :
    (ControlStep.onEntry now entry (.event (.renditionComplete id rendition))).renditions =
      (StreamStateManager.setComplete entry rendition).renditions := by
  rw [← noteRenditionComplete_fst]
  simp only [ControlStep.onEntry]
  split
  · exact renditions_moveTo _ _
  · rfl

theorem expectedRenditions_moveTo (entry : StreamEntry) (newState : StreamState) (now : DateTime) :
    (entry.moveTo newState now).expectedRenditions = entry.expectedRenditions := by
  unfold StreamEntry.moveTo
  split <;> rfl

/-- Events do not change how many renditions the record expects. -/
theorem expectedRenditions_onEntry (now : DateTime) (entry : StreamEntry) (event : PipelineEvent) :
    (ControlStep.onEntry now entry (.event event)).expectedRenditions =
      entry.expectedRenditions := by
  cases event with
  | streamStarted => exact expectedRenditions_moveTo entry .live now
  | segmentProduced | vodProgress => rfl
  | streamEnded => exact expectedRenditions_moveTo entry .processing now
  | streamError =>
    simp only [ControlStep.onEntry]
    split <;> rfl
  | renditionComplete id rendition =>
    have hnoted : (StreamStateManager.noteRenditionComplete entry rendition).1.expectedRenditions =
        entry.expectedRenditions := by
      rw [noteRenditionComplete_fst]
      rfl
    simp only [ControlStep.onEntry]
    split
    · rw [expectedRenditions_moveTo, hnoted]
    · exact hnoted

section Complete

variable {entry : StreamEntry} {name : Text}

theorem hasComplete_congr {entry' : StreamEntry} (h : entry'.renditions = entry.renditions) :
    HasComplete entry' name ↔ HasComplete entry name := by
  rw [HasComplete, HasComplete, h]

/-- A name is complete after an event if it was before, or if it is in the record and the event
completes it. -/
theorem hasComplete_onEntry_iff (now : DateTime) (event : PipelineEvent) :
    HasComplete (ControlStep.onEntry now entry (.event event)) name ↔
      HasComplete entry name ∨ event = .renditionComplete event.streamId name ∧
        entry.renditions.lookup name ≠ none := by
  cases event with
  | streamStarted id mediaInfo =>
    have hsame : (entry.moveTo .live now).renditions = entry.renditions :=
      renditions_moveTo .live now
    exact (hasComplete_congr hsame).trans (or_iff_left fun h => by cases h.1).symm
  | streamEnded id =>
    have hsame : (entry.moveTo .processing now).renditions = entry.renditions :=
      renditions_moveTo .processing now
    exact (hasComplete_congr hsame).trans (or_iff_left fun h => by cases h.1).symm
  | streamError id error =>
    have hsame : (ControlStep.onEntry now entry (.event (.streamError id error))).renditions =
        entry.renditions := by
      simp only [ControlStep.onEntry]
      split <;> rfl
    exact (hasComplete_congr hsame).trans (or_iff_left fun h => by cases h.1).symm
  | vodProgress id percent => exact (or_iff_left fun h => by cases h.1).symm
  | segmentProduced id rendition sequence =>
    refine Iff.trans ?_ (or_iff_left fun h => by cases h.1).symm
    by_cases hname : name = rendition
    · subst hname
      simp only [HasComplete, ControlStep.onEntry, AList.lookup_insert, Option.some.injEq]
      cases hstatus : entry.renditions.lookup name with
      | none => simp [StreamStateManager.renditionStatus, hstatus]
      | some status => simp [StreamStateManager.renditionStatus, hstatus]
    · simp only [HasComplete, ControlStep.onEntry, AList.lookup_insert_ne hname]
  | renditionComplete id rendition =>
    rw [hasComplete_congr (renditions_completed now entry id rendition)]
    simp only [HasComplete, StreamStateManager.setComplete, PipelineEvent.streamId,
      PipelineEvent.renditionComplete.injEq, true_and]
    by_cases hname : name = rendition
    · subst hname
      rw [Map.lookup_adjust_self]
      cases hstatus : entry.renditions.lookup name with
      | none => simp
      | some status => simp
    · rw [Map.lookup_adjust_ne _ _ hname]
      simp [Ne.symm hname]

/-- A segment enters its rendition in the record. -/
theorem lookup_produced_ne_none (now : DateTime) (id : StreamId) (sequence : ℕ) :
    (ControlStep.onEntry now entry (.event (.segmentProduced id name sequence))).renditions.lookup
      name ≠ none := by
  simp only [ControlStep.onEntry, AList.lookup_insert]
  exact Option.some_ne_none _

end Complete

/-! ### What a live stream can complete -/

/-- A packet leaves every accumulator its rendition, and segments come from accumulators. -/
theorem renditions_fanOut (closed : Bool) (packet : EncodedPacket)
    (accs : List SegmentAccumulator) :
    (fanOut closed packet accs).1.map (·.rendition) = accs.map (·.rendition) ∧
      ∀ segment ∈ (fanOut closed packet accs).2.1,
        segment.rendition ∈ accs.map (·.rendition) := by
  induction accs with
  | nil =>
    refine ⟨rfl, fun segment hmem => ?_⟩
    cases hmem
  | cons acc accs ih =>
    obtain ⟨hacc, houtcome⟩ := push_outcome acc packet
    simp only [fanOut]
    split
    · rename_i acc' hpush
      rw [hpush] at hacc
      refine ⟨?_, fun segment hmem => List.mem_cons_of_mem _ (ih.2 segment hmem)⟩
      rw [List.map_cons, List.map_cons, ih.1, hacc]
    · rename_i first acc' hpush
      rw [hpush] at hacc houtcome
      have hfirst : first.rendition = acc.rendition := by
        rcases houtcome with ⟨hnone, -⟩ | ⟨segment, hsome, hrendition, -⟩
        · cases hnone
        · rw [Option.some.inj hsome, hrendition]
      split
      · refine ⟨?_, fun segment hmem => ?_⟩
        · rw [List.map_cons, List.map_cons, hacc]
        · cases hmem
      · refine ⟨?_, fun segment hmem => ?_⟩
        · rw [List.map_cons, List.map_cons, ih.1, hacc]
        · rcases List.mem_cons.mp hmem with rfl | hmem
          · rw [hfirst]
            exact List.mem_cons_self
          · exact List.mem_cons_of_mem _ (ih.2 segment hmem)

theorem renditions_processFrame (closed : Bool) (accs : List SegmentAccumulator)
    (frame : DemuxedFrame) :
    (processFrame closed accs frame).1.map (·.rendition) = accs.map (·.rendition) ∧
      ∀ segment ∈ (processFrame closed accs frame).2.1,
        segment.rendition ∈ accs.map (·.rendition) := by
  have hparams : (accs.map (takeAudioParams frame)).map (·.rendition) =
      accs.map (·.rendition) := by
    rw [List.map_map]
    exact List.map_congr_left fun acc _ => (takeAudioParams_outcome frame acc).1
  rw [← hparams]
  exact renditions_fanOut closed _ _

/-- The names of the selected renditions. -/
def LiveConfig.names (cfg : LiveConfig) : List Text := cfg.ids.map RenditionId.asStr

/-- Nothing but the selected renditions is packaged and completed, and they are the expected
ones. -/
structure OnlySelected (cfg : LiveConfig) (s : LiveTasks) : Prop where
  accumulators : ∀ accs errors, s.transcode = .decoding accs errors →
    accs.map (·.rendition) = cfg.ids
  segments : ∀ segment ∈ s.segments, segment.rendition ∈ cfg.ids
  opened : ∀ p, s.packager = some p → p.Open
  events : ∀ event ∈ s.events, event.streamId = cfg.streamId ∧
    ∀ name, event = .renditionComplete cfg.streamId name → name ∈ cfg.names
  record : ∀ entry, s.manager.streams.lookup cfg.streamId = some entry →
    (∀ name, HasComplete entry name → name ∈ cfg.names) ∧
      ∀ count, entry.expectedRenditions = some count → count = cfg.renditions.length

section Selected

variable {cfg : LiveConfig} {s s' : LiveTasks}

theorem renditions_accumulators (cfg : LiveConfig) :
    cfg.accumulators.map (·.rendition) = cfg.ids := by
  rw [LiveConfig.accumulators, List.map_map, LiveConfig.ids]
  rfl

/-- The events of a packaged segment. -/
theorem OnlySelected.segmentEvents {segment : EncodedSegment} (h : segment.rendition ∈ cfg.ids) :
    ∀ event ∈ segmentEvents cfg.packagerEnv segment, event.streamId = cfg.streamId ∧
      ∀ name, event = .renditionComplete cfg.streamId name → name ∈ cfg.names := by
  intro event hmem
  rcases List.mem_cons.mp hmem with rfl | hmem
  · exact ⟨rfl, nofun⟩
  · split at hmem
    · obtain rfl := List.mem_singleton.mp hmem
      refine ⟨rfl, fun name hname => ?_⟩
      obtain ⟨-, rfl⟩ := PipelineEvent.renditionComplete.inj hname
      exact List.mem_map_of_mem h
    · cases hmem

theorem OnlySelected.read (h : OnlySelected cfg s) (loop : DemuxLoop) (r : ReadResult) :
    OnlySelected cfg (s.read cfg loop r) := by
  unfold LiveTasks.read
  split
  · exact ⟨h.accumulators, h.segments, h.opened, h.events, h.record⟩
  · rename_i result hturn
    refine ⟨h.accumulators, h.segments, h.opened, fun event hmem => ?_, h.record⟩
    rcases List.mem_append.mp hmem with hmem | hmem
    · exact h.events event hmem
    · obtain rfl := List.mem_singleton.mp hmem
      cases result with
      | ok | error => exact ⟨rfl, nofun⟩

theorem OnlySelected.decode (h : OnlySelected cfg s) {accs : List SegmentAccumulator}
    {errors : ℕ} (htranscode : s.transcode = .decoding accs errors) (frame : DemuxedFrame)
    (frames : List DemuxedFrame) : OnlySelected cfg (s.decode cfg accs errors frame frames) := by
  obtain ⟨haccs, hnew⟩ := renditions_processFrame s.packager.isNone accs frame
  rw [h.accumulators accs errors htranscode] at haccs hnew
  have hsegments : ∀ segment ∈ s.segments ++ (processFrame s.packager.isNone accs frame).2.1,
      segment.rendition ∈ cfg.ids := by
    intro segment hmem
    rcases List.mem_append.mp hmem with hmem | hmem
    · exact h.segments segment hmem
    · exact hnew segment hmem
  have hdecoding : ∀ errors' accs' errors'',
      TranscodeTask.decoding (processFrame s.packager.isNone accs frame).1 errors' =
        .decoding accs' errors'' → accs'.map (·.rendition) = cfg.ids := by
    intro errors' accs' errors'' heq
    obtain ⟨rfl, -⟩ := TranscodeTask.decoding.inj heq
    exact haccs
  simp only [LiveTasks.decode]
  split
  · exact ⟨hdecoding 0, hsegments, h.opened, h.events, h.record⟩
  · split
    · refine ⟨fun accs' errors' hreturned => ?_, hsegments, h.opened, h.events, h.record⟩
      cases hreturned
    · exact ⟨hdecoding (errors + 1), hsegments, h.opened, h.events, h.record⟩

theorem OnlySelected.package (h : OnlySelected cfg s) {p' : Packager} {segment : EncodedSegment}
    {segments : List EncodedSegment} (hsegments : s.segments = segment :: segments)
    (hopen' : p'.Open) (hevents : p'.events = Package.segmentEvents cfg.packagerEnv segment) :
    OnlySelected cfg
      { s with packager := some p', segments := segments, events := s.events ++ p'.events } := by
  have hmem := h.segments
  rw [hsegments] at hmem
  refine ⟨h.accumulators, fun other hother => hmem other (List.mem_cons_of_mem _ hother),
    fun q hq => Option.some.inj hq ▸ hopen', fun event hevent => ?_, h.record⟩
  rcases List.mem_append.mp hevent with hevent | hevent
  · exact h.events event hevent
  · rw [hevents] at hevent
    exact OnlySelected.segmentEvents (hmem segment List.mem_cons_self) event hevent

theorem OnlySelected.handle (h : OnlySelected cfg s) {event : PipelineEvent}
    {events : List PipelineEvent} (hevents : s.events = event :: events) (now : DateTime) :
    OnlySelected cfg { s with manager := handleEvent s.manager event now, events := events } := by
  have hmem := h.events
  rw [hevents] at hmem
  obtain ⟨hid, hname⟩ := hmem event List.mem_cons_self
  refine ⟨h.accumulators, h.segments, h.opened,
    fun other hother => hmem other (List.mem_cons_of_mem _ hother), fun entry hentry => ?_⟩
  have hlookup := lookup_controlStep_self s.manager (.event event) now
  obtain ⟨before, hbefore, rfl⟩ := Option.map_eq_some_iff.mp (hlookup.symm.trans (hid ▸ hentry))
  obtain ⟨hcomplete, hexpected⟩ := h.record before (hid ▸ hbefore)
  refine ⟨fun name hnew => ?_, fun count hcount => hexpected count ?_⟩
  · rcases (hasComplete_onEntry_iff now event).mp hnew with hold | ⟨heq, -⟩
    · exact hcomplete name hold
    · exact hname name (hid ▸ heq)
  · rwa [expectedRenditions_onEntry] at hcount

/-- The flush sends the last segments of the accumulators. -/
theorem OnlySelected.flush (h : OnlySelected cfg s) {accs : List SegmentAccumulator} {errors : ℕ}
    (htranscode : s.transcode = .decoding accs errors) {segment : EncodedSegment}
    (hmem : segment ∈ s.segments ++
      if s.packager.isNone then [] else accs.filterMap fun acc => acc.flush) :
    segment.rendition ∈ cfg.ids := by
  rcases List.mem_append.mp hmem with hmem | hmem
  · exact h.segments segment hmem
  · split at hmem
    · cases hmem
    · obtain ⟨acc, hacc, hflush⟩ := List.mem_filterMap.mp hmem
      rw [(flush_outcome hflush).1, ← h.accumulators accs errors htranscode]
      exact List.mem_map_of_mem hacc

theorem OnlySelected.step (h : OnlySelected cfg s) {a : LiveAction}
    (hstep : liveStep cfg s a = some s') : OnlySelected cfg s' := by
  cases liveStep_outcome hstep with
  | read hdemux r => exact h.read _ r
  | refused hstarting hnone =>
    refine ⟨fun accs errors hdecoding => ?_, h.segments, h.opened, h.events, h.record⟩
    cases hdecoding
  | launched hstarting hsome =>
    refine ⟨fun accs errors hdecoding => ?_, h.segments, h.opened, h.events, ?_⟩
    · obtain ⟨rfl, -⟩ := TranscodeTask.decoding.inj hdecoding
      exact renditions_accumulators cfg
    · intro entry hentry
      rw [StreamStateManager.setExpectedRenditions, StreamStateManager.modifyEntry,
        Map.lookup_adjust_self] at hentry
      obtain ⟨before, hbefore, rfl⟩ := Option.map_eq_some_iff.mp hentry
      refine ⟨(h.record before hbefore).1, fun count hcount => ?_⟩
      exact (Option.some.inj hcount).symm
  | decoded htranscode hframes => exact h.decode htranscode _ _
  | flushed htranscode hframes hdemux =>
    refine ⟨fun accs' errors' hreturned => ?_, fun segment hmem => h.flush htranscode hmem,
      h.opened, h.events, h.record⟩
    cases hreturned
  | packaged hp hsegments hturn =>
    obtain ⟨p', hok, hopen', hevents⟩ := packaged_open (h.opened _ hp) hturn
    obtain rfl := Except.ok.inj hok
    exact h.package hsegments hopen' hevents
  | broken hp hsegments hturn =>
    obtain ⟨p', hok, -⟩ := packaged_open (h.opened _ hp) hturn
    cases hok
  | packagerEnded hp hsegments htranscode =>
    refine ⟨h.accumulators, h.segments, fun p hnone => ?_, h.events, h.record⟩
    cases hnone
  | writerEnded hpackager hwriting =>
    exact ⟨h.accumulators, h.segments, h.opened, h.events, h.record⟩
  | handled now hevents => exact h.handle hevents now

end Selected

/-! ### Completing every rendition -/

/-- A video message with a slice that is no keyframe. -/
def sliceMessage : RtmpMessage := ⟨.video, 0, 1, [0x27, 1, 0, 0, 0, 0, 0, 0, 1, 0x41]⟩

theorem extractNalus_slice :
    extractNalus [0, 0, 0, 1, 0x41] = .ok (false, startCode ++ [0x41]) := by
  have hspells : Spells [[0x41]] [] [0, 0, 0, 1, 0x41] :=
    ⟨by simp, Nat.zero_le 3, by decide⟩
  rw [extractNalus, extractNalusFrom_of_spells hspells]
  rfl

theorem demux_slice {d : FlvDemuxer} (h : d.hasVideoSeqHeader = true) :
    ∃ frame d', (demuxFlvTag sliceMessage).run.run d = (.ok (some frame), d') ∧
      frame.track.isAudio = false ∧ frame.keyframe = false ∧ frame.data = startCode ++ [0x41] := by
  rw [demuxFlvTag_eq (by decide) (by decide)]
  show ∃ frame d', (demuxVideo [0x27, 1, 0, 0, 0, 0, 0, 0, 1, 0x41] 0).run.run d =
    (.ok (some frame), d') ∧ _
  unfold demuxVideo
  dsimp only
  rw [if_neg (by decide)]
  have hlift : (demuxVideo.liftExcept (extractNalus [0, 0, 0, 1, 0x41])).run.run d =
      (.ok (false, startCode ++ [0x41]), d) := by
    rw [extractNalus_slice]
    rfl
  split
  · contradiction
  · rw [DemuxM.run_bind (DemuxM.run_get d), h, if_neg (by decide), DemuxM.run_bind hlift,
      DemuxM.run_bind (run_normalizePts _ d), DemuxM.run_bind (run_normalizePts _ _)]
    exact ⟨_, _, rfl, rfl, rfl, rfl⟩
  · rename_i hpacket
    exact absurd rfl hpacket

theorem demuxTurn_slice {d : FlvDemuxer} (h : d.hasVideoSeqHeader = true) :
    ∃ loop frame, demuxTurn false ⟨d, 0, []⟩ (.message sliceMessage) = (loop, none) ∧
      loop.frames = [frame] ∧ frame.track.isAudio = false ∧ frame.keyframe = false ∧
      frame.data = startCode ++ [0x41] := by
  obtain ⟨frame, d', hrun, htrack, hkeyframe, hdata⟩ := demux_slice h
  refine ⟨⟨d', 0, [frame]⟩, frame, ?_, rfl, htrack, hkeyframe, hdata⟩
  have hhandler : demuxHandler ⟨d, 0, []⟩ sliceMessage = (⟨d', 0, [frame]⟩, none) := by
    simp only [demuxHandler, hrun]
    rfl
  simp only [demuxTurn, hhandler]
  rfl

/-- A packet that is no video keyframe is buffered. -/
theorem fanOut_of_not_keyframe (closed : Bool) {packet : EncodedPacket}
    (h : packet.keyframe = false) (accs : List SegmentAccumulator) :
    fanOut closed packet accs = (accs.map fun acc => acc.buffer packet, [], true) := by
  induction accs with
  | nil => rfl
  | cons acc accs ih =>
    have hpush : acc.push packet = (none, acc.buffer packet) := by
      simp only [SegmentAccumulator.push, h, Bool.and_false, Bool.false_eq_true, if_false]
    simp only [fanOut, hpush, ih, List.map_cons]

theorem videoBuffer_buffer (acc : SegmentAccumulator) {packet : EncodedPacket}
    (h : packet.isAudio = false) :
    (acc.buffer packet).videoBuffer = acc.videoBuffer ++ packet.data := by
  cases hs : acc.segmentStartPts <;> simp [SegmentAccumulator.buffer, hs, h]

/-- Accumulators that hold video all flush a last segment. -/
theorem flush_all {accs : List SegmentAccumulator} (h : ∀ acc ∈ accs, acc.videoBuffer ≠ []) :
    (accs.filterMap fun acc => acc.flush).map (·.rendition) = accs.map (·.rendition) ∧
      ∀ segment ∈ accs.filterMap fun acc => acc.flush, segment.isLast = true := by
  induction accs with
  | nil => exact ⟨rfl, nofun⟩
  | cons acc accs ih =>
    obtain ⟨hacc, haccs⟩ := List.forall_mem_cons.mp h
    obtain ⟨hrenditions, hlast⟩ := ih haccs
    have hflush : acc.flush = some (acc.emitSegment true).1 := by
      rw [SegmentAccumulator.flush, if_neg]
      rwa [List.isEmpty_iff]
    rw [List.filterMap_cons_some hflush, List.map_cons, List.map_cons, hrenditions]
    exact ⟨rfl, List.forall_mem_cons.mpr ⟨rfl, hlast⟩⟩

section Completion

variable {cfg : LiveConfig} {m : StreamStateManager} {s : LiveTasks}

/-- A video frame that is no keyframe is buffered for every rendition. -/
theorem exists_buffering {frame : DemuxedFrame} (hvideo : frame.track.isAudio = false)
    (hkeyframe : frame.keyframe = false) (hdata : frame.data ≠ []) :
    ∃ accs, processFrame false cfg.accumulators frame = (accs, [], .ok ()) ∧
      accs.map (·.rendition) = cfg.ids ∧ ∀ acc ∈ accs, acc.videoBuffer ≠ [] := by
  have hprocess : processFrame false cfg.accumulators frame =
      ((cfg.accumulators.map (takeAudioParams frame)).map fun acc => acc.buffer (.ofFrame frame),
        [], .ok ()) := by
    simp only [processFrame, @fanOut_of_not_keyframe false (.ofFrame frame) hkeyframe]
    rfl
  have hrenditions := (renditions_processFrame false cfg.accumulators frame).1
  rw [hprocess, renditions_accumulators] at hrenditions
  refine ⟨_, hprocess, hrenditions, fun acc hacc => ?_⟩
  obtain ⟨before, -, rfl⟩ := List.mem_map.mp hacc
  rw [videoBuffer_buffer before hvideo]
  exact List.append_ne_nil_of_right_ne_nil _ hdata

/-- A stream of one frame: the pipeline has it buffered for every rendition. -/
theorem exists_decoding (hseq : cfg.demuxer.hasVideoSeqHeader = true) (hne : cfg.renditions ≠ []) :
    ∃ actions accs loop, run (liveStep cfg) (.start cfg m) actions =
        some { LiveTasks.start cfg m with
          manager := m.setExpectedRenditions cfg.streamId cfg.renditions.length
          demux := some loop
          transcode := .decoding accs 0 } ∧
      accs.map (·.rendition) = cfg.ids ∧ ∀ acc ∈ accs, acc.videoBuffer ≠ [] := by
  obtain ⟨loop, frame, hturn, hframes, hvideo, hkeyframe, hdata⟩ := demuxTurn_slice hseq
  obtain ⟨accs, hprocess, hrenditions, hbuffers⟩ :=
    @exists_buffering cfg frame hvideo hkeyframe (by rw [hdata]; exact List.cons_ne_nil _ _)
  refine ⟨[.launch, .read (.message sliceMessage), .decode], accs, loop, ?_, hrenditions, hbuffers⟩
  have hlaunch : liveStep cfg (.start cfg m) .launch = some { LiveTasks.start cfg m with
      manager := m.setExpectedRenditions cfg.streamId cfg.renditions.length
      transcode := .decoding cfg.accumulators 0 } := by
    simp only [liveStep, LiveTasks.start, if_neg hne]
  rw [run_cons_of_step hlaunch]
  generalize m.setExpectedRenditions cfg.streamId cfg.renditions.length = manager
  have hread : liveStep cfg { LiveTasks.start cfg m with
      manager := manager, transcode := .decoding cfg.accumulators 0 }
      (.read (.message sliceMessage)) = some { LiveTasks.start cfg m with
        manager := manager
        demux := some loop
        frames := [frame]
        transcode := .decoding cfg.accumulators 0 } := by
    simp only [liveStep, LiveTasks.start, LiveTasks.read, TranscodeTask.hasReturned, hturn,
      hframes, Option.map_some, List.nil_append]
  rw [run_cons_of_step hread]
  apply run_cons_of_step
  simp only [liveStep, LiveTasks.start, LiveTasks.decode, Option.isNone_some, hprocess,
    List.append_nil]

/-- The connection closes and the pipeline flushes: every rendition has its last segment in the
channel. -/
theorem exists_flushed (hseq : cfg.demuxer.hasVideoSeqHeader = true) (hne : cfg.renditions ≠ []) :
    ∃ actions s, run (liveStep cfg) (.start cfg m) actions = some s ∧
      s.transcode = .returned (.ok ()) ∧
      s.manager = m.setExpectedRenditions cfg.streamId cfg.renditions.length ∧
      s.packager = some (Packager.start none) ∧ s.segments.map (·.rendition) = cfg.ids ∧
      ∀ segment ∈ s.segments, segment.isLast = true := by
  obtain ⟨actions, accs, loop, hrun, hrenditions, hbuffers⟩ := @exists_decoding cfg m hseq hne
  obtain ⟨hsegments, hlast⟩ := flush_all hbuffers
  generalize m.setExpectedRenditions cfg.streamId cfg.renditions.length = manager at hrun ⊢
  refine ⟨actions ++ [.read .closed, .flush], { LiveTasks.start cfg m with
    manager := manager
    demux := none
    events := (LiveTasks.start cfg m).events ++ [.streamEnded cfg.streamId]
    transcode := .returned (.ok ())
    segments := accs.filterMap fun acc => acc.flush }, ?_, rfl, rfl, rfl,
    hsegments.trans hrenditions, hlast⟩
  have hclosed : liveStep cfg { LiveTasks.start cfg m with
      manager := manager, demux := some loop, transcode := .decoding accs 0 } (.read .closed) =
      some { LiveTasks.start cfg m with
        manager := manager
        demux := none
        events := (LiveTasks.start cfg m).events ++ [.streamEnded cfg.streamId]
        transcode := .decoding accs 0 } := by
    simp only [liveStep, LiveTasks.read, demuxTurn, endEvent, Option.map_some]
  rw [run_append hrun, run_cons_of_step hclosed]
  apply run_cons_of_step
  simp only [liveStep, LiveTasks.start, Option.isNone_some, Bool.false_eq_true, if_false,
    List.nil_append]

/-- Over an open channel the packager takes every segment and sends its events. -/
theorem exists_packaged {p : Packager} (hp : s.packager = some p) (hopen : p.Open) :
    ∃ actions s' p', run (liveStep cfg) s actions = some s' ∧ s'.packager = some p' ∧
      s'.segments = [] ∧ s'.transcode = s.transcode ∧ s'.manager = s.manager ∧
      s'.events = s.events ++ s.segments.flatMap (segmentEvents cfg.packagerEnv) := by
  generalize hsegments : s.segments = segments
  induction segments generalizing s p with
  | nil =>
    exact ⟨[], s, p, rfl, hp, hsegments, rfl, rfl, by rw [List.flatMap_nil, List.append_nil]⟩
  | cons segment segments ih =>
    have hopen' : ({ p with events := [] } : Packager).Open :=
      ⟨hopen.room, hopen.published, hopen.opened⟩
    obtain ⟨p', hturn, hopened, -, hevents, -⟩ :=
      handleSegment_open cfg.packagerEnv segment ⟨0⟩ hopen'
    have hstep : liveStep cfg s (.package ⟨0⟩) = some { s with
        packager := some p', segments := segments, events := s.events ++ p'.events } := by
      simp only [liveStep, hp, hsegments, hturn]
    obtain ⟨actions, s', q, hrun, hq, hempty, htranscode, hmanager, hsent⟩ := ih (s := { s with
      packager := some p', segments := segments, events := s.events ++ p'.events }) rfl hopened rfl
    refine ⟨.package ⟨0⟩ :: actions, s', q, (run_cons_of_step hstep actions).trans hrun, hq, hempty,
      htranscode, hmanager, ?_⟩
    rw [hsent, hevents, List.nil_append, List.flatMap_cons, List.append_assoc]

/-- The event handler takes every event. -/
theorem exists_handled (s : LiveTasks) : ∃ actions s', run (liveStep cfg) s actions = some s' ∧
    s'.manager = runControl s.manager (s.events.map fun event => (.event event, ⟨0⟩)) := by
  generalize hevents : s.events = events
  induction events generalizing s with
  | nil => exact ⟨[], s, rfl, rfl⟩
  | cons event events ih =>
    have hstep : liveStep cfg s (.handle ⟨0⟩) = some { s with
        manager := handleEvent s.manager event ⟨0⟩, events := events } := by
      simp only [liveStep, hevents]
    obtain ⟨actions, s', hrun, hmanager⟩ := ih { s with
      manager := handleEvent s.manager event ⟨0⟩, events := events } rfl
    exact ⟨.handle ⟨0⟩ :: actions, s', (run_cons_of_step hstep actions).trans hrun, hmanager⟩

end Completion

/-- A complete rendition stays complete. -/
theorem HasComplete.after {entry : StreamEntry} {name : Text} (h : HasComplete entry name)
    (events : List PipelineEvent) :
    HasComplete (entry.after (events.map fun event => (.event event, ⟨0⟩))) name := by
  induction events generalizing entry with
  | nil => exact h
  | cons event events ih => exact ih ((hasComplete_onEntry_iff ⟨0⟩ event).mpr (Or.inl h))

/-- A segment and the completion behind it complete the rendition, whatever else happens. -/
theorem hasComplete_after (entry : StreamEntry) (before later : List PipelineEvent)
    (id : StreamId) (name : Text) (sequence : ℕ) :
    HasComplete (entry.after ((before ++ .segmentProduced id name sequence ::
      .renditionComplete id name :: later).map fun event => (.event event, ⟨0⟩))) name := by
  rw [List.map_append, StreamEntry.after, List.foldl_append, ← StreamEntry.after]
  refine HasComplete.after ((hasComplete_onEntry_iff ⟨0⟩ _).mpr (Or.inr ⟨rfl, ?_⟩)) later
  exact lookup_produced_ne_none ⟨0⟩ id sequence

/-- The name is marked complete in some run of the stream. -/
def CanComplete (cfg : LiveConfig) (m : StreamStateManager) (name : Text) : Prop :=
  ∃ actions s entry, run (liveStep cfg) (.start cfg m) actions = some s ∧
    s.manager.streams.lookup cfg.streamId = some entry ∧ HasComplete entry name

/-! ### Collisions -/

/-- The manager when the record of the stream has been created. -/
def LiveConfig.created (cfg : LiveConfig) (m : StreamStateManager) (now : DateTime) :
    StreamStateManager :=
  (m.createStream cfg.streamId .live now).2

section Created

variable {cfg : LiveConfig} {m : StreamStateManager} {now : DateTime}

theorem onlySelected_start (cfg : LiveConfig) (m : StreamStateManager) (now : DateTime) :
    OnlySelected cfg (.start cfg (cfg.created m now)) := by
  refine ⟨nofun, nofun, fun p hp => Option.some.inj hp ▸ Packager.open_start, ?_, ?_⟩
  · intro event hmem
    obtain rfl := List.mem_singleton.mp hmem
    exact ⟨rfl, nofun⟩
  · intro entry hentry
    obtain rfl := Option.some.inj ((AList.lookup_insert _).symm.trans hentry)
    refine ⟨fun name hcomplete => ?_, nofun⟩
    obtain ⟨status, hstatus, -⟩ := hcomplete
    cases hstatus

theorem onlySelected_of_run {actions : List LiveAction} {s : LiveTasks}
    (hrun : run (liveStep cfg) (.start cfg (cfg.created m now)) actions = some s) :
    OnlySelected cfg s :=
  run_invariant (fun _ _ _ h hstep => h.step hstep) (onlySelected_start cfg m now) hrun

/-- A stream can complete its selected renditions, and no others. -/
theorem canComplete_iff (hseq : cfg.demuxer.hasVideoSeqHeader = true) {name : Text} :
    CanComplete cfg (cfg.created m now) name ↔ name ∈ cfg.names := by
  constructor
  · rintro ⟨actions, s, entry, hrun, hentry, hcomplete⟩
    exact ((onlySelected_of_run hrun).record entry hentry).1 name hcomplete
  · intro hname
    obtain ⟨rendition, hid, rfl⟩ := List.mem_map.mp hname
    have hne : cfg.renditions ≠ [] := by
      rintro hnil
      rw [LiveConfig.ids, hnil] at hid
      cases hid
    obtain ⟨actions₁, s₁, hrun₁, -, hmanager₁, hp, hrenditions, hlast⟩ :=
      exists_flushed (m := cfg.created m now) hseq hne
    obtain ⟨actions₂, s₂, -, hrun₂, -, -, -, hmanager₂, hevents⟩ :=
      @exists_packaged cfg s₁ _ hp Packager.open_start
    obtain ⟨actions₃, s₃, hrun₃, hmanager₃⟩ := @exists_handled cfg s₂
    have hrun := (run_append hrun₁ actions₂).trans hrun₂
    have hown := (onlySelected_of_run hrun).events
    -- The last segment of the rendition is in the channel, and its two events follow each other.
    rw [← hrenditions] at hid
    obtain ⟨segment, hmem, rfl⟩ := List.mem_map.mp hid
    obtain ⟨before, later, hsplit⟩ := List.append_of_mem hmem
    have hsent : segmentEvents cfg.packagerEnv segment =
        [.segmentProduced cfg.streamId segment.rendition.asStr segment.sequence,
          .renditionComplete cfg.streamId segment.rendition.asStr] := by
      rw [segmentEvents, hlast segment hmem]
      rfl
    rw [hsplit, List.flatMap_append, List.flatMap_cons, hsent, ← List.append_assoc] at hevents
    have hsteps : ownSteps cfg.streamId (s₂.events.map fun event =>
        ((.event event, ⟨0⟩) : ControlStep × DateTime)) =
          s₂.events.map fun event => (.event event, ⟨0⟩) := by
      refine List.filter_eq_self.mpr fun step hstep => ?_
      obtain ⟨event, hevent, rfl⟩ := List.mem_map.mp hstep
      exact decide_eq_true (hown event hevent).1
    have hlookup : s₂.manager.streams.lookup cfg.streamId ≠ none := by
      rw [hmanager₂, hmanager₁, StreamStateManager.setExpectedRenditions,
        StreamStateManager.modifyEntry, Map.lookup_adjust_self]
      rw [LiveConfig.created, StreamStateManager.createStream, AList.lookup_insert]
      exact Option.some_ne_none _
    obtain ⟨entry, hentry⟩ := Option.ne_none_iff_exists'.mp hlookup
    refine ⟨actions₁ ++ actions₂ ++ actions₃, s₃, _, (run_append hrun actions₃).trans hrun₃, ?_,
      hasComplete_after entry (s₁.events ++ before.flatMap (segmentEvents cfg.packagerEnv))
        (later.flatMap (segmentEvents cfg.packagerEnv)) cfg.streamId _ segment.sequence⟩
    rw [hmanager₃, lookup_runControl, hentry, hsteps, hevents]
    rfl

end Created

/-- The renditions of a stream keep apart, and as many are expected as can complete. -/
structure NoCollision (cfg : LiveConfig) (m : StreamStateManager) : Prop where
  ids : cfg.ids.Nodup
  paths : cfg.ids.Pairwise fun r r' => ∀ path, StoredAt cfg.streamId.toText r.asStr path →
    ¬ StoredAt cfg.streamId.toText r'.asStr path
  expected : ∀ actions s entry count, run (liveStep cfg) (.start cfg m) actions = some s →
    s.manager.streams.lookup cfg.streamId = some entry → entry.expectedRenditions = some count →
    count = Set.ncard {name | CanComplete cfg m name}

/-- The renditions that a ladder with distinct names gives a stream, whose demuxer has its
sequence header when it is started, do not collide exactly if at most one of the rungs that fit
the source has a name other than the three with an id of their own. -/
theorem no_collision_iff (cfg : LiveConfig) (m : StreamStateManager) (now : DateTime)
    (hnames : (cfg.ladder.map (·.name)).Nodup) (hseq : cfg.demuxer.hasVideoSeqHeader = true) :
    NoCollision cfg (cfg.created m now) ↔
      AtMostOneOther cfg.mediaInfo.videoWidth cfg.mediaInfo.videoHeight cfg.ladder := by
  rw [← nodup_selected_ids_iff hnames]
  constructor
  · exact fun h => h.ids
  · intro hids
    refine ⟨hids, hids.imp fun hne path h => h.disjoint hne, ?_⟩
    intro actions s entry count hrun hentry hcount
    have hset : {name | CanComplete cfg (cfg.created m now) name} =
        (cfg.names.toFinset : Set Text) := by
      ext name
      exact (canComplete_iff hseq).trans List.mem_toFinset.symm
    have hnodup : cfg.names.Nodup := hids.map fun r r' h => RenditionId.asStr_injective h
    rw [((onlySelected_of_run hrun).record entry hentry).2 count hcount, hset,
      Set.ncard_coe_finset, List.toFinset_card_of_nodup hnodup, LiveConfig.names,
      LiveConfig.ids, List.length_map, List.length_map]

/-- A ladder whose rungs are named after their sizes. -/
def twoRungs : LiveConfig where
  streamId := ⟨1⟩
  mediaInfo := { encoderMedia with videoWidth := 1920, videoHeight := 1080 }
  demuxer := { FlvDemuxer.new ⟨1⟩ with hasVideoSeqHeader := true }
  sourceFps := 30
  ladder := [
    ⟨"1080p".toList, 1920, 1080, 3500, 128, "high".toList, "4.1".toList, "medium".toList⟩,
    ⟨"720p".toList, 1280, 720, 2000, 128, "main".toList, "3.1".toList, "medium".toList⟩]
  keyframeIntervalSecs := 2
  packaging := ⟨5, 7⟩

/-- Both of its renditions get the id `source`; the stream expects two, and can complete one. -/
theorem two_rungs_collide :
    (twoRungs.ladder.map (·.name)).Nodup ∧
      ¬ NoCollision twoRungs (twoRungs.created .new ⟨0⟩) ∧ twoRungs.renditions.length = 2 ∧
      {name | CanComplete twoRungs (twoRungs.created .new ⟨0⟩) name} = {"source".toList} := by
  have hids : twoRungs.ids = [.source, .source] := by decide
  refine ⟨by decide, fun h => ?_, by decide, ?_⟩
  · have hnodup := h.ids
    rw [hids] at hnodup
    exact absurd hnodup (by decide)
  · ext name
    refine (canComplete_iff rfl).trans ?_
    rw [LiveConfig.names, hids, List.map_cons, List.map_singleton, List.mem_cons,
      List.mem_singleton, or_self]
    rfl

/-- A ladder with one rung of another name. -/
def oneOther : LiveConfig :=
  { twoRungs with
    ladder := [
      ⟨"1080p".toList, 1920, 1080, 3500, 128, "high".toList, "4.1".toList, "medium".toList⟩,
      ⟨"medium".toList, 1280, 720, 2000, 128, "main".toList, "3.1".toList, "medium".toList⟩] }

theorem no_collision_iff_oneOther :
    AtMostOneOther 1920 1080 oneOther.ladder ∧
      NoCollision oneOther (oneOther.created .new ⟨0⟩) := by
  have hone : AtMostOneOther 1920 1080 oneOther.ladder := by
    unfold AtMostOneOther
    decide
  exact ⟨hone, (no_collision_iff oneOther .new ⟨0⟩ (by decide) rfl).mpr hone⟩

end StreamInfa.Ingest
