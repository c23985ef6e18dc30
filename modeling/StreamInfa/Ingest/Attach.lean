import StreamInfa.Control.Shared
import StreamInfa.Core.Auth

/-!
RTMP connections attaching to streams (`RtmpConnection::handle`).

A connection whose key is accepted resolves it to a stream, looks the stream up and
requires it to be PENDING, or creates a record when there is none. It then waits for
the sequence header, sends StreamStarted and starts the pipeline. The record leaves
PENDING only when the event handler takes StreamStarted from the channel, so a second
connection can pass the same check meanwhile.

`AttachesAlone` is what a connection's check has to meet for the check to keep
others out. `Occupancy` follows a stream from the check of its one connection to the
end of the stream; it is what every step preserves.
-/

namespace StreamInfa.Ingest

open Control

/-! ### Connections -/

/-- Where a connection stands. Connections are numbered; `closed` is also the phase
of a connection that has not been accepted yet. -/
inductive Phase where
  | closed
  | authenticated (streamKey : Text)
  | resolved (streamId : StreamId)
  /-- `get_stream` has found no record, `create_stream` is next. -/
  | absent (streamId : StreamId)
  /-- Attached, waiting for the sequence header. -/
  | waiting (streamId : StreamId)
  /-- StreamStarted is sent and the pipeline runs. -/
  | publishing (streamId : StreamId)
deriving DecidableEq, Repr

/-- The connection has passed the attach check of the stream and is not closed. -/
def Phase.holds (streamId : StreamId) : Phase → Bool
  | .absent id | .waiting id | .publishing id => decide (id = streamId)
  | .closed | .authenticated _ | .resolved _ => false

/-- The manager, the connections and the event channel. `publishers` records which
connections have started a pipeline for a stream since it last ended. -/
structure RtmpServer where
  manager : StreamStateManager
  phases : ℕ → Phase
  events : List PipelineEvent
  publishers : StreamId → List ℕ

inductive RtmpAction where
  /-- Handshake, commands and authentication. -/
  | connect (i : ℕ) (streamKey : Text)
  /-- `resolve_stream_id_for_key`. -/
  | resolve (i : ℕ)
  /-- `get_stream` and the check of its state. -/
  | check (i : ℕ)
  /-- `create_stream` after a `get_stream` that found nothing. -/
  | create (i : ℕ) (now : DateTime)
  /-- The sequence header has arrived: send StreamStarted, start the pipeline. -/
  | start (i : ℕ) (mediaInfo : MediaInfo)
  /-- No usable sequence header arrives in time. -/
  | giveUp (i : ℕ)
  /-- The demux loop returns. -/
  | finish (i : ℕ)
  | abort (i : ℕ) (error : Text)
  /-- The packager of some pipeline sends an event. -/
  | emit (event : PipelineEvent)
  | expect (streamId : StreamId) (count : ℕ)
  /-- The event handler takes the next event. -/
  | handle (now : DateTime)
  /-- The transition to DELETED of the delete handler and of the cleanup task. -/
  | delete (streamId : StreamId) (now : DateTime)
  /-- The cleanup task removes the record of a DELETED stream. -/
  | purge (streamId : StreamId)
deriving DecidableEq, Repr

/-- The event starts or ends its stream. These events come from connections only. -/
def startsOrEnds : PipelineEvent → Bool
  | .streamStarted .. | .streamEnded .. | .streamError .. => true
  | .segmentProduced .. | .vodProgress .. | .renditionComplete .. => false

/-- The event ends its stream. -/
def isEnd : PipelineEvent → Bool
  | .streamEnded .. | .streamError .. => true
  | _ => false

theorem startsOrEnds_of_isEnd {event : PipelineEvent} (h : isEnd event = true) :
    startsOrEnds event = true := by
  cases event with
  | streamEnded | streamError => rfl
  | streamStarted | segmentProduced | vodProgress | renditionComplete => cases h

section Steps

variable {Salt : Type} (H : KeyHashing Salt) (keys : IngestKeyStore)

def RtmpServer.setPhase (s : RtmpServer) (i : ℕ) (phase : Phase) : RtmpServer :=
  { s with phases := Function.update s.phases i phase }

/-- A connection with a key that is bound to no stream creates a stream of its own and
contends with nobody, so only bound keys are resolved here. -/
def rtmpStep (s : RtmpServer) : RtmpAction → Option RtmpServer
  | .connect i streamKey =>
    match s.phases i, validateStreamKey H keys streamKey with
    | .closed, .ok () => some (s.setPhase i (.authenticated streamKey))
    | _, _ => none
  | .resolve i =>
    match s.phases i with
    | .authenticated streamKey =>
      (resolveStreamIdForKey H keys streamKey).map fun id => s.setPhase i (.resolved id)
    | _ => none
  | .check i =>
    match s.phases i with
    | .resolved id =>
      match s.manager.streams.lookup id with
      | some entry => some (s.setPhase i (if entry.state ≠ .pending then .closed else .waiting id))
      | none => some (s.setPhase i (.absent id))
    | _ => none
  | .create i now =>
    match s.phases i with
    | .absent id =>
      some { s.setPhase i (.waiting id) with manager := (s.manager.createStream id .live now).2 }
    | _ => none
  | .start i mediaInfo =>
    match s.phases i with
    | .waiting id =>
      some { s.setPhase i (.publishing id) with
        events := s.events ++ [.streamStarted id mediaInfo]
        publishers := Function.update s.publishers id (i :: s.publishers id) }
    | _ => none
  | .giveUp i =>
    match s.phases i with
    | .waiting _ => some (s.setPhase i .closed)
    | _ => none
  | .finish i =>
    match s.phases i with
    | .publishing id => some { s.setPhase i .closed with events := s.events ++ [.streamEnded id] }
    | _ => none
  | .abort i error =>
    match s.phases i with
    | .publishing id =>
      some { s.setPhase i .closed with events := s.events ++ [.streamError id error] }
    | _ => none
  | .emit event =>
    if startsOrEnds event then none else some { s with events := s.events ++ [event] }
  | .expect id count => some { s with manager := s.manager.setExpectedRenditions id count }
  | .handle now =>
    match s.events with
    | [] => none
    | event :: events =>
      some { s with
        manager := handleEvent s.manager event now
        events := events
        publishers :=
          if isEnd event then Function.update s.publishers event.streamId [] else s.publishers }
  | .delete id now =>
    some { s with manager := orUnchanged s.manager (s.manager.transition id .deleted now) }
  | .purge id =>
    match s.manager.streams.lookup id with
    | some entry =>
      if entry.state = .deleted then some { s with manager := (s.manager.removeStream id).2 }
      else none
    | none => none

end Steps

/-- No connection yet, over any manager. -/
def RtmpServer.start (m : StreamStateManager) : RtmpServer := ⟨m, fun _ => .closed, [], fun _ => []⟩

/-- The check of a connection that passes: no other connection is between its own
check and its StreamStarted being handled, and the record, if there is one, is a live
stream's. -/
def AttachesAlone (s : RtmpServer) : RtmpAction → Prop
  | .check i => ∀ id, s.phases i = .resolved id →
      (∀ entry, s.manager.streams.lookup id = some entry → entry.state = .pending) →
      (∀ j, s.phases j ≠ .absent id ∧ s.phases j ≠ .waiting id) ∧
      (∀ mediaInfo, .streamStarted id mediaInfo ∉ s.events) ∧
      ∀ entry, s.manager.streams.lookup id = some entry → entry.metadata.ingestMode = .live
  | _ => True

/-! ### The occupancy of a stream -/

/-- The events in the channel that start or end the stream. -/
def lifecycleEvents (events : List PipelineEvent) (streamId : StreamId) : List PipelineEvent :=
  events.filter fun event => startsOrEnds event && decide (event.streamId = streamId)

/-- The connection that has started the stream is still publishing, or has sent the
event that ends the stream. -/
inductive Publishing (s : RtmpServer) (streamId : StreamId) (i : ℕ) :
    List PipelineEvent → Prop where
  | running (hi : s.phases i = .publishing streamId)
      (hothers : ∀ j, j ≠ i → (s.phases j).holds streamId = false) : Publishing s streamId i []
  | ended {event : PipelineEvent} (hend : isEnd event = true) (hid : event.streamId = streamId)
      (hnone : ∀ j, (s.phases j).holds streamId = false) : Publishing s streamId i [event]

/-- How far the one connection of a stream has come. -/
inductive Occupancy (s : RtmpServer) (streamId : StreamId) : Prop where
  | free (hholds : ∀ j, (s.phases j).holds streamId = false)
      (hevents : lifecycleEvents s.events streamId = []) (hpublishers : s.publishers streamId = [])
  | creating (i : ℕ) (hi : s.phases i = .absent streamId)
      (hothers : ∀ j, j ≠ i → (s.phases j).holds streamId = false)
      (hevents : lifecycleEvents s.events streamId = []) (hpublishers : s.publishers streamId = [])
      (hrecord : s.manager.streams.lookup streamId = none)
  | attached (i : ℕ) (hi : s.phases i = .waiting streamId)
      (hothers : ∀ j, j ≠ i → (s.phases j).holds streamId = false)
      (hevents : lifecycleEvents s.events streamId = []) (hpublishers : s.publishers streamId = [])
      (entry : StreamEntry) (hrecord : s.manager.streams.lookup streamId = some entry)
      (hpending : entry.state = .pending) (hlive : entry.metadata.ingestMode = .live)
  | starting (i : ℕ) (mediaInfo : MediaInfo) (ends : List PipelineEvent)
      (hpublishing : Publishing s streamId i ends)
      (hevents : lifecycleEvents s.events streamId = .streamStarted streamId mediaInfo :: ends)
      (hpublishers : s.publishers streamId = [i])
      (entry : StreamEntry) (hrecord : s.manager.streams.lookup streamId = some entry)
      (hpending : entry.state = .pending) (hlive : entry.metadata.ingestMode = .live)
  | live (i : ℕ) (ends : List PipelineEvent) (hpublishing : Publishing s streamId i ends)
      (hevents : lifecycleEvents s.events streamId = ends)
      (hpublishers : s.publishers streamId = [i])
      (entry : StreamEntry) (hrecord : s.manager.streams.lookup streamId = some entry)
      (hstate : entry.state = .live)

theorem Occupancy.length_le_one {s : RtmpServer} {streamId : StreamId}
    (h : Occupancy s streamId) : (s.publishers streamId).length ≤ 1 := by
  cases h with
  | free _ _ hp | creating _ _ _ _ hp | attached _ _ _ _ hp =>
    rw [hp]
    exact Nat.zero_le 1
  | starting _ _ _ _ _ hp | live _ _ _ _ hp =>
    rw [hp]
    exact le_refl 1

/-! ### Steps that leave a stream alone -/

/-- An absent record stays absent, a PENDING or LIVE one keeps its state and mode. -/
structure RecordKept (e e' : Option StreamEntry) : Prop where
  none : e = none → e' = none
  some : ∀ entry, e = some entry → entry.state = .pending ∨ entry.state = .live →
    ∃ entry', e' = some entry' ∧ entry'.state = entry.state ∧
      entry'.metadata.ingestMode = entry.metadata.ingestMode

/-- The step changes no connection that holds the stream, no event that starts or ends
it, and keeps its record. -/
structure LeftAlone (s s' : RtmpServer) (streamId : StreamId) : Prop where
  phases : ∀ j, s'.phases j = s.phases j ∨
    (s.phases j).holds streamId = false ∧ (s'.phases j).holds streamId = false
  events : lifecycleEvents s'.events streamId = lifecycleEvents s.events streamId
  publishers : s'.publishers streamId = s.publishers streamId
  record : RecordKept (s.manager.streams.lookup streamId) (s'.manager.streams.lookup streamId)

section Alone

variable {s s' : RtmpServer} {streamId : StreamId}

theorem LeftAlone.holds_eq (h : LeftAlone s s' streamId) (j : ℕ) :
    (s'.phases j).holds streamId = (s.phases j).holds streamId := by
  rcases h.phases j with heq | ⟨hbefore, hafter⟩
  · rw [heq]
  · rw [hbefore, hafter]

theorem LeftAlone.phase_eq (h : LeftAlone s s' streamId) {i : ℕ}
    (hi : (s.phases i).holds streamId = true) : s'.phases i = s.phases i := by
  rcases h.phases i with heq | ⟨hbefore, -⟩
  · exact heq
  · exact absurd (hbefore.symm.trans hi) (by simp)

theorem LeftAlone.others (h : LeftAlone s s' streamId) {P : ℕ → Prop}
    (hothers : ∀ j, P j → (s.phases j).holds streamId = false) :
    ∀ j, P j → (s'.phases j).holds streamId = false := by
  intro j hj
  rw [h.holds_eq]
  exact hothers j hj

theorem Publishing.leftAlone {i : ℕ} {ends : List PipelineEvent}
    (hp : Publishing s streamId i ends) (h : LeftAlone s s' streamId) :
    Publishing s' streamId i ends := by
  cases hp with
  | running hi hothers =>
    exact .running ((h.phase_eq (by simp [hi, Phase.holds])).trans hi) (h.others hothers)
  | ended hend hid hnone =>
    refine .ended hend hid fun j => ?_
    rw [h.holds_eq]
    exact hnone j

theorem Occupancy.leftAlone (ho : Occupancy s streamId) (h : LeftAlone s s' streamId) :
    Occupancy s' streamId := by
  cases ho with
  | free hholds hevents hpublishers =>
    refine .free (fun j => ?_) (h.events.trans hevents) (h.publishers.trans hpublishers)
    rw [h.holds_eq]
    exact hholds j
  | creating i hi hothers hevents hpublishers hrecord =>
    exact .creating i ((h.phase_eq (by simp [hi, Phase.holds])).trans hi) (h.others hothers)
      (h.events.trans hevents) (h.publishers.trans hpublishers) (h.record.none hrecord)
  | attached i hi hothers hevents hpublishers entry hrecord hpending hlive =>
    obtain ⟨entry', hrecord', hstate, hmode⟩ := h.record.some entry hrecord (Or.inl hpending)
    exact .attached i ((h.phase_eq (by simp [hi, Phase.holds])).trans hi) (h.others hothers)
      (h.events.trans hevents) (h.publishers.trans hpublishers) entry' hrecord'
      (hstate.trans hpending) (hmode.trans hlive)
  | starting i mediaInfo ends hpublishing hevents hpublishers entry hrecord hpending hlive =>
    obtain ⟨entry', hrecord', hstate, hmode⟩ := h.record.some entry hrecord (Or.inl hpending)
    exact .starting i mediaInfo ends (hpublishing.leftAlone h) (h.events.trans hevents)
      (h.publishers.trans hpublishers) entry' hrecord' (hstate.trans hpending) (hmode.trans hlive)
  | live i ends hpublishing hevents hpublishers entry hrecord hstate =>
    obtain ⟨entry', hrecord', hstate', -⟩ := h.record.some entry hrecord (Or.inr hstate)
    exact .live i ends (hpublishing.leftAlone h) (h.events.trans hevents)
      (h.publishers.trans hpublishers) entry' hrecord' (hstate'.trans hstate)

theorem RecordKept.refl (e : Option StreamEntry) : RecordKept e e :=
  ⟨id, fun entry he _ => ⟨entry, he, rfl, rfl⟩⟩

theorem recordKept_map {f : StreamEntry → StreamEntry} (e : Option StreamEntry)
    (hf : ∀ entry, entry.state = .pending ∨ entry.state = .live →
      (f entry).state = entry.state ∧
        (f entry).metadata.ingestMode = entry.metadata.ingestMode) :
    RecordKept e (e.map f) := by
  refine ⟨fun he => by rw [he, Option.map_none], fun entry he hstate => ?_⟩
  exact ⟨f entry, by rw [he, Option.map_some], hf entry hstate⟩

@[simp] theorem setPhase_self (s : RtmpServer) (i : ℕ) (phase : Phase) :
    (s.setPhase i phase).phases i = phase := by
  simp [RtmpServer.setPhase]

theorem setPhase_ne (s : RtmpServer) {i j : ℕ} (phase : Phase) (hj : j ≠ i) :
    (s.setPhase i phase).phases j = s.phases j := by
  simp [RtmpServer.setPhase, hj]

/-- A change of one connection's phase that does not concern the stream. -/
theorem leftAlone_setPhase {i : ℕ} {phase : Phase} (hbefore : (s.phases i).holds streamId = false)
    (hafter : phase.holds streamId = false) : LeftAlone s (s.setPhase i phase) streamId := by
  refine ⟨fun j => ?_, rfl, rfl, .refl _⟩
  by_cases hj : j = i
  · subst hj
    refine Or.inr ⟨hbefore, ?_⟩
    rw [setPhase_self]
    exact hafter
  · exact Or.inl (setPhase_ne _ _ hj)

end Alone

/-! ### The one connection of a stream -/

section Holder

variable {s : RtmpServer} {streamId : StreamId} {i : ℕ}

theorem holder_eq {k : ℕ} (hothers : ∀ j, j ≠ k → (s.phases j).holds streamId = false)
    (hi : (s.phases i).holds streamId = true) : i = k := by
  by_contra hne
  exact absurd ((hothers i hne).symm.trans hi) (by simp)

theorem Publishing.holder {k : ℕ} {ends : List PipelineEvent} (h : Publishing s streamId k ends)
    (hi : (s.phases i).holds streamId = true) :
    i = k ∧ s.phases i = .publishing streamId ∧ ends = [] ∧
      ∀ j, j ≠ i → (s.phases j).holds streamId = false := by
  cases h with
  | running hk hothers =>
    obtain rfl := holder_eq hothers hi
    exact ⟨rfl, hk, rfl, hothers⟩
  | ended _ _ hnone => exact absurd ((hnone i).symm.trans hi) (by simp)

theorem Occupancy.of_absent (ho : Occupancy s streamId) (hi : s.phases i = .absent streamId) :
    (∀ j, j ≠ i → (s.phases j).holds streamId = false) ∧ lifecycleEvents s.events streamId = [] ∧
      s.publishers streamId = [] := by
  have hholds : (s.phases i).holds streamId = true := by simp [hi, Phase.holds]
  cases ho with
  | free hnone => exact absurd ((hnone i).symm.trans hholds) (by simp)
  | creating k hk hothers hevents hpublishers =>
    obtain rfl := holder_eq hothers hholds
    exact ⟨hothers, hevents, hpublishers⟩
  | attached k hk hothers =>
    obtain rfl := holder_eq hothers hholds
    exact absurd (hi.symm.trans hk) (by simp)
  | starting k _ ends hpublishing | live k ends hpublishing =>
    obtain ⟨-, hphase, -⟩ := hpublishing.holder hholds
    exact absurd (hi.symm.trans hphase) (by simp)

theorem Occupancy.of_waiting (ho : Occupancy s streamId) (hi : s.phases i = .waiting streamId) :
    (∀ j, j ≠ i → (s.phases j).holds streamId = false) ∧ lifecycleEvents s.events streamId = [] ∧
      s.publishers streamId = [] ∧
      ∃ entry, s.manager.streams.lookup streamId = some entry ∧ entry.state = .pending ∧
        entry.metadata.ingestMode = .live := by
  have hholds : (s.phases i).holds streamId = true := by simp [hi, Phase.holds]
  cases ho with
  | free hnone => exact absurd ((hnone i).symm.trans hholds) (by simp)
  | creating k hk hothers =>
    obtain rfl := holder_eq hothers hholds
    exact absurd (hi.symm.trans hk) (by simp)
  | attached k hk hothers hevents hpublishers entry hrecord hpending hlive =>
    obtain rfl := holder_eq hothers hholds
    exact ⟨hothers, hevents, hpublishers, entry, hrecord, hpending, hlive⟩
  | starting k _ ends hpublishing | live k ends hpublishing =>
    obtain ⟨-, hphase, -⟩ := hpublishing.holder hholds
    exact absurd (hi.symm.trans hphase) (by simp)

/-- After a step by which the stream is held by nobody but `i`. -/
theorem others_setPhase (phase : Phase)
    (hothers : ∀ j, j ≠ i → (s.phases j).holds streamId = false) :
    ∀ j, j ≠ i → ((s.setPhase i phase).phases j).holds streamId = false := by
  intro j hj
  rw [setPhase_ne _ _ hj]
  exact hothers j hj

theorem none_setPhase {phase : Phase} (hphase : phase.holds streamId = false)
    (hothers : ∀ j, j ≠ i → (s.phases j).holds streamId = false) :
    ∀ j, ((s.setPhase i phase).phases j).holds streamId = false := by
  intro j
  by_cases hj : j = i
  · subst hj
    rw [setPhase_self]
    exact hphase
  · exact others_setPhase phase hothers j hj

end Holder

/-! ### The steps of a connection -/

section Connection

variable {s : RtmpServer} {streamId id : StreamId} {i : ℕ}

/-- A passed check takes a free stream. -/
theorem Occupancy.check (ho : Occupancy s streamId) (hi : s.phases i = .resolved id)
    (hok : AttachesAlone s (.check i)) {phase : Phase}
    (hphase : (∃ entry, s.manager.streams.lookup id = some entry ∧ entry.state = .pending ∧
        phase = .waiting id) ∨ s.manager.streams.lookup id = none ∧ phase = .absent id) :
    Occupancy (s.setPhase i phase) streamId := by
  by_cases hid : id = streamId
  · subst hid
    have hpasses : ∀ entry, s.manager.streams.lookup id = some entry → entry.state = .pending := by
      intro entry hentry
      rcases hphase with ⟨entry', hentry', hpending, -⟩ | ⟨hnone, -⟩
      · obtain rfl := Option.some.inj (hentry'.symm.trans hentry)
        exact hpending
      · exact absurd (hnone.symm.trans hentry) (by simp)
    obtain ⟨halone, hnostart, hmode⟩ := hok id hi hpasses
    cases ho with
    | free hholds hevents hpublishers =>
      have hothers := others_setPhase (i := i) phase fun j (_ : j ≠ i) => hholds j
      rcases hphase with ⟨entry, hentry, hpending, rfl⟩ | ⟨hnone, rfl⟩
      · exact .attached i (setPhase_self _ _ _) hothers hevents hpublishers entry hentry hpending
          (hmode entry hentry)
      · exact .creating i (setPhase_self _ _ _) hothers hevents hpublishers hnone
    | creating k hk => exact absurd hk (halone k).1
    | attached k hk => exact absurd hk (halone k).2
    | starting k mediaInfo ends _ hevents =>
      have hmem : .streamStarted id mediaInfo ∈ lifecycleEvents s.events id := by
        rw [hevents]
        exact List.mem_cons_self
      exact absurd (List.mem_of_mem_filter hmem) (hnostart mediaInfo)
    | live k ends _ _ _ entry hrecord hstate =>
      exact absurd ((hpasses entry hrecord).symm.trans hstate) (by simp)
  · refine ho.leftAlone (leftAlone_setPhase (by rw [hi]; rfl) ?_)
    rcases hphase with ⟨-, -, -, rfl⟩ | ⟨-, rfl⟩
    all_goals exact decide_eq_false hid

theorem Occupancy.create (ho : Occupancy s streamId) (hi : s.phases i = .absent id)
    (now : DateTime) :
    Occupancy { s.setPhase i (.waiting id) with
      manager := (s.manager.createStream id .live now).2 } streamId := by
  by_cases hid : id = streamId
  · subst hid
    obtain ⟨hothers, hevents, hpublishers⟩ := ho.of_absent hi
    exact .attached i (setPhase_self _ _ _) (others_setPhase _ hothers) hevents hpublishers _
      (AList.lookup_insert _) rfl rfl
  · have halone : LeftAlone s (s.setPhase i (.waiting id)) streamId :=
      leftAlone_setPhase (by rw [hi]; exact decide_eq_false hid) (decide_eq_false hid)
    refine ho.leftAlone ⟨halone.phases, rfl, rfl, ?_⟩
    have hlookup : (s.manager.createStream id .live now).2.streams.lookup streamId =
        s.manager.streams.lookup streamId := AList.lookup_insert_ne (Ne.symm hid)
    rw [hlookup]
    exact .refl _

theorem Occupancy.giveUp (ho : Occupancy s streamId) (hi : s.phases i = .waiting id) :
    Occupancy (s.setPhase i .closed) streamId := by
  by_cases hid : id = streamId
  · subst hid
    obtain ⟨hothers, hevents, hpublishers, -⟩ := ho.of_waiting hi
    exact .free (none_setPhase rfl hothers) hevents hpublishers
  · exact ho.leftAlone (leftAlone_setPhase (by rw [hi]; exact decide_eq_false hid) rfl)

theorem lifecycleEvents_cons (event : PipelineEvent) (events : List PipelineEvent)
    (streamId : StreamId) :
    lifecycleEvents (event :: events) streamId =
      (if startsOrEnds event && decide (event.streamId = streamId) then [event] else []) ++
        lifecycleEvents events streamId := by
  simp only [lifecycleEvents, List.filter_cons]
  split <;> rfl

/-- Appending an event changes the lifecycle events of its own stream only. -/
theorem lifecycleEvents_concat (events : List PipelineEvent) (event : PipelineEvent)
    (streamId : StreamId) :
    lifecycleEvents (events ++ [event]) streamId =
      lifecycleEvents events streamId ++
        if startsOrEnds event && decide (event.streamId = streamId) then [event] else [] := by
  simp only [lifecycleEvents, List.filter_append, List.filter_cons, List.filter_nil]

theorem Occupancy.start (ho : Occupancy s streamId) (hi : s.phases i = .waiting id)
    (mediaInfo : MediaInfo) :
    Occupancy { s.setPhase i (.publishing id) with
      events := s.events ++ [.streamStarted id mediaInfo]
      publishers := Function.update s.publishers id (i :: s.publishers id) } streamId := by
  have hconcat := lifecycleEvents_concat s.events (.streamStarted id mediaInfo) streamId
  by_cases hid : id = streamId
  · subst hid
    obtain ⟨hothers, hevents, hpublishers, entry, hrecord, hpending, hlive⟩ := ho.of_waiting hi
    rw [hevents] at hconcat
    refine .starting i mediaInfo [] (.running (setPhase_self _ _ _) (others_setPhase _ hothers))
      ?_ ?_ entry hrecord hpending hlive
    · simpa [startsOrEnds, PipelineEvent.streamId] using hconcat
    · rw [hpublishers]
      simp
  · have halone : LeftAlone s (s.setPhase i (.publishing id)) streamId :=
      leftAlone_setPhase (by rw [hi]; exact decide_eq_false hid) (decide_eq_false hid)
    refine ho.leftAlone ⟨halone.phases, ?_, ?_, .refl _⟩
    · simpa [startsOrEnds, PipelineEvent.streamId, hid] using hconcat
    · simp [Ne.symm hid]

/-- The connection of a stream sends the event that ends it. -/
theorem Occupancy.finish (ho : Occupancy s streamId) (hi : s.phases i = .publishing id)
    {event : PipelineEvent} (hend : isEnd event = true) (hevent : event.streamId = id) :
    Occupancy { s.setPhase i .closed with events := s.events ++ [event] } streamId := by
  have hlifecycle := startsOrEnds_of_isEnd hend
  have hconcat := lifecycleEvents_concat s.events event streamId
  rw [hlifecycle, hevent] at hconcat
  by_cases hid : id = streamId
  · subst hid
    have hholds : (s.phases i).holds id = true := by simp [hi, Phase.holds]
    have hdone : ∀ ends k, Publishing s id k ends → ends = [] ∧
        Publishing { s.setPhase i .closed with events := s.events ++ [event] } id k [event] := by
      intro ends k hp
      obtain ⟨-, -, hends, hothers⟩ := hp.holder hholds
      exact ⟨hends, .ended hend hevent (none_setPhase rfl hothers)⟩
    cases ho with
    | free hnone => exact absurd ((hnone i).symm.trans hholds) (by simp)
    | creating k hk hothers | attached k hk hothers =>
      obtain rfl := holder_eq hothers hholds
      exact absurd (hi.symm.trans hk) (by simp)
    | starting k mediaInfo ends hp hevents hpublishers entry hrecord hpending hlive =>
      obtain ⟨rfl, hended⟩ := hdone ends k hp
      refine .starting k mediaInfo [event] hended ?_ hpublishers entry hrecord hpending hlive
      rw [hevents] at hconcat
      simpa using hconcat
    | live k ends hp hevents hpublishers entry hrecord hstate =>
      obtain ⟨rfl, hended⟩ := hdone ends k hp
      refine .live k [event] hended ?_ hpublishers entry hrecord hstate
      rw [hevents] at hconcat
      simpa using hconcat
  · have halone : LeftAlone s (s.setPhase i .closed) streamId :=
      leftAlone_setPhase (by rw [hi]; exact decide_eq_false hid) rfl
    refine ho.leftAlone ⟨halone.phases, ?_, rfl, .refl _⟩
    simpa [hid] using hconcat

end Connection

/-! ### The steps of the other tasks -/

section Others

variable {s : RtmpServer} {streamId : StreamId}

theorem recordKept_modifyEntry (m : StreamStateManager) (id : StreamId)
    {f : StreamEntry → StreamEntry}
    (hf : ∀ entry, entry.state = .pending ∨ entry.state = .live →
      (f entry).state = entry.state ∧
        (f entry).metadata.ingestMode = entry.metadata.ingestMode) :
    RecordKept (m.streams.lookup streamId) ((m.modifyEntry id f).streams.lookup streamId) := by
  by_cases hid : id = streamId
  · subst hid
    rw [StreamStateManager.modifyEntry, Map.lookup_adjust_self]
    exact recordKept_map _ hf
  · rw [StreamStateManager.modifyEntry, Map.lookup_adjust_ne _ _ (Ne.symm hid)]
    exact .refl _

/-- Neither a PENDING nor a LIVE stream can be deleted. -/
theorem recordKept_delete (m : StreamStateManager) (id : StreamId) (now : DateTime) :
    RecordKept (m.streams.lookup streamId)
      ((orUnchanged m (m.transition id .deleted now)).streams.lookup streamId) := by
  by_cases hid : id = streamId
  · subst hid
    rw [lookup_transition_self]
    refine recordKept_map _ fun entry hstate => ?_
    have hmove : entry.moveTo .deleted now = entry := by
      unfold StreamEntry.moveTo
      rcases hstate with h | h
      all_goals simp [StreamStateManager.isValidTransition, h]
    rw [hmove]
    exact ⟨rfl, rfl⟩
  · rw [lookup_transition_ne _ (Ne.symm hid)]
    exact .refl _

theorem recordKept_purge {m : StreamStateManager} {id : StreamId} {entry : StreamEntry}
    (hentry : m.streams.lookup id = some entry) (hdeleted : entry.state = .deleted) :
    RecordKept (m.streams.lookup streamId) ((m.removeStream id).2.streams.lookup streamId) := by
  have hremoved : (m.removeStream id).2.streams = m.streams.erase id := by
    simp only [StreamStateManager.removeStream, hentry]
  rw [hremoved]
  by_cases hid : id = streamId
  · subst hid
    refine ⟨fun hnone => absurd (hnone.symm.trans hentry) (by simp), ?_⟩
    intro entry' hentry' hstate
    obtain rfl := Option.some.inj (hentry.symm.trans hentry')
    rw [hdeleted] at hstate
    simp at hstate
  · rw [AList.lookup_erase_ne (Ne.symm hid)]
    exact .refl _

/-- An event that neither starts nor ends a stream keeps every record. -/
theorem recordKept_handleEvent (m : StreamStateManager) {event : PipelineEvent} (now : DateTime)
    (hevent : (startsOrEnds event && decide (event.streamId = streamId)) = false) :
    RecordKept (m.streams.lookup streamId) ((handleEvent m event now).streams.lookup streamId) := by
  by_cases hid : event.streamId = streamId
  · subst hid
    have hlookup := lookup_controlStep_self m (.event event) now
    simp only [ControlStep.streamId, controlStep] at hlookup
    rw [hlookup]
    refine recordKept_map _ fun entry hstate => ?_
    cases event with
    | streamStarted | streamEnded | streamError => simp [startsOrEnds] at hevent
    | vodProgress => exact ⟨rfl, rfl⟩
    | segmentProduced => exact ⟨rfl, rfl⟩
    | renditionComplete id rendition =>
      -- The automatic transition is for streams in PROCESSING.
      have hdone : (StreamStateManager.noteRenditionComplete entry rendition).2 = false := by
        cases hnote : (StreamStateManager.noteRenditionComplete entry rendition).2 with
        | false => rfl
        | true =>
          obtain ⟨heq, hprocessing, -⟩ := noteRenditionComplete_true (Prod.ext rfl hnote)
          rw [heq] at hprocessing
          have hsame : entry.state = .processing := hprocessing
          rw [hsame] at hstate
          simp at hstate
      simp only [ControlStep.onEntry, hdone]
      rw [noteRenditionComplete_fst]
      exact ⟨rfl, rfl⟩
  · have hlookup := @lookup_controlStep_ne m (.event event) _ now (Ne.symm hid)
    simp only [controlStep] at hlookup
    rw [hlookup]
    exact .refl _

theorem Publishing.of_phases_eq {s' : RtmpServer} {i : ℕ} {ends : List PipelineEvent}
    (h : Publishing s streamId i ends) (hphases : s'.phases = s.phases) :
    Publishing s' streamId i ends := by
  cases h with
  | running hi hothers => exact .running (hphases ▸ hi) (hphases ▸ hothers)
  | ended hend hid hnone => exact .ended hend hid (hphases ▸ hnone)

/-- The next event of the channel, if it starts or ends the stream, is what the
occupancy of the stream says is due. -/
theorem Occupancy.next (ho : Occupancy s streamId) {event : PipelineEvent}
    {rest : List PipelineEvent} (hevents : lifecycleEvents s.events streamId = event :: rest) :
    (∃ i mediaInfo entry, event = .streamStarted streamId mediaInfo ∧
      Publishing s streamId i rest ∧ s.publishers streamId = [i] ∧
      s.manager.streams.lookup streamId = some entry ∧ entry.state = .pending ∧
      entry.metadata.ingestMode = .live) ∨
    (isEnd event = true ∧ rest = [] ∧ ∀ j, (s.phases j).holds streamId = false) := by
  cases ho with
  | free _ hnil | creating _ _ _ hnil | attached _ _ _ hnil =>
    exact absurd (hnil.symm.trans hevents) (by simp)
  | starting i mediaInfo ends hp hstart hpublishers entry hrecord hpending hlive =>
    obtain ⟨rfl, rfl⟩ := List.cons.inj (hstart.symm.trans hevents)
    exact Or.inl ⟨i, mediaInfo, entry, rfl, hp, hpublishers, hrecord, hpending, hlive⟩
  | live i ends hp hends =>
    rw [hends] at hevents
    cases hp with
    | running => cases hevents
    | ended hend hid hnone =>
      obtain ⟨rfl, rfl⟩ := List.cons.inj hevents
      exact Or.inr ⟨hend, rfl, hnone⟩

theorem Occupancy.handle (ho : Occupancy s streamId) {event : PipelineEvent}
    {events : List PipelineEvent} (hevents : s.events = event :: events) (now : DateTime) :
    Occupancy { s with
      manager := handleEvent s.manager event now
      events := events
      publishers :=
        if isEnd event then Function.update s.publishers event.streamId [] else s.publishers }
      streamId := by
  have hcons := lifecycleEvents_cons event events streamId
  rw [← hevents] at hcons
  cases hown : startsOrEnds event && decide (event.streamId = streamId) with
  | false =>
    refine ho.leftAlone ⟨fun _ => Or.inl rfl, ?_, ?_, recordKept_handleEvent s.manager now hown⟩
    · rw [hcons, hown]
      rfl
    · split
      · rename_i hend
        rw [startsOrEnds_of_isEnd hend, Bool.true_and, decide_eq_false_iff_not] at hown
        exact Function.update_of_ne (Ne.symm hown) _ _
      · rfl
  | true =>
    obtain ⟨-, hid⟩ := Bool.and_eq_true_iff.mp hown
    have hid := of_decide_eq_true hid
    rw [hown] at hcons
    rcases ho.next hcons with
      ⟨i, mediaInfo, entry, rfl, hp, hpublishers, hrecord, hpending, hlive⟩ | ⟨hend, hrest, hnone⟩
    · -- StreamStarted finds the record PENDING and moves it to LIVE.
      have hlookup := lookup_controlStep_self s.manager
        (.event (.streamStarted streamId mediaInfo)) now
      simp only [ControlStep.streamId, PipelineEvent.streamId, controlStep, hrecord,
        Option.map_some, ControlStep.onEntry] at hlookup
      refine .live i _ (hp.of_phases_eq rfl) rfl hpublishers _ hlookup ?_
      simp [StreamEntry.moveTo, StreamStateManager.isValidTransition, hpending, hlive]
    · refine .free hnone hrest ?_
      rw [if_pos hend, hid]
      exact Function.update_self _ _ _

end Others

/-! ### Whole runs -/

section Runs

variable {Salt : Type} {H : KeyHashing Salt} {keys : IngestKeyStore}

theorem occupancy_step {s s' : RtmpServer} {a : RtmpAction} (ho : ∀ id, Occupancy s id)
    (hok : AttachesAlone s a) (h : rtmpStep H keys s a = some s') : ∀ id, Occupancy s' id := by
  intro streamId
  have ho := ho streamId
  cases a with
  | connect i streamKey =>
    simp only [rtmpStep] at h
    split at h
    · rename_i hi _
      obtain rfl := Option.some.inj h
      exact ho.leftAlone (leftAlone_setPhase (by rw [hi]; rfl) rfl)
    · cases h
  | resolve i =>
    simp only [rtmpStep] at h
    split at h
    · rename_i hi
      obtain ⟨id, -, rfl⟩ := Option.map_eq_some_iff.mp h
      exact ho.leftAlone (leftAlone_setPhase (by rw [hi]; rfl) rfl)
    · cases h
  | check i =>
    simp only [rtmpStep] at h
    split at h
    · rename_i id hi
      split at h
      · rename_i entry hentry
        obtain rfl := Option.some.inj h
        by_cases hpending : entry.state = .pending
        · rw [if_neg (by simp [hpending])]
          exact ho.check hi hok (Or.inl ⟨entry, hentry, hpending, rfl⟩)
        · rw [if_pos hpending]
          exact ho.leftAlone (leftAlone_setPhase (by rw [hi]; rfl) rfl)
      · rename_i hnone
        obtain rfl := Option.some.inj h
        exact ho.check hi hok (Or.inr ⟨hnone, rfl⟩)
    · cases h
  | create i now =>
    simp only [rtmpStep] at h
    split at h
    · rename_i id hi
      obtain rfl := Option.some.inj h
      exact ho.create hi now
    · cases h
  | start i mediaInfo =>
    simp only [rtmpStep] at h
    split at h
    · rename_i id hi
      obtain rfl := Option.some.inj h
      exact ho.start hi mediaInfo
    · cases h
  | giveUp i =>
    simp only [rtmpStep] at h
    split at h
    · rename_i id hi
      obtain rfl := Option.some.inj h
      exact ho.giveUp hi
    · cases h
  | finish i =>
    simp only [rtmpStep] at h
    split at h
    · rename_i id hi
      obtain rfl := Option.some.inj h
      exact ho.finish hi rfl rfl
    · cases h
  | abort i error =>
    simp only [rtmpStep] at h
    split at h
    · rename_i id hi
      obtain rfl := Option.some.inj h
      exact ho.finish hi rfl rfl
    · cases h
  | emit event =>
    simp only [rtmpStep] at h
    split at h
    · cases h
    · rename_i hevent
      obtain rfl := Option.some.inj h
      refine ho.leftAlone ⟨fun _ => Or.inl rfl, ?_, rfl, .refl _⟩
      rw [lifecycleEvents_concat, Bool.eq_false_iff.mpr hevent]
      exact List.append_nil _
  | expect id count =>
    obtain rfl := Option.some.inj h
    exact ho.leftAlone ⟨fun _ => Or.inl rfl, rfl, rfl,
      recordKept_modifyEntry s.manager id fun _ _ => ⟨rfl, rfl⟩⟩
  | handle now =>
    simp only [rtmpStep] at h
    split at h
    · cases h
    · rename_i event events hevents
      obtain rfl := Option.some.inj h
      exact ho.handle hevents now
  | delete id now =>
    obtain rfl := Option.some.inj h
    exact ho.leftAlone ⟨fun _ => Or.inl rfl, rfl, rfl, recordKept_delete s.manager id now⟩
  | purge id =>
    simp only [rtmpStep] at h
    split at h
    · rename_i entry hentry
      split at h
      · rename_i hdeleted
        obtain rfl := Option.some.inj h
        exact ho.leftAlone ⟨fun _ => Or.inl rfl, rfl, rfl, recordKept_purge hentry hdeleted⟩
      · cases h
    · cases h

/-- **One publisher.** In every run in which each connection that passes its check
attaches alone, at every moment at most one connection has started a pipeline for a
stream since the stream last ended. -/
theorem publishers_le_one {m : StreamStateManager} {as : List RtmpAction}
    (hok : Meets (rtmpStep H keys) AttachesAlone (.start m) as) (n : ℕ) (t : RtmpServer)
    (hrun : run (rtmpStep H keys) (.start m) (as.take n) = some t) (streamId : StreamId) :
    (t.publishers streamId).length ≤ 1 := by
  have ho : ∀ id, Occupancy t id := by
    refine run_invariant_of_meets (fun s a s' hs hok hstep => occupancy_step hs hok hstep) ?_
      (hok.take n) hrun
    intro id
    exact .free (fun _ => rfl) rfl rfl
  exact (ho streamId).length_le_one

end Runs

/-! ### Two encoders with one key -/

/-- A key bound to a stream, and the PENDING record of that stream. -/
def encoderKey : Text := ['k']

def encoderKeys : IngestKeyStore := IngestKeyStore.new.push ⟨"$2b$10$ak".toList, 107, some ⟨1⟩⟩

def createdManager : StreamStateManager := (StreamStateManager.new.createStream ⟨1⟩ .live ⟨0⟩).2

def encoderMedia : MediaInfo :=
  ⟨⟨1⟩, .h264, 640, 480, none, 30, none, none, none, none, none, .flv⟩

/-- The second check runs before the StreamStarted of the first connection is handled. -/
def racingRun : List RtmpAction :=
  [.connect 0 encoderKey, .connect 1 encoderKey, .resolve 0, .resolve 1, .check 0, .check 1,
    .start 0 encoderMedia, .start 1 encoderMedia, .handle ⟨1⟩, .handle ⟨2⟩]

/-- Two connections publish the same stream. -/
theorem two_publishers :
    ∃ t, run (rtmpStep plainHashing encoderKeys) (.start createdManager) racingRun = some t ∧
      t.publishers ⟨1⟩ = [1, 0] ∧ ¬ (t.publishers ⟨1⟩).length ≤ 1 :=
  ⟨_, rfl, rfl, by decide⟩

/-- One connection publishes; the check of a second one comes after. -/
def singleRun : List RtmpAction :=
  [.connect 0 encoderKey, .resolve 0, .check 0, .start 0 encoderMedia, .handle ⟨1⟩,
    .connect 1 encoderKey, .resolve 1, .check 1]

theorem publishers_le_one_singleRun :
    Meets (rtmpStep plainHashing encoderKeys) AttachesAlone (.start createdManager) singleRun ∧
      ∃ t, run (rtmpStep plainHashing encoderKeys) (.start createdManager) (singleRun.take 8) =
        some t ∧ (t.publishers ⟨1⟩).length ≤ 1 := by
  have hmeets : Meets (rtmpStep plainHashing encoderKeys) AttachesAlone (.start createdManager)
      singleRun := by
    refine .cons trivial rfl (.cons trivial rfl (.cons ?_ rfl (.cons trivial rfl (.cons trivial rfl
      (.cons trivial rfl (.cons trivial rfl (.cons ?_ rfl trivial)))))))
    · intro id hid _
      obtain rfl : (⟨1⟩ : StreamId) = id := Phase.resolved.inj hid
      refine ⟨fun j => ?_, fun _ => List.not_mem_nil, ?_⟩
      · cases j with
        | zero => exact ⟨by simp, by simp⟩
        | succ j => exact ⟨nofun, nofun⟩
      · intro entry hentry
        obtain rfl := Option.some.inj hentry
        rfl
    · intro id hid hpending
      obtain rfl : (⟨1⟩ : StreamId) = id := Phase.resolved.inj hid
      cases hpending _ rfl
  exact ⟨hmeets, _, rfl, publishers_le_one hmeets 8 _ rfl ⟨1⟩⟩

end StreamInfa.Ingest
