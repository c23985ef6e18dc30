import StreamInfa.Ingest.DemuxErrors
import StreamInfa.Ingest.Negotiation
import StreamInfa.Lib.Permits

/-!
The limits of the RTMP server (`RtmpServer::run` and `RtmpConnection::handle`).

A connection takes a permit of the one semaphore when it is accepted and of the other when its
stream key is authenticated, and gives them back when it ends, whichever way it ends. What its
client, the other tasks and the clock make of it is the choice of the action.

A connection enters the gauge of the active streams when `waitForSequenceHeader` has returned, and
leaves it behind the demux loop. Between the two its resolution is checked once more, and a
connection turned down there would stay in the gauge; but the demuxer has refused such a resolution
before (`resolution_of_readLoop`), so the gauge counts the connections in the demux loop.
-/

namespace StreamInfa.Ingest

/-! ### Connections -/

/-- Where an accepted connection stands. -/
inductive Session where
  | handshaking
  | commanding
  | authenticating (streamKey : Text)
  /-- Authenticated, about to take a stream permit. -/
  | acquiring (streamKey : Text)
  /-- About to find or create the stream of the key. -/
  | resolving (streamKey : Text)
  | waiting (streamId : StreamId)
  | publishing (streamId : StreamId)
  /-- Out of the demux loop, about to send the last event. -/
  | ending (streamId : StreamId) (result : Except IngestError Unit)
  /-- `handle` has returned, the connection permit is still held. -/
  | returned (result : Except IngestError Unit)

/-- The connection holds a stream permit. -/
def Session.isStream : Session → Bool
  | .resolving _ | .waiting _ | .publishing _ | .ending _ _ => true
  | .handshaking | .commanding | .authenticating _ | .acquiring _ | .returned _ => false

def Session.isPublishing : Session → Bool
  | .publishing _ => true
  | _ => false

/-- The two semaphores, the accepted connections, the gauge of the active streams and the errors
counted so far. -/
structure Admission where
  activeConnections : ℕ
  activeStreams : ℕ
  sessions : List Session
  gauge : ℤ
  errors : List IngestError

def Admission.start (maxConcurrentRtmpConnections maxConcurrentLiveStreams : ℕ) : Admission where
  activeConnections := maxConcurrentRtmpConnections
  activeStreams := maxConcurrentLiveStreams
  sessions := []
  gauge := 0
  errors := []

inductive AdmissionAction where
  /-- A client connects. -/
  | accept
  | handshake (i : ℕ)
  /-- The client has sent `publish`. -/
  | publish (i : ℕ) (streamKey : Text)
  | authenticate (i : ℕ)
  /-- Try to take a stream permit. -/
  | acquire (i : ℕ)
  | resolve (i : ℕ) (streamId : StreamId)
  /-- The client sends these bytes, of which up to `reads` messages are read in the wait for the
  sequence header. -/
  | header (i reads : ℕ) (bytes : Bytes)
  /-- The demux loop returns. -/
  | demuxed (i : ℕ) (result : Except IngestError Unit)
  /-- The last event is sent. -/
  | sent (i : ℕ)
  /-- The phase at hand fails, as each phase before the sequence header may. -/
  | fail (i : ℕ) (e : IngestError)
  /-- The task of the connection drops its permit. -/
  | close (i : ℕ)

/-- Move connection `i` on. -/
def Admission.goOn (s : Admission) (i : ℕ) (session : Session) : Admission :=
  { s with sessions := s.sessions.set i session }

/-- `handle` returns from before the stream permit was taken. -/
def Admission.turnAway (s : Admission) (i : ℕ) (e : IngestError) : Admission :=
  s.goOn i (.returned (.error e))

/-- `handle` returns, which gives back the stream permit. -/
def Admission.finish (s : Admission) (i : ℕ) (result : Except IngestError Unit) : Admission :=
  { s.goOn i (.returned result) with activeStreams := s.activeStreams + 1 }

/-- The error a connection is counted with. -/
def errorOf : Except IngestError Unit → List IngestError
  | .error e => [e]
  | .ok () => []

def streamLimitReached : IngestError := .authFailed "active stream limit reached".toList

def admissionStep (s : Admission) : AdmissionAction → Option Admission
  | .accept =>
    if s.activeConnections = 0 then some s
    else some { s with
      activeConnections := s.activeConnections - 1
      sessions := s.sessions ++ [.handshaking] }
  | .handshake i =>
    match s.sessions[i]? with
    | some .handshaking => some (s.goOn i .commanding)
    | _ => none
  | .publish i streamKey =>
    match s.sessions[i]? with
    | some .commanding => some (s.goOn i (.authenticating streamKey))
    | _ => none
  | .authenticate i =>
    match s.sessions[i]? with
    | some (.authenticating streamKey) => some (s.goOn i (.acquiring streamKey))
    | _ => none
  | .acquire i =>
    match s.sessions[i]? with
    | some (.acquiring streamKey) =>
      if s.activeStreams = 0 then some (s.turnAway i streamLimitReached)
      else some { s.goOn i (.resolving streamKey) with activeStreams := s.activeStreams - 1 }
    | _ => none
  | .resolve i streamId =>
    match s.sessions[i]? with
    | some (.resolving _) => some (s.goOn i (.waiting streamId))
    | _ => none
  | .header i reads bytes =>
    match s.sessions[i]? with
    | some (.waiting streamId) =>
      let header := waitForSequenceHeader streamId reads bytes
      match header.exit with
      | .eof => some (s.finish i (.error .io))
      | .cut => some (s.finish i (.error (.missingSequenceHeader sequenceHeaderTimeoutSecs)))
      | .done (.error e) => some (s.finish i (.error e))
      | .done (.ok ()) =>
        let s := { s with gauge := s.gauge + 1 }
        match validateResolution header.state.videoWidth header.state.videoHeight with
        | .error reason => some (s.finish i (.error (.validationFailed reason)))
        | .ok () => some (s.goOn i (.publishing streamId))
    | _ => none
  | .demuxed i result =>
    match s.sessions[i]? with
    | some (.publishing streamId) =>
      some { s.goOn i (.ending streamId result) with gauge := s.gauge - 1 }
    | _ => none
  | .sent i =>
    match s.sessions[i]? with
    | some (.ending _ result) => some (s.finish i result)
    | _ => none
  | .fail i e =>
    match s.sessions[i]? with
    | some .handshaking | some .commanding | some (.authenticating _) => some (s.turnAway i e)
    | some (.resolving _) => some (s.finish i (.error e))
    | _ => none
  | .close i =>
    match s.sessions[i]? with
    | some (.returned result) =>
      some { s with
        activeConnections := s.activeConnections + 1
        sessions := s.sessions.eraseIdx i
        errors := s.errors ++ errorOf result }
    | _ => none

/-! ### The sequence header -/

section Header

variable {d : FlvDemuxer} {msg : RtmpMessage}

/-- A message that is demuxed leaves a resolution in range behind a sequence header. -/
theorem valid_of_demuxed (hvalid : d.hasVideoSeqHeader = true → ValidDimensions d.dimensions)
    {out : Option DemuxedFrame} {d' : FlvDemuxer}
    (hrun : (demuxFlvTag msg).run.run d = (.ok out, d')) :
    d'.hasVideoSeqHeader = true → ValidDimensions d'.dimensions := by
  have huntraced : Untraced d msg := by
    intro e he
    rw [hrun] at he
    cases he
  refine demuxStep_valid hvalid ((untraced_iff_not_changesAndFails d msg).mp huntraced) ?_
  rw [demuxStep, hrun]

/-- What the wait for the sequence header returns with is in range. -/
theorem resolution_of_readLoop {reads : ℕ} {reader : ChunkReader} {bytes : Bytes}
    (hvalid : d.hasVideoSeqHeader = true → ValidDimensions d.dimensions)
    (h : (readLoop headerHandler reads reader d bytes).exit = .done (.ok ())) :
    ValidDimensions (readLoop headerHandler reads reader d bytes).state.dimensions := by
  induction reads generalizing reader d bytes with
  | zero => cases h
  | succ reads ih =>
    cases hread : reader.readMessage bytes with
    | none =>
      rw [readLoop_of_none hread] at h
      cases h
    | some p =>
      obtain ⟨msg, rest⟩ := p
      -- A message that is no media leaves the demuxer alone.
      have hhandled : ∀ {d' result}, headerHandler d msg = (d', result) →
          result = some (.ok ()) ∧ ValidDimensions d'.dimensions ∨
            (∃ e, result = some (.error e)) ∨
            result = none ∧ (d'.hasVideoSeqHeader = true → ValidDimensions d'.dimensions) := by
        intro d' result hhandler
        unfold headerHandler at hhandler
        split at hhandler
        all_goals first
          | (obtain ⟨rfl, rfl⟩ := Prod.mk.inj hhandler
             exact .inr (.inr ⟨rfl, hvalid⟩))
          | (split at hhandler
             · obtain ⟨rfl, rfl⟩ := Prod.mk.inj hhandler
               exact .inr (.inl ⟨_, rfl⟩)
             · rename_i hrun
               obtain ⟨rfl, rfl⟩ := Prod.mk.inj hhandler
               have hnext := valid_of_demuxed hvalid hrun
               split
               · rename_i hseq
                 exact .inl ⟨rfl, hnext hseq⟩
               · exact .inr (.inr ⟨rfl, hnext⟩))
      cases hhandler : headerHandler d msg with
      | mk d' result =>
        rcases hhandled hhandler with ⟨rfl, hnext⟩ | ⟨e, rfl⟩ | ⟨rfl, hnext⟩
        · rwa [readLoop_of_done hread hhandler]
        · rw [readLoop_of_done hread hhandler] at h
          cases h
        · rw [readLoop_of_next hread hhandler] at h ⊢
          exact ih hnext h

theorem validateResolution_of_valid {width height : UInt32}
    (h : ValidDimensions (width, height)) : validateResolution width height = .ok () := by
  obtain ⟨hwidth, hwide, hheight, hhigh⟩ := h
  have hbelow : ¬ (width < minResolution ∨ height < minResolution) := by
    rw [minResolution, UInt32.lt_iff_toNat_lt, UInt32.lt_iff_toNat_lt]
    rw [UInt32.lt_iff_toNat_lt] at hwidth hheight
    exact not_or.mpr ⟨Nat.not_lt.mpr hwidth, Nat.not_lt.mpr hheight⟩
  have habove : ¬ (maxResolutionWidth < width ∨ maxResolutionHeight < height) :=
    not_or.mpr ⟨UInt32.not_lt.mpr hwide, UInt32.not_lt.mpr hhigh⟩
  rw [validateResolution, if_neg hbelow, if_neg habove]

/-- The check behind the wait for the sequence header always succeeds. -/
theorem validateResolution_header {streamId : StreamId} {reads : ℕ} {bytes : Bytes}
    (h : (waitForSequenceHeader streamId reads bytes).exit = .done (.ok ())) :
    validateResolution (waitForSequenceHeader streamId reads bytes).state.videoWidth
      (waitForSequenceHeader streamId reads bytes).state.videoHeight = .ok () := by
  refine validateResolution_of_valid (resolution_of_readLoop ?_ h)
  intro hseq
  cases hseq

end Header

/-! ### What a step does -/

section Step

variable {s s' : Admission} {a : AdmissionAction}

/-- A connection goes on, or `handle` returns. -/
structure Moves (s s' : Admission) (i : ℕ) (session session' : Session) : Prop where
  get : s.sessions[i]? = some session
  sessions : s'.sessions = s.sessions.set i session'
  connections : s'.activeConnections = s.activeConnections
  streams : s'.activeStreams + (if session'.isStream then 1 else 0) =
    s.activeStreams + if session.isStream then 1 else 0
  gauge : s'.gauge + (if session.isPublishing then 1 else 0) =
    s.gauge + if session'.isPublishing then 1 else 0

/-- A connection goes on outside the demux loop. -/
theorem Moves.aside {i : ℕ} {session session' : Session} (hget : s.sessions[i]? = some session)
    (hsessions : s'.sessions = s.sessions.set i session')
    (hconnections : s'.activeConnections = s.activeConnections)
    (hstreams : s'.activeStreams + (if session'.isStream then 1 else 0) =
      s.activeStreams + if session.isStream then 1 else 0)
    (hgauge : s'.gauge = s.gauge)
    (haside : session.isPublishing = false ∧ session'.isPublishing = false) :
    Moves s s' i session session' where
  get := hget
  sessions := hsessions
  connections := hconnections
  streams := hstreams
  gauge := by simp [hgauge, haside]

/-- The task of a connection that has returned ends. -/
structure Closes (s s' : Admission) (i : ℕ) (result : Except IngestError Unit) : Prop where
  get : s.sessions[i]? = some (.returned result)
  sessions : s'.sessions = s.sessions.eraseIdx i
  connections : s'.activeConnections = s.activeConnections + 1
  streams : s'.activeStreams = s.activeStreams
  gauge : s'.gauge = s.gauge

theorem admissionStep_cases (h : admissionStep s a = some s') :
    (a = .accept ∧ s.activeConnections = 0 ∧ s' = s) ∨
    (a = .accept ∧ ∃ n, s.activeConnections = n + 1 ∧ s' = { s with
      activeConnections := n
      sessions := s.sessions ++ [.handshaking] }) ∨
    (∃ i session session', Moves s s' i session session') ∨
    (∃ i result, a = .close i ∧ Closes s s' i result) := by
  cases a with
  | accept =>
    rw [admissionStep] at h
    split at h
    · rename_i hzero
      exact Or.inl ⟨rfl, hzero, (Option.some.inj h).symm⟩
    · rename_i hpos
      obtain ⟨n, hn⟩ := Nat.exists_eq_succ_of_ne_zero hpos
      refine Or.inr (Or.inl ⟨rfl, n, hn, ?_⟩)
      rw [← Option.some.inj h, hn]
      rfl
  | handshake i =>
    rw [admissionStep] at h
    split at h
    · rename_i hget
      obtain rfl := Option.some.inj h
      exact Or.inr (Or.inr (Or.inl ⟨i, _, _, .aside hget rfl rfl rfl rfl ⟨rfl, rfl⟩⟩))
    · cases h
  | publish i streamKey =>
    rw [admissionStep] at h
    split at h
    · rename_i hget
      obtain rfl := Option.some.inj h
      exact Or.inr (Or.inr (Or.inl ⟨i, _, _, .aside hget rfl rfl rfl rfl ⟨rfl, rfl⟩⟩))
    · cases h
  | authenticate i =>
    rw [admissionStep] at h
    split at h
    · rename_i hget
      obtain rfl := Option.some.inj h
      exact Or.inr (Or.inr (Or.inl ⟨i, _, _, .aside hget rfl rfl rfl rfl ⟨rfl, rfl⟩⟩))
    · cases h
  | acquire i =>
    rw [admissionStep] at h
    split at h
    · rename_i streamKey hget
      refine Or.inr (Or.inr (Or.inl ?_))
      split at h
      · obtain rfl := Option.some.inj h
        exact ⟨i, _, _, .aside hget rfl rfl rfl rfl ⟨rfl, rfl⟩⟩
      · rename_i hpos
        obtain rfl := Option.some.inj h
        exact ⟨i, _, _, .aside hget rfl rfl (Nat.succ_pred_eq_of_ne_zero hpos) rfl ⟨rfl, rfl⟩⟩
    · cases h
  | resolve i streamId =>
    rw [admissionStep] at h
    split at h
    · rename_i hget
      obtain rfl := Option.some.inj h
      exact Or.inr (Or.inr (Or.inl ⟨i, _, _, .aside hget rfl rfl rfl rfl ⟨rfl, rfl⟩⟩))
    · cases h
  | header i reads bytes =>
    rw [admissionStep] at h
    split at h
    · rename_i streamId hget
      refine Or.inr (Or.inr (Or.inl ?_))
      dsimp only at h
      split at h
      · obtain rfl := Option.some.inj h
        exact ⟨i, _, _, .aside hget rfl rfl rfl rfl ⟨rfl, rfl⟩⟩
      · obtain rfl := Option.some.inj h
        exact ⟨i, _, _, .aside hget rfl rfl rfl rfl ⟨rfl, rfl⟩⟩
      · obtain rfl := Option.some.inj h
        exact ⟨i, _, _, .aside hget rfl rfl rfl rfl ⟨rfl, rfl⟩⟩
      · rename_i hexit
        rw [validateResolution_header hexit] at h
        obtain rfl := Option.some.inj h
        refine ⟨i, _, _, hget, rfl, rfl, rfl, ?_⟩
        simp [Admission.goOn, Session.isPublishing]
    · cases h
  | demuxed i result =>
    rw [admissionStep] at h
    split at h
    · rename_i streamId hget
      obtain rfl := Option.some.inj h
      refine Or.inr (Or.inr (Or.inl ⟨i, _, _, hget, rfl, rfl, rfl, ?_⟩))
      simp [Session.isPublishing]
    · cases h
  | sent i =>
    rw [admissionStep] at h
    split at h
    · rename_i hget
      obtain rfl := Option.some.inj h
      exact Or.inr (Or.inr (Or.inl ⟨i, _, _, .aside hget rfl rfl rfl rfl ⟨rfl, rfl⟩⟩))
    · cases h
  | fail i e =>
    rw [admissionStep] at h
    refine Or.inr (Or.inr (Or.inl ?_))
    split at h
    all_goals first
      | (rename_i hget
         obtain rfl := Option.some.inj h
         exact ⟨i, _, _, .aside hget rfl rfl rfl rfl ⟨rfl, rfl⟩⟩)
      | cases h
  | close i =>
    rw [admissionStep] at h
    split at h
    · rename_i result hget
      obtain rfl := Option.some.inj h
      exact Or.inr (Or.inr (Or.inr ⟨i, result, rfl, hget, rfl, rfl, rfl, rfl⟩))
    · cases h

end Step

/-! ### Whole runs -/

/-- The permits of both semaphores and the gauge account for the connections there are. -/
structure Admission.Accounts (maxConnections maxStreams : ℕ) (s : Admission) : Prop where
  connections : Accounted (fun _ => true) maxConnections s.activeConnections s.sessions
  streams : Accounted Session.isStream maxStreams s.activeStreams s.sessions
  gauge : s.gauge = s.sessions.countP Session.isPublishing

section Run

variable {maxConnections maxStreams : ℕ} {s s' : Admission} {a : AdmissionAction}

theorem Admission.Accounts.step (h : s.Accounts maxConnections maxStreams)
    (hstep : admissionStep s a = some s') : s'.Accounts maxConnections maxStreams := by
  obtain ⟨hconnections, hstreams, hgauge⟩ := h
  rcases admissionStep_cases hstep with ⟨-, -, rfl⟩ | ⟨-, n, hn, rfl⟩ |
    ⟨i, session, session', hmoves⟩ | ⟨i, result, -, hcloses⟩
  · exact ⟨hconnections, hstreams, hgauge⟩
  · refine ⟨hconnections.concat _ hn.symm, hstreams.concat _ rfl, ?_⟩
    rw [List.countP_append]
    exact hgauge
  · refine ⟨?_, ?_, ?_⟩
    · rw [hmoves.sessions, hmoves.connections]
      exact hconnections.set hmoves.get session' rfl
    · rw [hmoves.sessions]
      exact hstreams.set hmoves.get session' hmoves.streams
    · have hcount := countP_set_add (p := Session.isPublishing) hmoves.get session'
      have hmoved := hmoves.gauge
      rw [hmoves.sessions]
      zify at hcount
      linarith
  · refine ⟨?_, ?_, ?_⟩
    · rw [hcloses.sessions, hcloses.connections]
      exact hconnections.eraseIdx hcloses.get rfl
    · rw [hcloses.sessions, hcloses.streams]
      exact hstreams.eraseIdx hcloses.get rfl
    · have hcount : (s.sessions.eraseIdx i).countP Session.isPublishing =
          s.sessions.countP Session.isPublishing :=
        countP_eraseIdx_add (p := Session.isPublishing) hcloses.get
      rw [hcloses.sessions, hcloses.gauge, hcount]
      exact hgauge

end Run

end StreamInfa.Ingest
