import StreamInfa.Ingest.Connection

/-!
Does the chunk size a client sets survive the phases of its connection?

`decodeAll` is a single reader over the whole connection: it decodes message after
message and applies every SetChunkSize to all later ones. The loops of a connection
do the same as long as the reader is handed on (`decodeAll_readLoop`). But the header
phase starts from a new reader, so a chunk size set before `publish` is lost
(`chunk_size_lost_at_publish`).

**`negotiation_survives_iff`**: a connection that never gets past `publish` decodes
what the single reader does; one that does is sure to, whatever the client sends
next, exactly when the chunk size in force at `publish` is the default.
-/

namespace StreamInfa.Ingest

/-! ### One reader for the whole connection -/

/-- The messages of one reader that applies every SetChunkSize. -/
def decodeAll (reader : ChunkReader) (bytes : Bytes) : List RtmpMessage :=
  match _h : reader.readMessage bytes with
  | none => []
  | some (msg, rest) => msg :: decodeAll (reader.applyControl msg) rest
termination_by bytes.length
decreasing_by exact readMessage_rest_lt _h

theorem decodeAll_of_none {reader : ChunkReader} {bytes : Bytes}
    (h : reader.readMessage bytes = none) : decodeAll reader bytes = [] := by
  rw [decodeAll]
  split
  · rfl
  · rename_i hsome
    rw [h] at hsome
    exact absurd hsome (by simp)

theorem decodeAll_of_some {reader : ChunkReader} {bytes rest : Bytes} {msg : RtmpMessage}
    (h : reader.readMessage bytes = some (msg, rest)) :
    decodeAll reader bytes = msg :: decodeAll (reader.applyControl msg) rest := by
  rw [decodeAll]
  split
  · rename_i hnone
    rw [h] at hnone
    exact absurd hnone (by simp)
  · rename_i msg' rest' hsome
    rw [h] at hsome
    obtain ⟨rfl, rfl⟩ := Prod.mk.inj (Option.some.inj hsome)
    rfl

/-- The connection decodes what the single reader decodes, as far as it reads; to the
end if it ends with the bytes. -/
def Agrees (env : Surroundings) (cuts : Cutoffs) (bytes : Bytes) : Prop :=
  (handle env cuts bytes).messages <+: decodeAll ChunkReader.new bytes ∧
    ((handle env cuts bytes).atEof = true →
      (handle env cuts bytes).messages = decodeAll ChunkReader.new bytes)

/-! ### A loop against the single reader -/

section Loop

variable {σ ρ : Type} {handler : σ → RtmpMessage → σ × Option ρ} {reads : ℕ}
  {reader : ChunkReader} {state : σ} {bytes : Bytes}

theorem readLoop_of_none (h : reader.readMessage bytes = none) :
    readLoop handler (reads + 1) reader state bytes = ⟨[], .eof, state, reader, []⟩ := by
  rw [readLoop, h]

theorem readLoop_of_done {msg : RtmpMessage} {rest : Bytes} {state' : σ} {result : ρ}
    (h : reader.readMessage bytes = some (msg, rest))
    (hhandler : handler state msg = (state', some result)) :
    readLoop handler (reads + 1) reader state bytes =
      ⟨[msg], .done result, state', reader.applyControl msg, rest⟩ := by
  simp only [readLoop, h, hhandler]

theorem readLoop_of_next {msg : RtmpMessage} {rest : Bytes} {state' : σ}
    (h : reader.readMessage bytes = some (msg, rest))
    (hhandler : handler state msg = (state', none)) :
    readLoop handler (reads + 1) reader state bytes =
      { readLoop handler reads (reader.applyControl msg) state' rest with
        messages := msg ::
          (readLoop handler reads (reader.applyControl msg) state' rest).messages } := by
  simp only [readLoop, h, hhandler]

/-- The single reader decodes what a loop decodes, and then what is left for it. -/
theorem decodeAll_readLoop (handler : σ → RtmpMessage → σ × Option ρ) (reads : ℕ)
    (reader : ChunkReader) (state : σ) (bytes : Bytes) :
    decodeAll reader bytes = (readLoop handler reads reader state bytes).messages ++
      decodeAll (readLoop handler reads reader state bytes).reader
        (readLoop handler reads reader state bytes).rest := by
  induction reads generalizing reader state bytes with
  | zero => rfl
  | succ reads ih =>
    cases hread : reader.readMessage bytes with
    | none =>
      rw [readLoop_of_none hread, decodeAll_of_none hread, decodeAll_of_none (readMessage_nil _)]
      rfl
    | some p =>
      obtain ⟨msg, rest⟩ := p
      cases hhandler : handler state msg with
      | mk state' result =>
        cases result with
        | some result => rw [readLoop_of_done hread hhandler, decodeAll_of_some hread]; rfl
        | none =>
          rw [readLoop_of_next hread hhandler, decodeAll_of_some hread, List.cons_append, ← ih]

theorem readLoop_rest_of_eof (h : (readLoop handler reads reader state bytes).exit = .eof) :
    (readLoop handler reads reader state bytes).rest = [] := by
  induction reads generalizing reader state bytes with
  | zero => exact absurd h (by simp [readLoop])
  | succ reads ih =>
    cases hread : reader.readMessage bytes with
    | none => rw [readLoop_of_none hread]
    | some p =>
      obtain ⟨msg, rest⟩ := p
      cases hhandler : handler state msg with
      | mk state' result =>
        cases result with
        | some result =>
          rw [readLoop_of_done hread hhandler] at h
          exact absurd h (by simp)
        | none =>
          rw [readLoop_of_next hread hhandler] at h ⊢
          exact ih h

/-- At the end of the bytes the loop has decoded all there is. -/
theorem messages_of_eof (h : (readLoop handler reads reader state bytes).exit = .eof) :
    (readLoop handler reads reader state bytes).messages = decodeAll reader bytes := by
  rw [decodeAll_readLoop handler reads reader state bytes, readLoop_rest_of_eof h,
    decodeAll_of_none (readMessage_nil _), List.append_nil]

/-- A loop whose handler returned has read some bytes, and would have done the same
with any others behind them and with more reads to spare. -/
theorem readLoop_done {result : ρ}
    (h : (readLoop handler reads reader state bytes).exit = .done result) :
    ∃ used, bytes = used ++ (readLoop handler reads reader state bytes).rest ∧
      ∀ ys more, readLoop handler (reads + more) reader state (used ++ ys) =
        { readLoop handler reads reader state bytes with rest := ys } := by
  induction reads generalizing reader state bytes with
  | zero => exact absurd h (by simp [readLoop])
  | succ reads ih =>
    cases hread : reader.readMessage bytes with
    | none =>
      rw [readLoop_of_none hread] at h
      exact absurd h (by simp)
    | some p =>
      obtain ⟨msg, rest⟩ := p
      obtain ⟨used, rfl, hany⟩ := reader_readMessage reader bytes msg rest hread
      cases hhandler : handler state msg with
      | mk state' result =>
        cases result with
        | some result =>
          rw [readLoop_of_done hread hhandler]
          refine ⟨used, rfl, fun ys more => ?_⟩
          rw [Nat.add_right_comm, readLoop_of_done (hany ys) hhandler]
        | none =>
          rw [readLoop_of_next hread hhandler] at h ⊢
          obtain ⟨used', hrest, hany'⟩ := ih h
          refine ⟨used ++ used', ?_, fun ys more => ?_⟩
          · rw [List.append_assoc, ← hrest]
          · rw [Nat.add_right_comm, List.append_assoc, readLoop_of_next (hany _) hhandler, hany']

end Loop

/-! ### Past `publish` -/

/-- The connection got past `publish`: its stream, and the reader and the bytes that the
command phase leaves. -/
def published (env : Surroundings) (reads : ℕ) (bytes : Bytes) :
    Option (StreamId × ChunkReader × Bytes) :=
  let commands := processCommands env.freshId reads bytes
  match commands.exit with
  | .done (.ok streamKey) =>
    match env.attach streamKey with
    | .ok streamId => some (streamId, commands.reader, commands.rest)
    | .error _ => none
  | _ => none

variable {env : Surroundings} {cuts : Cutoffs} {bytes : Bytes}

/-- What `published` says about the command phase. -/
theorem published_eq_some {reads : ℕ} {streamId : StreamId} {reader : ChunkReader} {rest : Bytes}
    (h : published env reads bytes = some (streamId, reader, rest)) :
    ∃ streamKey, (processCommands env.freshId reads bytes).exit = .done (.ok streamKey) ∧
      env.attach streamKey = .ok streamId ∧
      (processCommands env.freshId reads bytes).reader = reader ∧
      (processCommands env.freshId reads bytes).rest = rest := by
  unfold published at h
  dsimp only at h
  split at h
  · rename_i streamKey hexit
    split at h
    · rename_i streamId' hattach
      obtain ⟨rfl, hrest⟩ := Prod.mk.inj (Option.some.inj h)
      obtain ⟨rfl, rfl⟩ := Prod.mk.inj hrest
      exact ⟨streamKey, hexit, hattach, rfl, rfl⟩
    · exact absurd h (by simp)
  · exact absurd h (by simp)

/-- Getting past `publish` depends neither on the bytes that follow nor on how many more
reads there would have been. -/
theorem published_any_rest {reads : ℕ} {streamId : StreamId} {reader : ChunkReader}
    {commands rest : Bytes}
    (h : published env reads (commands ++ rest) = some (streamId, reader, rest)) (more : ℕ)
    (rest' : Bytes) :
    published env (reads + more) (commands ++ rest') = some (streamId, reader, rest') := by
  obtain ⟨streamKey, hexit, hattach, hreader, hrest⟩ := published_eq_some h
  obtain ⟨used, hused, hany⟩ := readLoop_done hexit
  have hcommands : used = commands := by
    rw [processCommands] at hrest
    rw [hrest] at hused
    exact (List.append_cancel_right hused).symm
  subst hcommands
  have hphase := hany rest' more
  rw [processCommands] at hexit hreader
  simp only [published, processCommands, hphase, hexit, hattach, hreader]

theorem handle_of_published {streamId : StreamId} {reader : ChunkReader} {rest : Bytes}
    (h : published env cuts.commands bytes = some (streamId, reader, rest)) :
    handle env cuts bytes = handleMedia streamId cuts
      (processCommands env.freshId cuts.commands bytes).messages
      (processCommands env.freshId cuts.commands bytes).state rest := by
  obtain ⟨streamKey, hexit, hattach, -, hrest⟩ := published_eq_some h
  simp only [handle, hexit, hattach, hrest]

/-- The media phases hand their reader on. -/
theorem handleMedia_messages (streamId : StreamId) (cuts : Cutoffs) (messages : List RtmpMessage)
    (answers bytes : Bytes) :
    ∃ media, (handleMedia streamId cuts messages answers bytes).messages = messages ++ media ∧
      media <+: decodeAll ChunkReader.new bytes ∧
      ((handleMedia streamId cuts messages answers bytes).atEof = true →
        media = decodeAll ChunkReader.new bytes) := by
  have hheader := decodeAll_readLoop headerHandler cuts.header ChunkReader.new
    (FlvDemuxer.new streamId) bytes
  rw [← waitForSequenceHeader] at hheader
  -- A connection that ends in the header phase has decoded its messages.
  have hprefix : (waitForSequenceHeader streamId cuts.header bytes).messages <+:
      decodeAll ChunkReader.new bytes := ⟨_, hheader.symm⟩
  unfold handleMedia
  dsimp only
  split
  · rename_i hexit
    exact ⟨_, rfl, hprefix, fun _ => messages_of_eof hexit⟩
  · exact ⟨_, rfl, hprefix, fun h => absurd h (by simp)⟩
  · exact ⟨_, rfl, hprefix, fun h => absurd h (by simp)⟩
  · split
    · exact ⟨_, rfl, hprefix, fun h => absurd h (by simp)⟩
    · generalize waitForSequenceHeader streamId cuts.header bytes = header at hheader ⊢
      have hdemux := decodeAll_readLoop demuxHandler cuts.demux header.reader
        ⟨header.state, 0, []⟩ header.rest
      refine ⟨header.messages ++
        (runDemuxLoop header.state header.reader cuts.demux header.rest).messages, ?_, ?_, ?_⟩
      · rw [finishDemuxLoop, List.append_assoc]
      · rw [hheader, hdemux, ← runDemuxLoop, ← List.append_assoc]
        exact List.prefix_append _ _
      · intro heof
        have hexit : (runDemuxLoop header.state header.reader cuts.demux header.rest).exit =
            .eof := by
          unfold finishDemuxLoop at heof
          dsimp only at heof
          split at heof
          · assumption
          · exact absurd heof (by simp)
          · exact absurd heof (by simp)
        rw [hheader, ← messages_of_eof hexit, ← runDemuxLoop]

/-- A connection that stays before `publish`, or leaves it with the default chunk size,
decodes what the single reader does. -/
theorem agrees_of_default
    (h : ∀ streamId reader rest,
      published env cuts.commands bytes = some (streamId, reader, rest) → reader.chunkSize = 128) :
    Agrees env cuts bytes := by
  have hcommands := decodeAll_readLoop (commandHandler env.freshId) cuts.commands
    ChunkReader.new [] bytes
  rw [← processCommands] at hcommands
  cases hpublished : published env cuts.commands bytes with
  | some p =>
    obtain ⟨streamId, reader, rest⟩ := p
    have hdefault : reader = ChunkReader.new := by
      have hsize := h streamId reader rest hpublished
      cases reader
      exact congrArg ChunkReader.mk hsize
    obtain ⟨-, -, -, hreader, hrest⟩ := published_eq_some hpublished
    rw [hreader, hrest, hdefault] at hcommands
    unfold Agrees
    rw [handle_of_published hpublished, hcommands]
    obtain ⟨media, hmedia, hpre, heof⟩ := handleMedia_messages streamId cuts
      (processCommands env.freshId cuts.commands bytes).messages
      (processCommands env.freshId cuts.commands bytes).state rest
    rw [hmedia]
    exact ⟨(List.prefix_append_right_inj _).mpr hpre, fun h => by rw [heof h]⟩
  | none =>
    have hpre : (processCommands env.freshId cuts.commands bytes).messages <+:
        decodeAll ChunkReader.new bytes := ⟨_, hcommands.symm⟩
    unfold Agrees handle
    unfold published at hpublished
    dsimp only at hpublished ⊢
    split
    · rename_i hexit
      exact ⟨hpre, fun _ => messages_of_eof hexit⟩
    · exact ⟨hpre, fun h => absurd h (by simp)⟩
    · exact ⟨hpre, fun h => absurd h (by simp)⟩
    · rename_i streamKey hexit
      rw [hexit] at hpublished
      dsimp only at hpublished
      split
      · exact ⟨hpre, fun h => absurd h (by simp)⟩
      · rename_i streamId hattach
        rw [hattach] at hpublished
        exact absurd hpublished (by simp)

/-! ### A message that tells chunk sizes apart -/

/-- Alternating zeros and ones. -/
def stripes : Bytes := (List.range 300).map fun i => UInt8.ofNat (i % 2)

/-- A message of 129 bytes and of a type that no loop reacts to. -/
def longMessage : Bytes := [4, 0, 0, 0, 0, 0, 129, 18, 0, 0, 0, 0] ++ stripes

/-- What a reader with the default chunk size makes of it. -/
def longMessageByDefault : RtmpMessage := ⟨.unknown 18, 0, 0, stripes.take 128 ++ [1]⟩

theorem readMessage_longMessage (reader : ChunkReader) :
    reader.readMessage longMessage =
      (readBody reader.chunkSize 129 stripes).map fun p => (⟨.unknown 18, 0, 0, p.1⟩, p.2) := by
  have hheader : readBasicHeader longMessage =
      some ((0, 4), [0, 0, 0, 0, 0, 129, 18, 0, 0, 0, 0] ++ stripes) := rfl
  have hfields : readMessageHeader 0 ([0, 0, 0, 0, 0, 129, 18, 0, 0, 0, 0] ++ stripes) =
      some (⟨0, 129, 18, 0⟩, stripes) := by
    decide +kernel
  have htimestamp : readExtendedTimestamp 0 stripes = some (0, stripes) := rfl
  simp only [ChunkReader.readMessage, hheader, hfields, htimestamp, Option.bind_eq_bind,
    Option.bind_some]
  cases readBody reader.chunkSize 129 stripes with
  | none => rfl
  | some p => rfl

theorem readMessage_longMessage_new :
    ChunkReader.new.readMessage longMessage = some (longMessageByDefault, stripes.drop 130) := by
  decide +kernel

/-- Readers with other chunk sizes read another message, or none. -/
theorem readMessage_longMessage_ne {reader : ChunkReader} (hsize : reader.chunkSize ≠ 128)
    (rest : Bytes) : reader.readMessage longMessage ≠ some (longMessageByDefault, rest) := by
  intro h
  rw [readMessage_longMessage] at h
  obtain ⟨⟨data, rest'⟩, hbody, heq⟩ := Option.map_eq_some_iff.mp h
  have hdata : data = stripes.take 128 ++ [1] := congrArg RtmpMessage.data (Prod.mk.inj heq).1
  rcases Nat.lt_or_gt_of_ne hsize with hlt | hgt
  · rcases Nat.eq_zero_or_pos reader.chunkSize with hzero | hpos
    · rw [hzero, readBody_zero_chunkSize (by decide)] at hbody
      exact absurd hbody (by simp)
    · -- The byte after the first chunk is taken one place too late.
      have hbyte := getElem?_readBody_of_lt hpos (by omega) hbody
      have halternate : ∀ i < 128, (stripes.take 128 ++ [1])[i]? ≠ stripes[i + 1]? := by
        decide +kernel
      rw [hdata] at hbyte
      exact halternate _ hlt hbyte
  · -- The whole message is one chunk: no byte is skipped.
    rw [readBody_of_le (by omega)] at hbody
    have hwhole : (takeExact 129 stripes).map Prod.fst ≠ some (stripes.take 128 ++ [1]) := by
      decide +kernel
    rw [hbody, hdata] at hwhole
    exact hwhole rfl

/-- The media phases read it with the default chunk size. -/
theorem handleMedia_longMessage (streamId : StreamId) (reads : ℕ) (messages : List RtmpMessage)
    (answers : Bytes) :
    (handleMedia streamId ⟨reads, 1, 0⟩ messages answers longMessage).messages =
      messages ++ [longMessageByDefault] := by
  have hheader : waitForSequenceHeader streamId 1 longMessage =
      ⟨[longMessageByDefault], .cut, FlvDemuxer.new streamId, ChunkReader.new,
        stripes.drop 130⟩ := by
    rw [waitForSequenceHeader, readLoop_of_next readMessage_longMessage_new rfl]
    rfl
  simp only [handleMedia, hheader]

/-- With another chunk size in force at `publish`, the long message is misread. -/
theorem not_agrees_longMessage {reads : ℕ} {streamId : StreamId} {reader : ChunkReader}
    {commands : Bytes}
    (h : published env reads (commands ++ longMessage) = some (streamId, reader, longMessage))
    (hsize : reader.chunkSize ≠ 128) :
    ¬ Agrees env ⟨reads, 1, 0⟩ (commands ++ longMessage) := by
  rintro ⟨hpre, -⟩
  have hcommands := decodeAll_readLoop (commandHandler env.freshId) reads ChunkReader.new []
    (commands ++ longMessage)
  obtain ⟨-, -, -, hreader, hrest⟩ := published_eq_some h
  rw [processCommands] at hreader hrest
  rw [hreader, hrest, ← processCommands] at hcommands
  rw [handle_of_published h, handleMedia_longMessage, hcommands] at hpre
  have hhead : [longMessageByDefault] <+: decodeAll reader longMessage :=
    (List.prefix_append_right_inj _).mp hpre
  cases hread : reader.readMessage longMessage with
  | none =>
    rw [decodeAll_of_none hread] at hhead
    exact absurd (List.prefix_nil.mp hhead) (by simp)
  | some p =>
    obtain ⟨msg, rest⟩ := p
    rw [decodeAll_of_some hread] at hhead
    obtain ⟨rfl, -⟩ := List.cons_prefix_cons.mp hhead
    exact readMessage_longMessage_ne hsize rest hread

/-! ### The condition -/

/-- The command phase of a connection has one outcome: the reads that were left do not
matter, nor do the bytes behind it. -/
theorem published_reader_unique {reads reads' : ℕ} {streamId streamId' : StreamId}
    {reader reader' : ChunkReader} {commands rest bytes' rest' : Bytes}
    (h : published env reads (commands ++ rest) = some (streamId, reader, rest))
    (h' : published env reads' (commands ++ bytes') = some (streamId', reader', rest')) :
    reader' = reader := by
  obtain ⟨streamKey, hexit, -, -, hrest⟩ := published_eq_some h'
  obtain ⟨used, hused, -⟩ := readLoop_done hexit
  rw [← processCommands, hrest] at hused
  have hthis := published_any_rest h reads' bytes'
  rw [hused] at h' hthis
  have hother := published_any_rest h' reads rest'
  rw [Nat.add_comm, hthis] at hother
  obtain ⟨-, heq⟩ := Prod.mk.inj (Option.some.inj hother)
  exact (Prod.mk.inj heq).1.symm

/-- Every connection that does not get past `publish` decodes the messages of the single
reader. One that does, having read the bytes `commands`, is sure to whatever follows
them exactly when the chunk size in force at `publish` is the default. -/
theorem negotiation_survives_iff (env : Surroundings) :
    (∀ cuts bytes, published env cuts.commands bytes = none → Agrees env cuts bytes) ∧
    ∀ reads commands rest streamId reader,
      published env reads (commands ++ rest) = some (streamId, reader, rest) →
      ((∀ cuts rest', Agrees env cuts (commands ++ rest')) ↔ reader.chunkSize = 128) := by
  refine ⟨fun cuts bytes hnone => ?_, fun reads commands rest streamId reader h => ⟨?_, ?_⟩⟩
  · refine agrees_of_default fun streamId reader rest hsome => ?_
    rw [hnone] at hsome
    exact absurd hsome (by simp)
  · intro hall
    by_contra hsize
    exact not_agrees_longMessage (published_any_rest h 0 longMessage) hsize (hall _ longMessage)
  · intro hsize cuts rest'
    refine agrees_of_default fun streamId' reader' rest'' h' => ?_
    rw [published_reader_unique h h', hsize]

/-! ### Two clients -/

/-- A server that lets everyone in. -/
def openServer : Surroundings := ⟨fun _ => .ok ⟨1⟩, ⟨2⟩⟩

/-- `publish` with the stream key `sk_live`. -/
def publishMessage : Bytes :=
  writeRtmpMessage 20 0 (amfString "publish".toList ++ amfZero ++ [0x05] ++
    amfString "sk_live".toList)

/-- SetChunkSize to 4096. -/
def setChunkSizeMessage : Bytes := writeRtmpMessage 1 0 (beBytes 4 4096)

/-- A client that leaves the chunk size alone until it publishes is understood, whatever
it sends then. -/
theorem negotiation_survives_plain_publish :
    published openServer 1 (publishMessage ++ []) = some (⟨1⟩, ChunkReader.new, []) ∧
      ∀ cuts rest, Agrees openServer cuts (publishMessage ++ rest) := by
  have hpublished : published openServer 1 (publishMessage ++ []) =
      some (⟨1⟩, ChunkReader.new, []) := by
    decide +kernel
  refine ⟨hpublished, ?_⟩
  exact ((negotiation_survives_iff openServer).2 1 publishMessage [] _ _ hpublished).mpr rfl

/-- A client that sets the chunk size before it publishes is misread at its first long
message. -/
theorem chunk_size_lost_at_publish :
    ¬ Agrees openServer ⟨10, 10, 10⟩ (setChunkSizeMessage ++ publishMessage ++ longMessage) := by
  unfold Agrees
  decide +kernel

end StreamInfa.Ingest
