import StreamInfa.Ingest.FullHeaders
import StreamInfa.Ingest.Negotiation

/-!
The conversation of a publishing client, up to the media.

The client shakes hands, sends its commands and then `publish`; what it sends after that is media.
`serveCommands` is the server's side (`perform_handshake` and `process_commands` in
`src/ingest/rtmp.rs`), with all it writes to the socket. `readServer` is how a client reads that:
the version, the two handshake blocks and then messages in chunks of the default size. The server
takes the commands up to `publish` and nothing behind it, and the client gets its own block back
and the answers to its commands, in their order.
-/

namespace StreamInfa.Ingest

/-! ### Handshake -/

def rtmpVersion : UInt8 := 3

def handshakeSize : ℕ := 1536

inductive HandshakeError where
  | invalidRtmpVersion (version : UInt8)
  | io
deriving DecidableEq, Repr

/-- S0, S1 and S2, which echoes C1. -/
def handshakeResponse (c1 : Bytes) : Bytes :=
  [rtmpVersion] ++ (beBytes 4 0 ++ beBytes 4 0 ++ List.replicate (handshakeSize - 8) 0xAB) ++ c1

/-- What the server writes, and the bytes behind the handshake. -/
def performHandshake (bytes : Bytes) : Bytes × Except HandshakeError Bytes :=
  match bytes with
  | [] => ([], .error .io)
  | c0 :: bytes =>
    if c0 ≠ rtmpVersion then ([], .error (.invalidRtmpVersion c0))
    else
      match takeExact handshakeSize bytes with
      | none => ([], .error .io)
      | some (c1, bytes) =>
        match takeExact handshakeSize bytes with
        | none => (handshakeResponse c1, .error .io)
        | some (_c2, rest) => (handshakeResponse c1, .ok rest)

/-- All that the server writes before the media, and how its command phase ended. -/
def serveCommands (freshId : StreamId) (reads : ℕ) (bytes : Bytes) :
    Bytes × Except HandshakeError (LoopRun Bytes (Except IngestError Text)) :=
  match performHandshake bytes with
  | (response, .error e) => (response, .error e)
  | (response, .ok rest) =>
    let commands := processCommands freshId reads rest
    (response ++ commands.state, .ok commands)

/-! ### The client -/

/-- The chunk size a client uses after a message. -/
def chunkSizeAfter (chunkSize : ℕ) (msg : RtmpMessage) : ℕ :=
  if msg.msgType = .setChunkSize ∧ 4 ≤ msg.data.length then beNat (msg.data.take 4) else chunkSize

/-- The messages of a client, each in the chunk size in force. -/
def clientBytes : ℕ → List FullMessage → Bytes
  | _, [] => []
  | chunkSize, m :: ms => m.bytes chunkSize ++ clientBytes (chunkSizeAfter chunkSize m.message) ms

def chunkSizeAfterAll (chunkSize : ℕ) (ms : List FullMessage) : ℕ :=
  ms.foldl (fun chunkSize m => chunkSizeAfter chunkSize m.message) chunkSize

/-- An AMF0 `publish` command: its transaction number, a null, the stream key and what follows. -/
def publishCommand (transaction : Bytes) (streamKey : Text) (more : Bytes) : Bytes :=
  amfString "publish".toList ++ (0x00 :: transaction) ++ [0x05] ++ amfString streamKey ++ more

/-- What a client makes of the bytes of the server: the block echoed and the messages. -/
def readServer (bytes : Bytes) : Option (Bytes × List RtmpMessage) :=
  match bytes with
  | [] => none
  | s0 :: bytes =>
    if s0 ≠ rtmpVersion then none
    else do
      let (_s1, bytes) ← takeExact handshakeSize bytes
      let (s2, bytes) ← takeExact handshakeSize bytes
      return (s2, decodeAll ChunkReader.new bytes)

/-! ### Answers -/

/-- The answer to a message of the command phase. -/
def answerBytes (msg : RtmpMessage) : Bytes :=
  match msg.msgType with
  | .amfCommand | .amfCommand3 =>
    match parseAmfCommand msg.data with
    | .ok (.connect _) => sendConnectResult
    | .ok .releaseStream | .ok .fcPublish => sendCommandResult
    | .ok .createStream => sendCreateStreamResult
    | _ => []
  | _ => []

/-- The answer, as the messages it stands for. -/
def answers (msg : RtmpMessage) : List RtmpMessage :=
  match msg.msgType with
  | .amfCommand | .amfCommand3 =>
    match parseAmfCommand msg.data with
    | .ok (.connect _) =>
      [⟨.windowAckSize, 0, 0, beBytes 4 2500000⟩, ⟨.setPeerBw, 0, 0, beBytes 4 2500000 ++ [2]⟩,
        ⟨.amfCommand, 0, 0, buildConnectResultAmf⟩]
    | .ok .releaseStream | .ok .fcPublish => [⟨.amfCommand, 0, 0, buildGenericResultAmf⟩]
    | .ok .createStream => [⟨.amfCommand, 0, 0, buildCreateStreamResultAmf⟩]
    | _ => []
  | _ => []

/-- The command phase goes on after the message: it is no `publish`, no `deleteStream` and no
command that cannot be parsed. -/
def GoesOn (msg : RtmpMessage) : Prop :=
  (msg.msgType = .amfCommand ∨ msg.msgType = .amfCommand3) →
    ∃ command, parseAmfCommand msg.data = .ok command ∧
      (∀ streamKey, command ≠ .publish streamKey) ∧ command ≠ .deleteStream

theorem commandHandler_of_goesOn {msg : RtmpMessage} (h : GoesOn msg) (freshId : StreamId)
    (sent : Bytes) : commandHandler freshId sent msg = (sent ++ answerBytes msg, none) := by
  obtain ⟨msgType, timestamp, streamId, data⟩ := msg
  cases msgType with
  | amfCommand =>
    obtain ⟨command, hparse, hpublish, hdelete⟩ := h (Or.inl rfl)
    simp only [commandHandler, answerBytes, hparse]
    cases command with
    | publish streamKey => exact absurd rfl (hpublish streamKey)
    | deleteStream => exact absurd rfl hdelete
    | unknown name => simp
    | connect | releaseStream | fcPublish | createStream => rfl
  | amfCommand3 =>
    obtain ⟨command, hparse, hpublish, hdelete⟩ := h (Or.inr rfl)
    simp only [commandHandler, answerBytes, hparse]
    cases command with
    | publish streamKey => exact absurd rfl (hpublish streamKey)
    | deleteStream => exact absurd rfl hdelete
    | unknown name => simp
    | connect | releaseStream | fcPublish | createStream => rfl
  | audio | video | setChunkSize | acknowledgement | windowAckSize | setPeerBw | userControl
  | unknown => simp [commandHandler, answerBytes]

theorem decodeAll_writeRtmpMessage {msgType : UInt8} {data : Bytes} (hfits : data.length ≤ 128)
    (hcontrol : RtmpMessageType.ofByte msgType ≠ .setChunkSize) (rest : Bytes) :
    decodeAll ChunkReader.new (writeRtmpMessage msgType 0 data ++ rest) =
      ⟨.ofByte msgType, 0, 0, data⟩ :: decodeAll ChunkReader.new rest := by
  have hdata : data.length < 2 ^ 24 := Nat.lt_of_le_of_lt hfits (by decide)
  obtain ⟨m, hbytes, hmessage⟩ := @writeRtmpMessage_eq msgType 0 data hdata 128 hfits
  have hread : ChunkReader.new.readMessage (writeRtmpMessage msgType 0 data ++ rest) =
      some (⟨.ofByte msgType, 0, 0, data⟩, rest) := by
    rw [← hmessage, ← m.readMessage_bytes (Nat.zero_lt_succ 127) rest, ← hbytes]
    rfl
  rw [decodeAll_of_some hread, ChunkReader.applyControl, if_neg fun h => hcontrol h.1]

/-- A client reads the answers as the messages they stand for. -/
theorem decodeAll_answerBytes (msg : RtmpMessage) (rest : Bytes) :
    decodeAll ChunkReader.new (answerBytes msg ++ rest) =
      answers msg ++ decodeAll ChunkReader.new rest := by
  have hconnect : decodeAll ChunkReader.new (sendConnectResult ++ rest) =
      [⟨.windowAckSize, 0, 0, beBytes 4 2500000⟩, ⟨.setPeerBw, 0, 0, beBytes 4 2500000 ++ [2]⟩,
        ⟨.amfCommand, 0, 0, buildConnectResultAmf⟩] ++ decodeAll ChunkReader.new rest := by
    rw [sendConnectResult, List.append_assoc, List.append_assoc,
      decodeAll_writeRtmpMessage (by decide) (by decide),
      decodeAll_writeRtmpMessage (by decide) (by decide),
      decodeAll_writeRtmpMessage (by decide +kernel) (by decide)]
    rfl
  have hresult : decodeAll ChunkReader.new (sendCommandResult ++ rest) =
      ⟨.amfCommand, 0, 0, buildGenericResultAmf⟩ :: decodeAll ChunkReader.new rest := by
    rw [sendCommandResult, decodeAll_writeRtmpMessage (by decide +kernel) (by decide)]
    rfl
  have hcreate : decodeAll ChunkReader.new (sendCreateStreamResult ++ rest) =
      ⟨.amfCommand, 0, 0, buildCreateStreamResultAmf⟩ :: decodeAll ChunkReader.new rest := by
    rw [sendCreateStreamResult, decodeAll_writeRtmpMessage (by decide +kernel) (by decide)]
    rfl
  unfold answerBytes answers
  split
  · split
    · exact hconnect
    · exact hresult
    · exact hresult
    · exact hcreate
    · rfl
  · split
    · exact hconnect
    · exact hresult
    · exact hresult
    · exact hcreate
    · rfl
  · rfl

theorem decodeAll_answers (msgs : List RtmpMessage) :
    decodeAll ChunkReader.new (msgs.flatMap answerBytes) = msgs.flatMap answers := by
  induction msgs with
  | nil => exact decodeAll_of_none (readMessage_nil _)
  | cons msg msgs ih => rw [List.flatMap_cons, decodeAll_answerBytes, ih, List.flatMap_cons]

/-! ### The commands -/

/-- A client that sets chunk sizes within the bounds of the protocol and of the server. -/
def SizesAllowed (ms : List FullMessage) : Prop :=
  ∀ m ∈ ms, m.message.msgType = .setChunkSize → m.message.data.length = 4 ∧
    1 ≤ beNat m.message.data ∧ beNat m.message.data ≤ maxRtmpChunkSize

/-- The reader of the server follows the chunk size of the client. -/
theorem applyControl_eq {m : FullMessage} {chunkSize : ℕ} (hallowed : SizesAllowed [m]) :
    ChunkReader.applyControl ⟨chunkSize⟩ m.message = ⟨chunkSizeAfter chunkSize m.message⟩ := by
  rw [ChunkReader.applyControl, chunkSizeAfter]
  split
  · rename_i hsets
    obtain ⟨hlength, -, hmax⟩ := hallowed m List.mem_cons_self hsets.1
    rw [ChunkReader.setChunkSize, List.take_of_length_le (Nat.le_of_eq hlength),
      Nat.min_eq_left hmax]
  · rfl

theorem chunkSizeAfter_pos {m : FullMessage} {chunkSize : ℕ} (hpos : 0 < chunkSize)
    (hallowed : SizesAllowed [m]) : 0 < chunkSizeAfter chunkSize m.message := by
  rw [chunkSizeAfter]
  split
  · rename_i hsets
    obtain ⟨hlength, hmin, -⟩ := hallowed m List.mem_cons_self hsets.1
    rwa [List.take_of_length_le (Nat.le_of_eq hlength)]
  · exact hpos

theorem readLoop_clientBytes (freshId : StreamId) {ms : List FullMessage} {chunkSize : ℕ}
    (hpos : 0 < chunkSize) (hallowed : SizesAllowed ms) (hgoesOn : ∀ m ∈ ms, GoesOn m.message)
    (reads : ℕ) (sent rest : Bytes) :
    readLoop (commandHandler freshId) (ms.length + reads) ⟨chunkSize⟩ sent
        (clientBytes chunkSize ms ++ rest) =
      let run := readLoop (commandHandler freshId) reads ⟨chunkSizeAfterAll chunkSize ms⟩
        (sent ++ (ms.map FullMessage.message).flatMap answerBytes) rest
      { run with messages := ms.map FullMessage.message ++ run.messages } := by
  induction ms generalizing chunkSize sent with
  | nil => simp [clientBytes, chunkSizeAfterAll]
  | cons m ms ih =>
    have hfirst : SizesAllowed [m] := fun m' hm' =>
      hallowed m' (List.mem_singleton.mp hm' ▸ List.mem_cons_self)
    have hread := m.readMessage_bytes hpos
      (clientBytes (chunkSizeAfter chunkSize m.message) ms ++ rest)
    rw [← List.append_assoc] at hread
    have hlength : (m :: ms).length + reads = ms.length + reads + 1 := by
      rw [List.length_cons]
      omega
    rw [hlength, clientBytes, readLoop_of_next hread
      (commandHandler_of_goesOn (hgoesOn m List.mem_cons_self) freshId sent),
      applyControl_eq hfirst, ih (chunkSizeAfter_pos hpos hfirst)
        (fun m' hm' => hallowed m' (List.mem_cons_of_mem m hm'))
        fun m' hm' => hgoesOn m' (List.mem_cons_of_mem m hm')]
    simp only [List.map_cons, List.flatMap_cons, List.append_assoc, List.cons_append,
      chunkSizeAfterAll, List.foldl_cons]

theorem clientBytes_concat (chunkSize : ℕ) (ms : List FullMessage) (m : FullMessage) :
    clientBytes chunkSize (ms ++ [m]) =
      clientBytes chunkSize ms ++ m.bytes (chunkSizeAfterAll chunkSize ms) := by
  induction ms generalizing chunkSize with
  | nil => simp [clientBytes, chunkSizeAfterAll]
  | cons m' ms ih =>
    rw [List.cons_append, clientBytes, ih, clientBytes, List.append_assoc]
    rfl

theorem chunkSizeAfterAll_pos {ms : List FullMessage} {chunkSize : ℕ} (hpos : 0 < chunkSize)
    (hallowed : SizesAllowed ms) : 0 < chunkSizeAfterAll chunkSize ms := by
  induction ms generalizing chunkSize with
  | nil => exact hpos
  | cons m ms ih =>
    have hfirst : SizesAllowed [m] := fun m' hm' =>
      hallowed m' (List.mem_singleton.mp hm' ▸ List.mem_cons_self)
    exact ih (chunkSizeAfter_pos hpos hfirst) fun m' hm' => hallowed m' (List.mem_cons_of_mem m hm')

/-! ### `publish` -/

theorem extractPublishStreamKey_amfString {streamKey : Text}
    (hkey : (encodeUtf8 streamKey).length < 256 ^ 2) (more : Bytes) :
    extractPublishStreamKey (amfString streamKey ++ more) = some streamKey := by
  have hlength := length_beBytes 2 (encodeUtf8 streamKey).length
  have hnat := beNat_beBytes_of_lt hkey
  rw [amfString, List.cons_append, List.cons_append, List.append_assoc, extractPublishStreamKey]
  have hlong : ¬(beBytes 2 (encodeUtf8 streamKey).length ++
      (encodeUtf8 streamKey ++ more)).length < 2 := by
    rw [List.length_append, hlength]
    omega
  have hwhole : ¬(encodeUtf8 streamKey ++ more).length < (encodeUtf8 streamKey).length := by
    rw [List.length_append]
    omega
  rw [if_neg (by decide), if_pos rfl, if_neg hlong]
  dsimp only
  rw [List.take_left' hlength, List.drop_left' hlength, hnat, if_neg hwhole, List.take_left,
    fromUtf8_encodeUtf8]

theorem extractPublishStreamKey_arguments {transaction : Bytes}
    (htransaction : transaction.length = 8) (arguments : Bytes) :
    extractPublishStreamKey ((0x00 :: transaction) ++ [0x05] ++ arguments) =
      extractPublishStreamKey arguments := by
  rw [List.cons_append, List.cons_append, List.append_assoc, extractPublishStreamKey, if_pos rfl,
    List.drop_left' htransaction, List.singleton_append, extractPublishStreamKey,
    if_neg (by decide), if_neg (by decide)]

/-- The command of a name and what follows it. -/
def commandOf (name : Text) (arguments : Bytes) : RtmpCommand :=
  if name = "connect".toList then .connect ((extractAmfStringField arguments).getD "live".toList)
  else if name = "releaseStream".toList then .releaseStream
  else if name = "FCPublish".toList then .fcPublish
  else if name = "createStream".toList then .createStream
  else if name = "publish".toList then .publish ((extractPublishStreamKey arguments).getD [])
  else if name = "deleteStream".toList then .deleteStream
  else .unknown name

theorem parseAmfCommand_amfString {name : Text}
    (hname : (encodeUtf8 name).length ≤ maxAmfStringLength) (arguments : Bytes) :
    parseAmfCommand (amfString name ++ arguments) = .ok (commandOf name arguments) := by
  have hlt : (encodeUtf8 name).length < 256 ^ 2 := Nat.lt_of_le_of_lt hname (by decide)
  obtain ⟨l₁, l₀, hbytes⟩ := List.length_eq_two.mp (length_beBytes 2 (encodeUtf8 name).length)
  have hlen : beNat [l₁, l₀] = (encodeUtf8 name).length := by
    rw [← hbytes, beNat_beBytes_of_lt hlt]
  have hdata : amfString name ++ arguments =
      0x02 :: l₁ :: l₀ :: (encodeUtf8 name ++ arguments) := by
    rw [amfString, hbytes]
    rfl
  have hshort : ¬ (encodeUtf8 name ++ arguments).length < (encodeUtf8 name).length := by
    rw [List.length_append]
    omega
  rw [hdata]
  simp only [parseAmfCommand, hlen, if_neg (Nat.not_lt.mpr hname), if_neg hshort, List.take_left,
    List.drop_left, fromUtf8_encodeUtf8, commandOf]
  split_ifs <;> rfl

theorem parseAmfCommand_publishCommand {transaction : Bytes} {streamKey : Text}
    (htransaction : transaction.length = 8) (hkey : (encodeUtf8 streamKey).length < 256 ^ 2)
    (more : Bytes) :
    parseAmfCommand (publishCommand transaction streamKey more) = .ok (.publish streamKey) := by
  have hname : (encodeUtf8 "publish".toList).length ≤ maxAmfStringLength := by decide +kernel
  have harguments : extractPublishStreamKey
      ((0x00 :: transaction) ++ [0x05] ++ (amfString streamKey ++ more)) = some streamKey := by
    rw [extractPublishStreamKey_arguments htransaction, extractPublishStreamKey_amfString hkey]
  rw [publishCommand, List.append_assoc, List.append_assoc, List.append_assoc,
    parseAmfCommand_amfString hname, ← List.append_assoc _ [0x05], commandOf, harguments]
  rfl

/-- Every command that starts with a name goes on, except for two. -/
theorem goesOn_of_name {m : FullMessage} {name : Text} {arguments : Bytes}
    (hpayload : m.payload = amfString name ++ arguments)
    (hname : (encodeUtf8 name).length ≤ maxAmfStringLength) (hpublish : name ≠ "publish".toList)
    (hdelete : name ≠ "deleteStream".toList) : GoesOn m.message := by
  intro _
  refine ⟨commandOf name arguments, ?_, ?_⟩
  · rw [← parseAmfCommand_amfString hname, ← hpayload]
    rfl
  · unfold commandOf
    split_ifs <;> simp

theorem commandHandler_publish (freshId : StreamId) (sent : Bytes) {publish : FullMessage}
    (htype : publish.typeId = 20 ∨ publish.typeId = 17) {streamKey : Text}
    (hparse : parseAmfCommand publish.payload = .ok (.publish streamKey)) :
    commandHandler freshId sent publish.message = (sent, some (.ok streamKey)) := by
  rcases htype with htype | htype
  · have hmsgType : publish.message.msgType = .amfCommand := by
      rw [FullMessage.message, htype]
      rfl
    have hdata : publish.message.data = publish.payload := rfl
    simp only [commandHandler, hmsgType, hdata, hparse]
  · have hmsgType : publish.message.msgType = .amfCommand3 := by
      rw [FullMessage.message, htype]
      rfl
    have hdata : publish.message.data = publish.payload := rfl
    simp only [commandHandler, hmsgType, hdata, hparse]

/-! ### The whole conversation -/

theorem performHandshake_append {c1 c2 : Bytes} (hc1 : c1.length = handshakeSize)
    (hc2 : c2.length = handshakeSize) (rest : Bytes) :
    performHandshake (rtmpVersion :: c1 ++ c2 ++ rest) = (handshakeResponse c1, .ok rest) := by
  rw [List.cons_append, List.cons_append, List.append_assoc, performHandshake,
    if_neg (not_not_intro rfl), takeExact_append _ hc1]
  dsimp only
  rw [takeExact_append _ hc2]

theorem readServer_handshakeResponse {c1 : Bytes} (hc1 : c1.length = handshakeSize)
    (bytes : Bytes) :
    readServer (handshakeResponse c1 ++ bytes) = some (c1, decodeAll ChunkReader.new bytes) := by
  have hs1 : (beBytes 4 0 ++ beBytes 4 0 ++ List.replicate (handshakeSize - 8) 0xAB).length =
      handshakeSize := by
    simp only [List.length_append, length_beBytes, List.length_replicate]
    rfl
  rw [handshakeResponse, List.append_assoc, List.append_assoc, List.singleton_append, readServer,
    if_neg (not_not_intro rfl), takeExact_append _ hs1]
  dsimp only [Option.bind_eq_bind, Option.bind_some]
  rw [takeExact_append _ hc1]
  rfl

/-- The server takes the stream key a client publishes and nothing behind the command, whatever
messages that the command phase goes on behind the client has sent before it, in chunks of the sizes
that it set. The client gets the answers to these in their order: three messages to `connect`, one
to the other commands that are known, and none to the rest. -/
theorem publish_conversation (freshId : StreamId) {c1 c2 : Bytes} (hc1 : c1.length = handshakeSize)
    (hc2 : c2.length = handshakeSize) {ms : List FullMessage} (hallowed : SizesAllowed ms)
    (hgoesOn : ∀ m ∈ ms, GoesOn m.message) {publish : FullMessage}
    (htype : publish.typeId = 20 ∨ publish.typeId = 17) {transaction more : Bytes}
    {streamKey : Text} (htransaction : transaction.length = 8)
    (hkey : (encodeUtf8 streamKey).length < 256 ^ 2)
    (hpublish : publish.payload = publishCommand transaction streamKey more) (media : Bytes)
    {reads : ℕ} (hreads : ms.length < reads) :
    ∃ sent commands,
      serveCommands freshId reads (rtmpVersion :: c1 ++ c2 ++
        (clientBytes ChunkReader.new.chunkSize (ms ++ [publish]) ++ media)) = (sent, .ok commands) ∧
      commands.exit = .done (.ok streamKey) ∧ commands.rest = media ∧
      commands.messages = (ms ++ [publish]).map FullMessage.message ∧
      readServer sent = some (c1, (ms.map FullMessage.message).flatMap answers) := by
  have hpos : 0 < ChunkReader.new.chunkSize := Nat.zero_lt_succ 127
  obtain ⟨n, rfl⟩ := Nat.exists_eq_add_of_lt hreads
  have hparse : parseAmfCommand publish.payload = .ok (.publish streamKey) := by
    rw [hpublish]
    exact parseAmfCommand_publishCommand htransaction hkey more
  have hread := publish.readMessage_bytes
    (chunkSizeAfterAll_pos hpos hallowed) media
  have hcommands := readLoop_clientBytes freshId hpos hallowed hgoesOn (n + 1) []
    (publish.bytes (chunkSizeAfterAll ChunkReader.new.chunkSize ms) ++ media)
  rw [readLoop_of_done hread (commandHandler_publish freshId _ htype hparse), List.nil_append]
    at hcommands
  have hserve : serveCommands freshId (ms.length + n + 1) (rtmpVersion :: c1 ++ c2 ++
      (clientBytes ChunkReader.new.chunkSize (ms ++ [publish]) ++ media)) =
      (handshakeResponse c1 ++ (ms.map FullMessage.message).flatMap answerBytes,
        .ok ⟨ms.map FullMessage.message ++ [publish.message], .done (.ok streamKey),
          (ms.map FullMessage.message).flatMap answerBytes,
          ChunkReader.applyControl ⟨chunkSizeAfterAll ChunkReader.new.chunkSize ms⟩ publish.message,
          media⟩) := by
    rw [serveCommands, performHandshake_append hc1 hc2, clientBytes_concat, List.append_assoc,
      Nat.add_assoc]
    simp only [processCommands, hcommands]
  refine ⟨_, _, hserve, rfl, rfl, by rw [List.map_append]; rfl, ?_⟩
  rw [readServer_handshakeResponse hc1, decodeAll_answers]

/-- A client with larger chunks. -/
def encoderMessages : List FullMessage :=
  [⟨2, 0, 1, 0, beBytes 4 4096, Nat.le_of_ble_eq_true rfl, Nat.le_of_ble_eq_true rfl,
      Nat.le_of_ble_eq_true rfl, Nat.le_of_ble_eq_true rfl⟩,
    ⟨3, 0, 20, 0, amfString "createStream".toList ++ amfOne, Nat.le_of_ble_eq_true rfl,
      Nat.le_of_ble_eq_true rfl, Nat.le_of_ble_eq_true rfl, by decide +kernel⟩]

def encoderPublish : FullMessage :=
  ⟨3, 0, 20, 1, publishCommand [0, 0, 0, 0, 0, 0, 0, 0] "sk_live".toList [],
    Nat.le_of_ble_eq_true rfl, Nat.le_of_ble_eq_true rfl, Nat.le_of_ble_eq_true rfl,
    by decide +kernel⟩

theorem publish_conversation_encoder :
    ∃ sent commands,
      serveCommands ⟨0⟩ 3 (rtmpVersion :: List.replicate handshakeSize 1 ++
        List.replicate handshakeSize 0xAB ++
        (clientBytes ChunkReader.new.chunkSize (encoderMessages ++ [encoderPublish]) ++ [9])) =
          (sent, .ok commands) ∧
      commands.exit = .done (.ok "sk_live".toList) ∧ commands.rest = [9] ∧
      commands.messages = (encoderMessages ++ [encoderPublish]).map FullMessage.message ∧
      readServer sent = some (List.replicate handshakeSize 1,
        (encoderMessages.map FullMessage.message).flatMap answers) := by
  have hallowed : SizesAllowed encoderMessages := by
    intro m hm htype
    simp only [encoderMessages, List.mem_cons, List.not_mem_nil, or_false] at hm
    rcases hm with rfl | rfl
    · decide
    · cases htype
  have hgoesOn : ∀ m ∈ encoderMessages, GoesOn m.message := by
    intro m hm
    simp only [encoderMessages, List.mem_cons, List.not_mem_nil, or_false] at hm
    rcases hm with rfl | rfl
    · rintro (htype | htype) <;> cases htype
    · exact goesOn_of_name rfl (by decide +kernel) (by decide) (by decide)
  exact publish_conversation ⟨0⟩ List.length_replicate List.length_replicate hallowed hgoesOn
    (Or.inl rfl) rfl (by decide +kernel) rfl [9] (by decide)

end StreamInfa.Ingest
