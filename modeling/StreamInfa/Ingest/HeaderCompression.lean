import StreamInfa.Ingest.ChunkStream

/-!
Reading compressed chunk headers.

The chunk reader keeps no state of the chunk streams. What a type 1, 2 or 3 header
leaves out it takes for zero, and the timestamp difference it takes for the timestamp
(`Sent.decoded`); behind a type 2 or 3 header it looks for no payload
(`Sent.leftover`).

**`read_compressed_iff`**: successive reads of a chunk stream return the messages that
were sent exactly when every compressed header stands for values that are zero. The
side condition keeps out what the reader also does not know of: continuation headers
of more than one byte, and extended timestamps behind a type 3 header.
-/

namespace StreamInfa.Ingest

/-- `n` successive reads: the messages and the bytes that are left. -/
def readMessages (reader : ChunkReader) : ℕ → Bytes → Option (List RtmpMessage × Bytes)
  | 0, bytes => some ([], bytes)
  | n + 1, bytes => do
    let (msg, bytes) ← reader.readMessage bytes
    let (msgs, bytes) ← readMessages reader n bytes
    return (msg :: msgs, bytes)

theorem readMessages_succ {reader : ChunkReader} {bytes rest : Bytes} {msg : RtmpMessage}
    (h : reader.readMessage bytes = some (msg, rest)) (n : ℕ) :
    readMessages reader (n + 1) bytes =
      (readMessages reader n rest).map fun p => (msg :: p.1, p.2) := by
  rw [readMessages, h, Option.map_eq_bind]
  rfl

namespace Sent

/-- The message has no continuation header but of one byte, and a type 3 header at its
start carries no extended timestamp. -/
def Plain (chunkSize : ℕ) (s : Sent) : Prop :=
  (chunkSize < s.msg.payload.length → s.msg.csid < 64 ∧ s.field.toNat < 0xFFFFFF) ∧
    (s.msg.header = .type3 → s.field.toNat < 0xFFFFFF)

/-- What a compressed header leaves out is zero: the previous timestamp (for type 3 the
sum with the difference), and the previous stream id, type and length as far as they
are inherited. -/
def InheritsZeros (s : Sent) : Prop :=
  match s.msg.header, s.prev with
  | .type1, some p => p.timestamp = 0 ∧ p.streamId = 0
  | .type2, some p => p.timestamp = 0 ∧ p.streamId = 0 ∧ p.typeId = 0 ∧ p.length = 0
  | .type3, some p =>
    p.timestamp + p.field = 0 ∧ p.streamId = 0 ∧ p.typeId = 0 ∧ p.length = 0
  | _, _ => True

/-- The message that the reader makes of a header. -/
def decoded (s : Sent) : RtmpMessage :=
  match s.msg.header with
  | .type0 => ⟨.ofByte s.msg.typeId, s.field, s.msg.streamId, s.msg.payload⟩
  | .type1 => ⟨.ofByte s.msg.typeId, s.field, 0, s.msg.payload⟩
  | .type2 => ⟨.ofByte 0, s.field, 0, []⟩
  | .type3 => ⟨.ofByte 0, 0, 0, []⟩

/-- The bytes of the message that it leaves for the next read. -/
def leftover (chunkSize : ℕ) (s : Sent) : Bytes :=
  match s.msg.header with
  | .type0 | .type1 => []
  | .type2 | .type3 => s.body chunkSize

variable {chunkSize : ℕ} {s : Sent}

/-! ### One message -/

theorem readBody_body (hsize : 0 < chunkSize) (hplain : s.Plain chunkSize) (rest : Bytes) :
    readBody chunkSize s.msg.payload.length (s.body chunkSize ++ rest) =
      some (s.msg.payload, rest) := by
  refine (bodyRead_bodyBytes hsize fun hlong => ?_).readBody_eq rest
  obtain ⟨hcsid, hfield⟩ := hplain.1 hlong
  rw [continuation, basicHeader, if_pos hcsid, extendedField, if_neg (by omega)]
  rfl

/-- The fields that the reader takes from a header. -/
def fieldsSeen (s : Sent) : MessageHeader :=
  match s.msg.header with
  | .type0 =>
    ⟨.ofNat (shortField s.field), s.msg.payload.length, s.msg.typeId, s.msg.streamId⟩
  | .type1 => ⟨.ofNat (shortField s.field), s.msg.payload.length, s.msg.typeId, 0⟩
  | .type2 => ⟨.ofNat (shortField s.field), 0, 0, 0⟩
  | .type3 => ⟨0, 0, 0, 0⟩

theorem readMessageHeader_messageHeader (s : Sent) (rest : Bytes) :
    readMessageHeader s.msg.header.fmt (messageHeader s.msg.header s.field s.msg ++ rest) =
      some (s.fieldsSeen, rest) := by
  have hts := beNat_beBytes_of_lt (shortField_lt s.field)
  have hlen := beNat_beBytes_of_lt (w := 3) s.msg.payload_lt
  have htype := beNat_beBytes_of_lt (w := 1) s.msg.typeId.toNat_lt
  have hstream := leNat_leBytes_of_lt (w := 4) s.msg.streamId.toNat_lt
  unfold fieldsSeen
  cases s.msg.header with
  | type0 =>
    simp only [HeaderType.fmt, readMessageHeader, messageHeader, List.append_assoc,
      takeExact_beBytes, takeExact_append _ (length_leBytes 4 _), Option.bind_eq_bind,
      Option.bind_some, Option.pure_def, hts, hlen, htype, hstream, UInt8.ofNat_toNat,
      UInt32.ofNat_toNat]
  | type1 =>
    simp only [HeaderType.fmt, readMessageHeader, messageHeader, List.append_assoc,
      takeExact_beBytes, Option.bind_eq_bind, Option.bind_some, Option.pure_def, hts, hlen, htype,
      UInt8.ofNat_toNat]
  | type2 =>
    simp only [HeaderType.fmt, readMessageHeader, messageHeader, takeExact_beBytes,
      Option.bind_eq_bind, Option.bind_some, Option.pure_def, hts]
  | type3 => rfl

/-- What one read makes of the bytes of one message. -/
theorem readMessage_bytes (hsize : 0 < chunkSize) (hplain : s.Plain chunkSize) (rest : Bytes) :
    ChunkReader.readMessage ⟨chunkSize⟩ (s.bytes chunkSize ++ rest) =
      some (s.decoded, s.leftover chunkSize ++ rest) := by
  have hbasic := readBasicHeader_basicHeader s.msg.header.fmt_lt s.msg.csid_ge s.msg.csid_le
    s.msg.long (messageHeader s.msg.header s.field s.msg ++
      (extendedField s.field ++ (s.body chunkSize ++ rest)))
  have hfields := readMessageHeader_messageHeader s
    (extendedField s.field ++ (s.body chunkSize ++ rest))
  have htimestamp := readExtendedTimestamp_extended s.field (s.body chunkSize ++ rest)
  have hbody := readBody_body hsize hplain rest
  have hnone := readBody_zero chunkSize (s.body chunkSize ++ rest)
  have hbytes : s.bytes chunkSize ++ rest = basicHeader s.msg.header.fmt s.msg.csid s.msg.long ++
      (messageHeader s.msg.header s.field s.msg ++
        (extendedField s.field ++ (s.body chunkSize ++ rest))) := by
    simp only [bytes, List.append_assoc]
  rw [hbytes]
  unfold fieldsSeen at hfields
  unfold decoded leftover
  cases hheader : s.msg.header with
  | type0 =>
    rw [hheader] at hbasic hfields
    exact readMessage_of_parts hbasic hfields htimestamp hbody
  | type1 =>
    rw [hheader] at hbasic hfields
    exact readMessage_of_parts hbasic hfields htimestamp hbody
  | type2 =>
    rw [hheader] at hbasic hfields
    exact readMessage_of_parts hbasic hfields htimestamp hnone
  | type3 =>
    -- No timestamp is read, so none is found to be extended.
    have hext : extendedField s.field = [] := by
      have hshort := hplain.2 hheader
      rw [extendedField, if_neg (by omega)]
    rw [hheader] at hbasic hfields
    rw [hext] at hbasic hfields ⊢
    exact readMessage_of_parts hbasic hfields rfl hnone

/-! ### When it is the message that was sent -/

theorem ofByte_zero_eq_iff (typeId : UInt8) :
    RtmpMessageType.ofByte 0 = RtmpMessageType.ofByte typeId ↔ typeId = 0 := by
  constructor
  · intro h
    have hzero : RtmpMessageType.ofByte 0 = .unknown 0 := rfl
    rw [hzero, RtmpMessageType.ofByte] at h
    split at h
    all_goals first | exact (RtmpMessageType.unknown.inj h).symm | exact absurd h (by simp)
  · rintro rfl
    rfl

theorem sub_eq_self_iff (a b : UInt32) : a - b = a ↔ b = 0 := by
  constructor
  · intro h
    have hsum := UInt32.sub_eq_iff_eq_add.mp h
    rwa [← UInt32.add_zero a, UInt32.add_assoc, UInt32.add_right_inj, UInt32.zero_add,
      eq_comm] at hsum
  · rintro rfl
    exact UInt32.sub_zero a

/-- The reader returns the message that was sent exactly when the header leaves out
zeros only. -/
theorem decoded_eq_message_iff (hfield : timestampField s.prev s.msg = some s.field) :
    s.decoded = s.msg.message ↔ s.InheritsZeros := by
  unfold timestampField at hfield
  unfold decoded InheritsZeros Outgoing.message
  split at hfield
  · rename_i hheader
    obtain hts := Option.some.inj hfield
    simp only [hheader, hts]
  · rename_i p hheader hprev
    split at hfield
    · rename_i hstream
      obtain hts := Option.some.inj hfield
      simp only [hheader, hprev, RtmpMessage.mk.injEq, true_and, and_true, ← hts,
        sub_eq_self_iff, ← hstream]
      rw [eq_comm (a := (0 : UInt32))]
    · exact absurd hfield (by simp)
  · rename_i p hheader hprev
    split at hfield
    · rename_i hsame
      obtain ⟨hstream, htype, hlength⟩ := hsame
      obtain hts := Option.some.inj hfield
      simp only [hheader, hprev, RtmpMessage.mk.injEq, ofByte_zero_eq_iff, ← hts,
        sub_eq_self_iff, ← hstream, ← htype, ← hlength, List.length_eq_zero_iff]
      rw [eq_comm (a := (0 : UInt32)), eq_comm (a := ([] : Bytes))]
      tauto
    · exact absurd hfield (by simp)
  · rename_i p hheader hprev
    split at hfield
    · rename_i hsame
      obtain ⟨hstream, htype, hlength, hdelta⟩ := hsame
      have hsum : s.msg.timestamp = p.timestamp + p.field := by
        rw [UInt32.add_comm]
        exact UInt32.sub_eq_iff_eq_add.mp hdelta
      simp only [hheader, hprev, RtmpMessage.mk.injEq, ofByte_zero_eq_iff, ← hsum, ← hstream,
        ← htype, ← hlength, List.length_eq_zero_iff]
      rw [eq_comm (a := (0 : UInt32)), eq_comm (a := ([] : Bytes)),
        eq_comm (a := (0 : UInt32)) (b := s.msg.streamId)]
      tauto
    · exact absurd hfield (by simp)
  · exact absurd hfield (by simp)

/-- A message that was read correctly has been read to its end. -/
theorem leftover_eq_nil (hdecoded : s.decoded = s.msg.message) (chunkSize : ℕ) :
    s.leftover chunkSize = [] := by
  have hdata : s.decoded.data = s.msg.payload := congrArg RtmpMessage.data hdecoded
  unfold leftover
  cases hheader : s.msg.header with
  | type0 => rfl
  | type1 => rfl
  | type2 =>
    have hempty : s.decoded.data = [] := by rw [decoded, hheader]
    simp only [body, ← hdata, hempty, bodyBytes_nil]
  | type3 =>
    have hempty : s.decoded.data = [] := by rw [decoded, hheader]
    simp only [body, ← hdata, hempty, bodyBytes_nil]

end Sent

/-! ### A whole chunk stream -/

/-- `sent.length` reads of the bytes of a chunk stream. -/
theorem readMessages_iff {chunkSize : ℕ} (hsize : 0 < chunkSize) {sent : List Sent}
    (hplain : ∀ s ∈ sent, s.Plain chunkSize)
    (hfield : ∀ s ∈ sent, timestampField s.prev s.msg = some s.field) (rest : Bytes) :
    (readMessages ⟨chunkSize⟩ sent.length (sent.flatMap (Sent.bytes chunkSize) ++ rest)).map
        Prod.fst = some (sent.map fun s => s.msg.message) ↔
      ∀ s ∈ sent, s.InheritsZeros := by
  induction sent with
  | nil => simp [readMessages]
  | cons s sent ih =>
    have ih' := ih (fun t ht => hplain t (List.mem_cons_of_mem _ ht))
      fun t ht => hfield t (List.mem_cons_of_mem _ ht)
    have hread := Sent.readMessage_bytes hsize (hplain s List.mem_cons_self)
      (sent.flatMap (Sent.bytes chunkSize) ++ rest)
    have hs := hfield s List.mem_cons_self
    rw [List.forall_mem_cons, ← Sent.decoded_eq_message_iff hs, List.flatMap_cons,
      List.append_assoc, List.length_cons, readMessages_succ hread, Option.map_map, List.map_cons]
    by_cases hdecoded : s.decoded = s.msg.message
    · -- In step with the sender: the rest is read as if nothing had been before it.
      rw [Sent.leftover_eq_nil hdecoded, List.nil_append, ← ih', hdecoded]
      cases readMessages ⟨chunkSize⟩ sent.length (sent.flatMap (Sent.bytes chunkSize) ++ rest) with
      | none => simp
      | some p => simp
    · refine ⟨fun h => absurd ?_ hdecoded, fun h => absurd h.1 hdecoded⟩
      obtain ⟨p, -, heq⟩ := Option.map_eq_some_iff.mp h
      exact (List.cons.inj heq).1

/-- Successive reads with the sender's chunk size return the messages of a conformant
chunk stream, whatever bytes follow, exactly when its compressed headers leave out
zeros only. -/
theorem read_compressed_iff (chunkSize : ℕ) (hsize : 0 < chunkSize) (messages : List Outgoing)
    (sent : List Sent) (hsent : sendAll ∅ messages = some sent)
    (hplain : ∀ s ∈ sent, s.Plain chunkSize) (rest : Bytes) :
    (readMessages ⟨chunkSize⟩ messages.length
        (sent.flatMap (Sent.bytes chunkSize) ++ rest)).map Prod.fst =
        some (messages.map Outgoing.message) ↔
      ∀ s ∈ sent, s.InheritsZeros := by
  obtain ⟨rfl, hfield⟩ := sendAll_spec hsent
  rw [List.length_map, List.map_map]
  exact readMessages_iff hsize hplain hfield rest

/-! ### Two chunk streams -/

/-- A window acknowledgement size, and a second one with a type 1 header: both at time
zero on message stream zero. -/
def controlMessages : List Outgoing :=
  [⟨.type0, 2, false, 0, 5, 0, [0, 0, 1, 0], by decide, by decide, by decide⟩,
    ⟨.type1, 2, false, 0, 5, 0, [0, 0, 2, 0], by decide, by decide, by decide⟩]

/-- Two video messages on message stream 1, the second 40 ms after the first. -/
def videoMessages : List Outgoing :=
  [⟨.type0, 6, false, 1000, 9, 1, [0x17, 0], by decide, by decide, by decide⟩,
    ⟨.type1, 6, false, 1040, 9, 1, [0x27, 1], by decide, by decide, by decide⟩]

theorem read_compressed_control :
    ∃ sent, sendAll ∅ controlMessages = some sent ∧ ∀ rest,
      (readMessages ChunkReader.new 2 (sent.flatMap (Sent.bytes 128) ++ rest)).map Prod.fst =
        some (controlMessages.map Outgoing.message) := by
  refine ⟨_, rfl, fun rest => ?_⟩
  refine (read_compressed_iff 128 (by decide) controlMessages _ rfl ?_ rest).mpr ?_
  · intro s hs
    simp only [List.mem_cons, List.not_mem_nil, or_false] at hs
    rcases hs with rfl | rfl
    · exact ⟨fun h => absurd h (by decide), fun h => absurd h (by decide)⟩
    · exact ⟨fun h => absurd h (by decide), fun h => absurd h (by decide)⟩
  · intro s hs
    simp only [List.mem_cons, List.not_mem_nil, or_false] at hs
    rcases hs with rfl | rfl
    · trivial
    · exact ⟨rfl, rfl⟩

/-- The second video message comes out with the difference as its timestamp and on message
stream zero. -/
theorem read_compressed_video_wrong :
    ∃ sent, sendAll ∅ videoMessages = some sent ∧
      (readMessages ChunkReader.new 2 (sent.flatMap (Sent.bytes 128))).map Prod.fst =
        some [⟨.video, 1000, 1, [0x17, 0]⟩, ⟨.video, 40, 0, [0x27, 1]⟩] ∧
      (readMessages ChunkReader.new 2 (sent.flatMap (Sent.bytes 128))).map Prod.fst ≠
        some (videoMessages.map Outgoing.message) := by
  refine ⟨_, rfl, ?_, ?_⟩
  · decide +kernel
  · decide +kernel

end StreamInfa.Ingest
