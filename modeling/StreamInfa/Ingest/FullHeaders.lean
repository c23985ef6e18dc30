import StreamInfa.Ingest.Amf
import StreamInfa.Ingest.HeaderCompression

/-!
Messages that carry everything themselves.

A message on a chunk stream with a one-byte id, with a full header and no extended
timestamp, inherits nothing, and all its continuation headers are the one byte that the
reader skips. **`read_full_headers`**: such messages are read back for every chunk size
in range, one after the other, whatever bytes follow. They are a part of the
conformant streams of `ChunkStream` (`FullMessage.bytes_eq`), and the answers of the
server are of this form (`writeRtmpMessage_eq`).
-/

namespace StreamInfa.Ingest

/-- A message with a full header. -/
structure FullMessage where
  csid : ℕ
  timestamp : UInt32
  typeId : UInt8
  streamId : UInt32
  payload : Bytes
  csid_ge : 2 ≤ csid
  csid_le : csid ≤ 63
  timestamp_lt : timestamp.toNat < 0xFFFFFF
  payload_lt : payload.length < 2 ^ 24

namespace FullMessage

/-- The message as the receiver should see it. -/
def message (m : FullMessage) : RtmpMessage :=
  ⟨.ofByte m.typeId, m.timestamp, m.streamId, m.payload⟩

/-- Type 0 header, then the payload in pieces of `chunkSize` bytes with a type 3 header
of one byte between two. -/
def bytes (chunkSize : ℕ) (m : FullMessage) : Bytes :=
  UInt8.ofNat m.csid ::
    (beBytes 3 m.timestamp.toNat ++ beBytes 3 m.payload.length ++ [m.typeId] ++
      leBytes 4 m.streamId.toNat ++
      bodyBytes chunkSize [UInt8.ofNat (3 * 64 + m.csid)] m.payload)

/-- The message as one of a conformant chunk stream. -/
def sent (m : FullMessage) : Sent where
  prev := none
  field := m.timestamp
  msg :=
    { header := .type0
      csid := m.csid
      long := false
      timestamp := m.timestamp
      typeId := m.typeId
      streamId := m.streamId
      payload := m.payload
      csid_ge := m.csid_ge
      csid_le := Nat.le_trans m.csid_le (by decide)
      payload_lt := m.payload_lt }

theorem sent_plain (chunkSize : ℕ) (m : FullMessage) : m.sent.Plain chunkSize := by
  constructor
  · intro _
    exact ⟨Nat.lt_succ_of_le m.csid_le, m.timestamp_lt⟩
  · intro htype
    exact absurd htype (by simp [sent])

theorem bytes_eq (chunkSize : ℕ) (m : FullMessage) :
    m.bytes chunkSize = m.sent.bytes chunkSize := by
  have hcsid : m.csid < 64 := Nat.lt_succ_of_le m.csid_le
  have hext : extendedField m.timestamp = [] := if_neg (Nat.not_le.mpr m.timestamp_lt)
  have hshort : shortField m.timestamp = m.timestamp.toNat :=
    Nat.min_eq_left (Nat.le_of_lt m.timestamp_lt)
  have htype : beBytes 1 m.typeId.toNat = [m.typeId] := by
    simp only [beBytes, Nat.pow_zero, Nat.div_one, UInt8.ofNat_toNat]
  simp only [Sent.bytes, Sent.body, Sent.continuation, sent, HeaderType.fmt, basicHeader,
    if_pos hcsid, messageHeader, hext, hshort, htype, List.append_nil, List.nil_append,
    Nat.zero_mul, Nat.zero_add, List.singleton_append, bytes]

/-- One read takes one message and its bytes. -/
theorem readMessage_bytes {chunkSize : ℕ} (hsize : 0 < chunkSize) (m : FullMessage)
    (rest : Bytes) :
    ChunkReader.readMessage ⟨chunkSize⟩ (m.bytes chunkSize ++ rest) = some (m.message, rest) := by
  rw [bytes_eq, Sent.readMessage_bytes hsize (m.sent_plain chunkSize)]
  rfl

end FullMessage

/-- **Messages with full headers are reassembled**: for every chunk size in range a
reader of that chunk size returns exactly the messages that were sent, in order, and
leaves exactly what follows them. The chunk size does not show in what is returned. -/
theorem read_full_headers (reader : ChunkReader) (chunkSize : ℕ) (hpos : 1 ≤ chunkSize)
    (hmax : chunkSize ≤ maxRtmpChunkSize) (messages : List FullMessage) (rest : Bytes) :
    readMessages (reader.setChunkSize chunkSize) messages.length
        (messages.flatMap (FullMessage.bytes chunkSize) ++ rest) =
      some (messages.map FullMessage.message, rest) := by
  have hreader : reader.setChunkSize chunkSize = ⟨chunkSize⟩ := by
    rw [ChunkReader.setChunkSize, Nat.min_eq_left hmax]
  rw [hreader]
  induction messages with
  | nil => rfl
  | cons m messages ih =>
    have hread := m.readMessage_bytes hpos (messages.flatMap (FullMessage.bytes chunkSize) ++ rest)
    rw [List.flatMap_cons, List.append_assoc, List.length_cons, readMessages_succ hread, ih]
    rfl

/-- A video message of three bytes and an audio message of two. -/
def twoMessages : List FullMessage :=
  [⟨6, 1000, 9, 1, [0x17, 0, 1], Nat.le_of_ble_eq_true rfl, Nat.le_of_ble_eq_true rfl,
      Nat.le_of_ble_eq_true rfl, Nat.le_of_ble_eq_true rfl⟩,
    ⟨4, 1001, 8, 1, [0xAF, 1], Nat.le_of_ble_eq_true rfl, Nat.le_of_ble_eq_true rfl,
      Nat.le_of_ble_eq_true rfl, Nat.le_of_ble_eq_true rfl⟩]

theorem read_full_headers_two :
    readMessages (ChunkReader.new.setChunkSize 2) 2
        (twoMessages.flatMap (FullMessage.bytes 2) ++ [0xFF]) =
      some ([⟨.video, 1000, 1, [0x17, 0, 1]⟩, ⟨.audio, 1001, 1, [0xAF, 1]⟩], [0xFF]) :=
  read_full_headers ChunkReader.new 2 (by decide) (by decide) twoMessages [0xFF]

/-! ### The server's answers -/

/-- What the server writes is a message with a full header, as long as one chunk holds it. -/
theorem writeRtmpMessage_eq {msgType : UInt8} {streamId : UInt32} {data : Bytes}
    (hdata : data.length < 2 ^ 24) {chunkSize : ℕ} (hfits : data.length ≤ chunkSize) :
    ∃ m : FullMessage, writeRtmpMessage msgType streamId.toNat data = m.bytes chunkSize ∧
      m.message = ⟨.ofByte msgType, 0, streamId, data⟩ := by
  have hcsid : 2 ≤ (if msgType = 20 then 3 else 2) ∧ (if msgType = 20 then 3 else 2) ≤ 63 := by
    split <;> decide
  refine ⟨⟨if msgType = 20 then 3 else 2, 0, msgType, streamId, data, hcsid.1, hcsid.2,
    by decide, hdata⟩, ?_, rfl⟩
  have hbody : ∀ continuation, bodyBytes chunkSize continuation data = data := by
    intro continuation
    rw [bodyBytes, if_pos (.inr hfits)]
  have hbyte : UInt8.ofNat (if msgType = 20 then 3 else 2) = if msgType = 20 then 3 else 2 := by
    split <;> rfl
  simp only [FullMessage.bytes, hbody, hbyte, writeRtmpMessage, List.cons_append]
  rfl

end StreamInfa.Ingest
