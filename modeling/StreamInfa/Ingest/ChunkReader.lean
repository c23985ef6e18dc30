import StreamInfa.Lib.Reader

/-!
The RTMP chunk reader (`src/ingest/rtmp.rs`).

The bytes of the socket are a list: what the client sends before it closes the
connection. `ChunkReader.readMessage` takes one message off its front and fails, as
the code does with an I/O error, when they run out first.

* `readMessage_append`: a message that was read does not depend on the bytes after it.
* `readMessage_rest_lt`: reading a message consumes bytes.
* `bodyRead_of_readBody`: a payload is read from its chunks, with one byte skipped
  between two; `BodyRead` is the induction of what is proved about it.
-/

namespace StreamInfa.Ingest

/-! ### Messages -/

/-- RTMP message types. -/
inductive RtmpMessageType where
  | audio
  | video
  | amfCommand
  | amfCommand3
  | setChunkSize
  | acknowledgement
  | windowAckSize
  | setPeerBw
  | userControl
  | unknown (id : UInt8)
deriving DecidableEq, Repr

def RtmpMessageType.ofByte (val : UInt8) : RtmpMessageType :=
  match val.toNat with
  | 1 => .setChunkSize
  | 3 => .acknowledgement
  | 4 => .userControl
  | 5 => .windowAckSize
  | 6 => .setPeerBw
  | 8 => .audio
  | 9 => .video
  | 17 => .amfCommand3
  | 20 => .amfCommand
  | _ => .unknown val

/-- A parsed RTMP message. -/
structure RtmpMessage where
  msgType : RtmpMessageType
  timestamp : UInt32
  streamId : UInt32
  data : Bytes
deriving DecidableEq, Repr

/-! ### Chunk headers -/

/-- The fields of a chunk's message header. -/
structure MessageHeader where
  timestamp : UInt32
  msgLength : ℕ
  msgTypeId : UInt8
  streamId : UInt32
deriving DecidableEq, Repr

/-- The format and the chunk stream id of a basic header of one to three bytes. -/
def readBasicHeader : Bytes → Option ((ℕ × ℕ) × Bytes)
  | [] => none
  | first :: bytes =>
    let fmt := first.toNat / 64
    match first.toNat % 64 with
    | 0 => (takeExact 1 bytes).map fun (b, rest) => ((fmt, beNat b + 64), rest)
    | 1 => (takeExact 2 bytes).map fun (b, rest) => ((fmt, leNat b + 64), rest)
    | csid => some ((fmt, csid), bytes)

/-- The message header of a chunk. What the shorter formats leave out is zero. -/
def readMessageHeader (fmt : ℕ) (bytes : Bytes) : Option (MessageHeader × Bytes) :=
  match fmt with
  | 0 => do
    let (ts, bytes) ← takeExact 3 bytes
    let (len, bytes) ← takeExact 3 bytes
    let (typeId, bytes) ← takeExact 1 bytes
    let (sid, bytes) ← takeExact 4 bytes
    return (⟨.ofNat (beNat ts), beNat len, .ofNat (beNat typeId), .ofNat (leNat sid)⟩, bytes)
  | 1 => do
    let (ts, bytes) ← takeExact 3 bytes
    let (len, bytes) ← takeExact 3 bytes
    let (typeId, bytes) ← takeExact 1 bytes
    return (⟨.ofNat (beNat ts), beNat len, .ofNat (beNat typeId), 0⟩, bytes)
  | 2 => do
    let (ts, bytes) ← takeExact 3 bytes
    return (⟨.ofNat (beNat ts), 0, 0, 0⟩, bytes)
  | _ => some (⟨0, 0, 0, 0⟩, bytes)

/-- The timestamp, from the extended field when the header's own is all ones. -/
def readExtendedTimestamp (timestamp : UInt32) (bytes : Bytes) : Option (UInt32 × Bytes) :=
  if timestamp = 0xFFFFFF then (takeExact 4 bytes).map fun (ext, rest) => (.ofNat (beNat ext), rest)
  else some (timestamp, bytes)

/-- The payload, in chunks of `chunkSize` bytes with one byte skipped between two. A
chunk size of zero skips bytes until there are none left. -/
def readBody (chunkSize remaining : ℕ) (bytes : Bytes) : Option (Bytes × Bytes) :=
  if remaining = 0 then some ([], bytes)
  else
    let toRead := min remaining chunkSize
    match _hread : takeExact toRead bytes with
    | none => none
    | some (piece, rest) =>
      if remaining - toRead = 0 then some (piece, rest)
      else
        match rest with
        | [] => none
        | _cont :: rest =>
          (readBody chunkSize (remaining - toRead) rest).map fun (data, rest) =>
            (piece ++ data, rest)
termination_by bytes.length
decreasing_by
  obtain ⟨rfl, -⟩ := takeExact_eq_some _hread
  simp only [List.length_append, List.length_cons]
  omega

/-! ### The reader -/

def maxRtmpChunkSize : ℕ := 65536

/-- The reader keeps nothing but the size of the chunks. -/
structure ChunkReader where
  chunkSize : ℕ
deriving DecidableEq, Repr

namespace ChunkReader

def new : ChunkReader := ⟨128⟩

def setChunkSize (_reader : ChunkReader) (size : ℕ) : ChunkReader := ⟨min size maxRtmpChunkSize⟩

/-- Read one message; `none` is the end of the bytes. -/
def readMessage (reader : ChunkReader) (bytes : Bytes) : Option (RtmpMessage × Bytes) := do
  let ((fmt, _csid), bytes) ← readBasicHeader bytes
  let (header, bytes) ← readMessageHeader fmt bytes
  let (timestamp, bytes) ← readExtendedTimestamp header.timestamp bytes
  let (data, bytes) ← readBody reader.chunkSize header.msgLength bytes
  return (⟨.ofByte header.msgTypeId, timestamp, header.streamId, data⟩, bytes)

/-- What every loop over messages does with a SetChunkSize message. -/
def applyControl (reader : ChunkReader) (msg : RtmpMessage) : ChunkReader :=
  if msg.msgType = .setChunkSize ∧ 4 ≤ msg.data.length then
    reader.setChunkSize (beNat (msg.data.take 4))
  else reader

end ChunkReader

/-! ### What a message consumes -/

theorem reader_readBasicHeader : Reader readBasicHeader := by
  intro bytes fmtCsid rest h
  cases bytes with
  | nil => exact absurd h (by simp [readBasicHeader])
  | cons first bytes =>
    -- The first byte decides how many more follow; the rest is a reader of its own.
    have htail : Reader fun bytes => readBasicHeader (first :: bytes) := by
      unfold readBasicHeader
      dsimp only
      split
      · exact (reader_takeExact 1).map fun b => (first.toNat / 64, beNat b + 64)
      · exact (reader_takeExact 2).map fun b => (first.toNat / 64, leNat b + 64)
      · exact Reader.pure _
    obtain ⟨used, rfl, hany⟩ := htail bytes fmtCsid rest h
    exact ⟨first :: used, rfl, hany⟩

theorem reader_readMessageHeader (fmt : ℕ) : Reader (readMessageHeader fmt) := by
  unfold readMessageHeader
  split
  · exact (reader_takeExact 3).bind fun ts => (reader_takeExact 3).bind fun len =>
      (reader_takeExact 1).bind fun typeId => (reader_takeExact 4).bind fun sid =>
        Reader.pure (MessageHeader.mk (.ofNat (beNat ts)) (beNat len) (.ofNat (beNat typeId))
          (.ofNat (leNat sid)))
  · exact (reader_takeExact 3).bind fun ts => (reader_takeExact 3).bind fun len =>
      (reader_takeExact 1).bind fun typeId =>
        Reader.pure (MessageHeader.mk (.ofNat (beNat ts)) (beNat len) (.ofNat (beNat typeId)) 0)
  · exact (reader_takeExact 3).bind fun ts =>
      Reader.pure (MessageHeader.mk (.ofNat (beNat ts)) 0 0 0)
  · exact Reader.pure _

theorem reader_readExtendedTimestamp (timestamp : UInt32) :
    Reader (readExtendedTimestamp timestamp) := by
  unfold readExtendedTimestamp
  by_cases hall : timestamp = 0xFFFFFF
  · simp only [if_pos hall]
    exact (reader_takeExact 4).map fun ext => UInt32.ofNat (beNat ext)
  · simp only [if_neg hall]
    exact Reader.pure timestamp

theorem readBody_zero (chunkSize : ℕ) (bytes : Bytes) :
    readBody chunkSize 0 bytes = some ([], bytes) := by
  rw [readBody, if_pos rfl]

/-- A payload that fits one chunk is the next bytes as they stand. -/
theorem readBody_of_le {chunkSize remaining : ℕ} (h : remaining ≤ chunkSize) (bytes : Bytes) :
    readBody chunkSize remaining bytes = takeExact remaining bytes := by
  by_cases hzero : remaining = 0
  · rw [hzero, readBody_zero, takeExact_zero]
  · rw [readBody, if_neg hzero]
    dsimp only
    split
    · rename_i hread
      rw [Nat.min_eq_left h] at hread
      exact hread.symm
    · rename_i piece rest hread
      rw [Nat.min_eq_left h] at hread
      rw [if_pos (by omega), hread]

/-- A longer payload is one chunk, a skipped byte and the payload that is left. -/
theorem readBody_of_lt {chunkSize remaining : ℕ} (h : chunkSize < remaining) (bytes : Bytes) :
    readBody chunkSize remaining bytes =
      (takeExact chunkSize bytes).bind fun p =>
        (takeExact 1 p.2).bind fun q =>
          (readBody chunkSize (remaining - chunkSize) q.2).map fun r => (p.1 ++ r.1, r.2) := by
  have hmin : min remaining chunkSize = chunkSize := by omega
  rw [readBody, if_neg (by omega)]
  dsimp only
  split
  · rename_i hread
    rw [hmin] at hread
    rw [hread, Option.bind_none]
  · rename_i piece rest hread
    rw [hmin] at hread
    rw [if_neg (by omega), hread, Option.bind_some]
    cases rest with
    | nil => rfl
    | cons cont rest =>
      rw [takeExact_one_cons, Option.bind_some]
      dsimp only
      rw [hmin]

/-- The bytes a payload is read from: its last chunk as it stands, or a chunk and a
skipped byte in front of the bytes of the payload that is left. -/
inductive BodyRead (chunkSize : ℕ) : ℕ → Bytes → Bytes → Prop
  | last {remaining : ℕ} {piece : Bytes} (hle : remaining ≤ chunkSize)
      (hlen : piece.length = remaining) : BodyRead chunkSize remaining piece piece
  | chunk {remaining : ℕ} {piece cont used data : Bytes} (hlt : chunkSize < remaining)
      (hlen : piece.length = chunkSize) (hcont : cont.length = 1)
      (htail : BodyRead chunkSize (remaining - chunkSize) used data) :
      BodyRead chunkSize remaining (piece ++ (cont ++ used)) (piece ++ data)

section BodyRead

variable {chunkSize remaining : ℕ} {used data rest : Bytes}

theorem BodyRead.readBody_eq (h : BodyRead chunkSize remaining used data) (rest : Bytes) :
    readBody chunkSize remaining (used ++ rest) = some (data, rest) := by
  induction h with
  | last hle hlen => rw [readBody_of_le hle, takeExact_append rest hlen]
  | chunk hlt hlen hcont _ ih =>
    rw [readBody_of_lt hlt, List.append_assoc, List.append_assoc, takeExact_append _ hlen,
      Option.bind_some, takeExact_append _ hcont, Option.bind_some, ih, Option.map_some]

/-- What the reader makes of the bytes is read from the front of them. -/
theorem bodyRead_of_readBody {bytes : Bytes}
    (h : readBody chunkSize remaining bytes = some (data, rest)) :
    ∃ used, bytes = used ++ rest ∧ BodyRead chunkSize remaining used data := by
  induction hn : bytes.length using Nat.strong_induction_on generalizing bytes remaining data with
  | _ n ih =>
    rcases Nat.lt_or_ge chunkSize remaining with hlt | hle
    · rw [readBody_of_lt hlt] at h
      obtain ⟨⟨piece, r₁⟩, hpiece, h⟩ := Option.bind_eq_some_iff.mp h
      obtain ⟨⟨cont, r₂⟩, hcont, h⟩ := Option.bind_eq_some_iff.mp h
      obtain ⟨⟨tail, r₃⟩, htail, heq⟩ := Option.map_eq_some_iff.mp h
      obtain ⟨rfl, rfl⟩ := Prod.mk.inj heq
      obtain ⟨rfl, hpieceLen⟩ := takeExact_eq_some hpiece
      obtain ⟨rfl, hcontLen⟩ := takeExact_eq_some hcont
      have hshort : r₂.length < n := by
        simp only [List.length_append, hcontLen] at hn
        omega
      obtain ⟨used, rfl, hread⟩ := ih _ hshort htail rfl
      exact ⟨piece ++ (cont ++ used), by simp only [List.append_assoc],
        .chunk hlt hpieceLen hcontLen hread⟩
    · rw [readBody_of_le hle] at h
      obtain ⟨rfl, hlen⟩ := takeExact_eq_some h
      exact ⟨data, rfl, .last hle hlen⟩

theorem reader_readBody (chunkSize remaining : ℕ) : Reader (readBody chunkSize remaining) := by
  intro bytes data rest h
  obtain ⟨used, hbytes, hread⟩ := bodyRead_of_readBody h
  exact ⟨used, hbytes, hread.readBody_eq⟩

/-- Without room for payload in a chunk, no payload is ever complete. -/
theorem readBody_zero_chunkSize (h : 0 < remaining) (bytes : Bytes) :
    readBody 0 remaining bytes = none := by
  refine Option.eq_none_iff_forall_ne_some.mpr fun ⟨data, rest⟩ hsome => ?_
  obtain ⟨used, -, hread⟩ := bodyRead_of_readBody hsome
  clear hsome
  induction hread with
  | last hle => exact absurd hle (Nat.not_le.mpr h)
  | chunk _ _ _ _ ih => exact ih h

/-- The first payload byte is the next byte. -/
theorem BodyRead.head? (h : BodyRead chunkSize remaining used data) (hsize : 0 < chunkSize)
    (hpos : 0 < remaining) (rest : Bytes) : data.head? = (used ++ rest).head? := by
  cases h with
  | last _ hlen => exact (List.head?_append_of_ne_nil _ (List.ne_nil_of_length_pos (by omega))).symm
  | chunk _ hlen =>
    have hne := List.ne_nil_of_length_pos (hlen.symm ▸ hsize)
    rw [List.append_assoc, List.head?_append_of_ne_nil _ hne, List.head?_append_of_ne_nil _ hne]

/-- The payload byte behind the first chunk is the one behind the skipped byte. -/
theorem getElem?_readBody_of_lt {bytes : Bytes} (hsize : 0 < chunkSize)
    (hlt : chunkSize < remaining)
    (h : readBody chunkSize remaining bytes = some (data, rest)) :
    data[chunkSize]? = bytes[chunkSize + 1]? := by
  obtain ⟨used, rfl, hread⟩ := bodyRead_of_readBody h
  cases hread with
  | last hle => exact absurd hlt (Nat.not_lt.mpr hle)
  | chunk _ hlen hcont htail =>
    have hhead := htail.head? hsize (Nat.sub_pos_of_lt hlt) rest
    rw [List.append_assoc, List.append_assoc, List.getElem?_append_right (by omega),
      List.getElem?_append_right (by omega), List.getElem?_append_right (by omega), hlen, hcont,
      Nat.sub_self, Nat.add_sub_cancel_left, Nat.sub_self, ← List.head?_eq_getElem?, hhead,
      List.head?_eq_getElem?]

end BodyRead

theorem reader_readMessage (reader : ChunkReader) : Reader reader.readMessage := by
  exact reader_readBasicHeader.bind fun p => (reader_readMessageHeader p.1).bind fun header =>
    (reader_readExtendedTimestamp header.timestamp).bind fun timestamp =>
      (reader_readBody reader.chunkSize header.msgLength).bind fun data =>
        Reader.pure (RtmpMessage.mk (.ofByte header.msgTypeId) timestamp header.streamId data)

theorem readMessage_of_parts {reader : ChunkReader} {bytes r₁ r₂ r₃ rest data : Bytes}
    {fmt csid : ℕ} {header : MessageHeader} {timestamp : UInt32}
    (hbasic : readBasicHeader bytes = some ((fmt, csid), r₁))
    (hheader : readMessageHeader fmt r₁ = some (header, r₂))
    (htimestamp : readExtendedTimestamp header.timestamp r₂ = some (timestamp, r₃))
    (hbody : readBody reader.chunkSize header.msgLength r₃ = some (data, rest)) :
    reader.readMessage bytes =
      some (⟨.ofByte header.msgTypeId, timestamp, header.streamId, data⟩, rest) := by
  simp only [ChunkReader.readMessage, hbasic, hheader, htimestamp, hbody, Option.bind_eq_bind,
    Option.bind_some, Option.pure_def]

theorem readMessage_nil (reader : ChunkReader) : reader.readMessage [] = none := rfl

/-- Reading a message consumes bytes. -/
theorem readMessage_rest_lt {reader : ChunkReader} {bytes rest : Bytes} {msg : RtmpMessage}
    (h : reader.readMessage bytes = some (msg, rest)) : rest.length < bytes.length := by
  obtain ⟨used, rfl, hany⟩ := reader_readMessage reader bytes msg rest h
  cases used with
  | nil =>
    -- Nothing consumed: the message would also be read from no bytes at all.
    have hnil := hany []
    rw [List.append_nil, readMessage_nil] at hnil
    exact absurd hnil (by simp)
  | cons b used =>
    simp only [List.cons_append, List.length_cons, List.length_append]
    omega

end StreamInfa.Ingest
