import StreamInfa.Ingest.HeaderCompression

/-!
Continuation headers of more than one byte.

Between two chunks of a message the reader skips one byte. The type 3 header that stands
there has two or three bytes on a chunk stream with an id of 64 or more, and four more
behind a timestamp that is extended. Here only messages with a type 0 header are looked at,
which inherit nothing (`Outgoing.alone`, `bytes_eq_alone`).

The argument counts bytes: `length_bodyRead` is what the reader takes for a payload,
`length_bodyBytes` what the payload takes on the wire. **`wide_continuation_misread`**: with
a wider continuation header no read takes exactly the bytes of the message.
`readMessage_alone_iff` has the messages with narrow ones too.
-/

namespace StreamInfa.Ingest

/-! ### Counting bytes -/

/-- How many continuation headers a payload of `length` bytes needs. -/
def continuations (chunkSize length : ℕ) : ℕ := (length - 1) / chunkSize

variable {chunkSize : ℕ}

theorem continuations_of_le {length : ℕ} (hsize : 0 < chunkSize) (h : length ≤ chunkSize) :
    continuations chunkSize length = 0 :=
  Nat.div_eq_of_lt (by omega)

theorem continuations_of_lt {length : ℕ} (hsize : 0 < chunkSize) (h : chunkSize < length) :
    continuations chunkSize length = continuations chunkSize (length - chunkSize) + 1 := by
  have hle : chunkSize ≤ length - 1 := by omega
  have hcomm : length - 1 - chunkSize = length - chunkSize - 1 := by omega
  rw [continuations, Nat.div_eq_sub_div hsize hle, hcomm, continuations]

/-- The payload on the wire: its bytes and those of the continuation headers. -/
theorem length_bodyBytes (hsize : 0 < chunkSize) (continuation payload : Bytes) :
    (bodyBytes chunkSize continuation payload).length =
      payload.length + continuations chunkSize payload.length * continuation.length := by
  induction hn : payload.length using Nat.strong_induction_on generalizing payload with
  | _ n ih =>
    subst hn
    rcases Nat.lt_or_ge chunkSize payload.length with hlt | hle
    · have hdrop : (payload.drop chunkSize).length = payload.length - chunkSize :=
        List.length_drop
      have htail := ih _ (by omega) (payload.drop chunkSize) rfl
      rw [bodyBytes, if_neg (by omega), List.length_append, List.length_append, List.length_take,
        htail, hdrop, continuations_of_lt hsize hlt, Nat.min_eq_left (Nat.le_of_lt hlt),
        Nat.add_mul, Nat.one_mul]
      omega
    · rw [bodyBytes, if_pos (.inr hle), continuations_of_le hsize hle, Nat.zero_mul, Nat.add_zero]

/-- What the reader takes for a payload: its bytes and one for each continuation header. -/
theorem length_bodyRead (hsize : 0 < chunkSize) {remaining : ℕ} {used data : Bytes}
    (h : BodyRead chunkSize remaining used data) :
    used.length = remaining + continuations chunkSize remaining := by
  induction h with
  | last hle hlen => rw [hlen, continuations_of_le hsize hle, Nat.add_zero]
  | chunk hlt hlen hcont _ ih =>
    rw [List.length_append, List.length_append, hlen, hcont, ih, continuations_of_lt hsize hlt]
    omega

/-! ### Messages with a type 0 header -/

/-- A message with nothing before it on its chunk stream. -/
def Outgoing.alone (m : Outgoing) : Sent := ⟨none, m.timestamp, m⟩

/-- What came before does not show in a message with a type 0 header. -/
theorem bytes_eq_alone {s : Sent} (hheader : s.msg.header = .type0)
    (hfield : timestampField s.prev s.msg = some s.field) :
    s.bytes chunkSize = s.msg.alone.bytes chunkSize := by
  have hts : s.field = s.msg.timestamp := by
    simp only [timestampField, hheader] at hfield
    exact (Option.some.inj hfield).symm
  simp only [Sent.bytes, Sent.body, Sent.continuation, Outgoing.alone, hts]

/-- The continuation header has one byte exactly on a chunk stream with a short id and
behind a timestamp that is not extended. -/
theorem length_continuation_eq_one_iff (m : Outgoing) :
    m.alone.continuation.length = 1 ↔ m.csid < 64 ∧ m.timestamp.toNat < 0xFFFFFF := by
  have hpos : 1 ≤ (basicHeader 3 m.csid m.long).length := by
    unfold basicHeader
    split
    · exact Nat.le_refl 1
    · split
      · exact Nat.succ_pos _
      · exact Nat.succ_pos _
  have hbasic : (basicHeader 3 m.csid m.long).length = 1 ↔ m.csid < 64 := by
    unfold basicHeader
    split
    · rename_i hnarrow
      exact iff_of_true rfl hnarrow
    · rename_i hwide
      split
      · exact iff_of_false (by simp) hwide
      · exact iff_of_false (by simp) hwide
  have hext : (extendedField m.timestamp).length = 0 ↔ m.timestamp.toNat < 0xFFFFFF := by
    unfold extendedField
    split
    · rename_i hall
      exact iff_of_false (by simp) (Nat.not_lt.mpr hall)
    · rename_i hshort
      exact iff_of_true rfl (Nat.lt_of_not_le hshort)
  rw [Sent.continuation, List.length_append, Outgoing.alone]
  dsimp only
  rw [← hbasic, ← hext]
  omega

/-- A read of a message with a type 0 header is one of its body. -/
theorem readMessage_type0 {m : Outgoing} (hheader : m.header = .type0) {rest left : Bytes}
    {msg : RtmpMessage}
    (h : ChunkReader.readMessage ⟨chunkSize⟩ (m.alone.bytes chunkSize ++ rest) =
      some (msg, left)) :
    ∃ data, readBody chunkSize m.payload.length (m.alone.body chunkSize ++ rest) =
      some (data, left) := by
  have hbasic := readBasicHeader_basicHeader m.header.fmt_lt m.csid_ge m.csid_le m.long
    (messageHeader m.header m.timestamp m ++
      (extendedField m.timestamp ++ (m.alone.body chunkSize ++ rest)))
  have hfields := m.alone.readMessageHeader_messageHeader
    (extendedField m.timestamp ++ (m.alone.body chunkSize ++ rest))
  have htimestamp :=
    readExtendedTimestamp_extended m.timestamp (m.alone.body chunkSize ++ rest)
  have hseen : m.alone.fieldsSeen =
      ⟨.ofNat (shortField m.timestamp), m.payload.length, m.typeId, m.streamId⟩ := by
    simp only [Sent.fieldsSeen, Outgoing.alone, hheader]
  have hbytes : m.alone.bytes chunkSize ++ rest = basicHeader m.header.fmt m.csid m.long ++
      (messageHeader m.header m.timestamp m ++
        (extendedField m.timestamp ++ (m.alone.body chunkSize ++ rest))) := by
    simp only [Sent.bytes, Outgoing.alone, List.append_assoc]
  rw [hseen] at hfields
  change readMessageHeader m.header.fmt (messageHeader m.header m.timestamp m ++ _) = _ at hfields
  simp only [hbytes, ChunkReader.readMessage, hbasic, hfields, htimestamp, Option.bind_eq_bind,
    Option.bind_some] at h
  obtain ⟨⟨data, left'⟩, hread, heq⟩ := Option.bind_eq_some_iff.mp h
  obtain ⟨-, rfl⟩ := Prod.mk.inj (Option.some.inj heq)
  exact ⟨data, hread⟩

/-- A read that takes exactly the bytes of a message of several chunks finds continuation
headers of one byte. -/
theorem length_continuation_of_readMessage (hsize : 0 < chunkSize) {m : Outgoing}
    (hheader : m.header = .type0) (hlong : chunkSize < m.payload.length) {rest : Bytes}
    {msg : RtmpMessage}
    (h : ChunkReader.readMessage ⟨chunkSize⟩ (m.alone.bytes chunkSize ++ rest) =
      some (msg, rest)) : m.alone.continuation.length = 1 := by
  obtain ⟨data, hbody⟩ := readMessage_type0 hheader h
  obtain ⟨used, hbytes, hbodyRead⟩ := bodyRead_of_readBody hbody
  obtain rfl : m.alone.body chunkSize = used := List.append_cancel_right hbytes
  have hread := length_bodyRead hsize hbodyRead
  have hsent := length_bodyBytes hsize m.alone.continuation m.payload
  have hmany : 0 < continuations chunkSize m.payload.length := by
    rw [continuations_of_lt hsize hlong]
    exact Nat.succ_pos _
  have hcount : continuations chunkSize m.payload.length * m.alone.continuation.length =
      continuations chunkSize m.payload.length * 1 := by
    change (bodyBytes chunkSize m.alone.continuation m.payload).length = _ at hread
    omega
  exact Nat.eq_of_mul_eq_mul_left hmany hcount

/-- A message with a type 0 header is read as it was sent, whatever follows it, exactly when
one chunk holds it or its continuation headers have one byte. -/
theorem readMessage_alone_iff (hsize : 0 < chunkSize) {m : Outgoing} (hheader : m.header = .type0)
    (rest : Bytes) :
    ChunkReader.readMessage ⟨chunkSize⟩ (m.alone.bytes chunkSize ++ rest) =
        some (m.message, rest) ↔
      m.payload.length ≤ chunkSize ∨ (m.csid < 64 ∧ m.timestamp.toNat < 0xFFFFFF) := by
  constructor
  · intro h
    rcases Nat.lt_or_ge chunkSize m.payload.length with hlong | hfits
    · refine .inr ((length_continuation_eq_one_iff m).mp ?_)
      exact length_continuation_of_readMessage hsize hheader hlong h
    · exact .inl hfits
  · intro hnarrow
    have hplain : m.alone.Plain chunkSize := by
      constructor
      · intro hlong
        exact hnarrow.resolve_left (Nat.not_le.mpr hlong)
      · intro htype
        exact absurd (hheader.symm.trans htype) (by simp)
    have hread := Sent.readMessage_bytes hsize hplain rest
    have hdecoded : m.alone.decoded = m.message := by
      simp only [Sent.decoded, Outgoing.alone, hheader, Outgoing.message]
    have hleft : m.alone.leftover chunkSize = [] := by
      simp only [Sent.leftover, Outgoing.alone, hheader]
    rwa [hdecoded, hleft, List.nil_append] at hread

/-- **Wide continuation headers are misread**: a message with a type 0 header and a payload
of more than one chunk, with an extended timestamp or on a chunk stream with an id of 64 or
more, is never read as it was sent with exactly its bytes, for no chunk size and no bytes
behind it. -/
theorem wide_continuation_misread (chunkSize : ℕ) (hsize : 1 ≤ chunkSize) (m : Outgoing)
    (hheader : m.header = .type0) (hlong : chunkSize < m.payload.length)
    (hwide : 0xFFFFFF ≤ m.timestamp.toNat ∨ 64 ≤ m.csid) (rest : Bytes) :
    ChunkReader.readMessage ⟨chunkSize⟩ (m.alone.bytes chunkSize ++ rest) ≠
      some (m.message, rest) := by
  intro h
  obtain ⟨hcsid, hts⟩ := (length_continuation_eq_one_iff m).mp
    (length_continuation_of_readMessage hsize hheader hlong h)
  omega

/-- Two bytes of video on chunk stream 64. -/
def wideVideo : Outgoing :=
  ⟨.type0, 64, false, 1000, 9, 1, [7, 8], by decide, by decide, by decide⟩

/-- Two bytes of video after four hours and forty minutes. -/
def lateVideo : Outgoing :=
  ⟨.type0, 11, false, 0xFFFFFF, 9, 1, [7, 8], by decide, by decide, by decide⟩

theorem lateVideo_misread :
    ChunkReader.readMessage ⟨1⟩ (lateVideo.alone.bytes 1 ++ []) ≠
      some (lateVideo.message, []) :=
  wide_continuation_misread 1 (by decide) lateVideo rfl (by decide) (.inl (by decide)) []

/-- The second byte of the basic header comes out as payload, and the payload's last byte is
left on the socket. -/
theorem wideVideo_read_wrong :
    ChunkReader.readMessage ⟨1⟩ (wideVideo.alone.bytes 1) =
        some (⟨.video, 1000, 1, [7, 0]⟩, [8]) ∧
      ChunkReader.readMessage ⟨1⟩ (wideVideo.alone.bytes 1) ≠ some (wideVideo.message, []) := by
  constructor
  · decide +kernel
  · decide +kernel

end StreamInfa.Ingest
