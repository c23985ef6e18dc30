import StreamInfa.Ingest.ChunkReader
import StreamInfa.Lib.Map

/-!
What a conformant RTMP client sends: messages as a chunk stream.

A message starts with a chunk header of one of four types. The shorter ones leave out
what is the same as in the previous message of the chunk stream, and give the
timestamp as a difference; `timestampField` says which headers a message may have
after which, and what its timestamp field is. The payload follows in chunks, each
but the first behind a type 3 header, and the chunks of different messages are not
interleaved. `sendAll` plans the headers of a list of messages and `Sent.bytes`
spells one message out.

`readBasicHeader_basicHeader`, `readExtendedTimestamp_extended` and
`bodyRead_bodyBytes` read the parts of a message back.
-/

namespace StreamInfa.Ingest

/-! ### Messages and their headers -/

/-- The four chunk header types. -/
inductive HeaderType where
  | type0
  | type1
  | type2
  | type3
deriving DecidableEq, Repr

def HeaderType.fmt : HeaderType → ℕ
  | .type0 => 0
  | .type1 => 1
  | .type2 => 2
  | .type3 => 3

theorem HeaderType.fmt_lt (header : HeaderType) : header.fmt < 4 := by
  cases header <;> decide

/-- A message to send, on a chunk stream and with a header type for its first chunk.
`long` asks for a three-byte basic header also where two bytes would do. -/
structure Outgoing where
  header : HeaderType
  csid : ℕ
  long : Bool
  timestamp : UInt32
  typeId : UInt8
  streamId : UInt32
  payload : Bytes
  csid_ge : 2 ≤ csid
  csid_le : csid ≤ 65599
  payload_lt : payload.length < 2 ^ 24

/-- The message as the receiver should see it. -/
def Outgoing.message (m : Outgoing) : RtmpMessage :=
  ⟨.ofByte m.typeId, m.timestamp, m.streamId, m.payload⟩

/-- What later headers of a chunk stream refer to: the values of its last message, and
the timestamp field that its last header had. -/
structure ChunkState where
  timestamp : UInt32
  field : UInt32
  length : ℕ
  typeId : UInt8
  streamId : UInt32
deriving DecidableEq, Repr

/-- The timestamp field of a message after `prev` on its chunk stream: absolute in a
type 0 header, a difference in the others. `none` when the header type does not allow
the message: it would leave out something that changed. -/
def timestampField (prev : Option ChunkState) (m : Outgoing) : Option UInt32 :=
  match m.header, prev with
  | .type0, _ => some m.timestamp
  | .type1, some p =>
    if m.streamId = p.streamId then some (m.timestamp - p.timestamp) else none
  | .type2, some p =>
    if m.streamId = p.streamId ∧ m.typeId = p.typeId ∧ m.payload.length = p.length then
      some (m.timestamp - p.timestamp)
    else none
  | .type3, some p =>
    if m.streamId = p.streamId ∧ m.typeId = p.typeId ∧ m.payload.length = p.length ∧
        m.timestamp - p.timestamp = p.field then
      some p.field
    else none
  | _, none => none

/-- A message with its place in the chunk stream. -/
structure Sent where
  prev : Option ChunkState
  field : UInt32
  msg : Outgoing

/-- The headers of a list of messages; `none` if one of them is not allowed. -/
def sendAll : Map ℕ ChunkState → List Outgoing → Option (List Sent)
  | _, [] => some []
  | states, m :: ms => do
    let prev := states.lookup m.csid
    let field ← timestampField prev m
    let state := ⟨m.timestamp, field, m.payload.length, m.typeId, m.streamId⟩
    let sent ← sendAll (states.insert m.csid state) ms
    return ⟨prev, field, m⟩ :: sent

/-! ### Bytes -/

/-- A basic header of one to three bytes. -/
def basicHeader (fmt csid : ℕ) (long : Bool) : Bytes :=
  if csid < 64 then [UInt8.ofNat (fmt * 64 + csid)]
  else if csid < 320 ∧ long = false then UInt8.ofNat (fmt * 64) :: beBytes 1 (csid - 64)
  else UInt8.ofNat (fmt * 64 + 1) :: leBytes 2 (csid - 64)

/-- The three-byte timestamp field; all ones announce the extended one. -/
def shortField (field : UInt32) : ℕ := min field.toNat 0xFFFFFF

def extendedField (field : UInt32) : Bytes :=
  if 0xFFFFFF ≤ field.toNat then beBytes 4 field.toNat else []

/-- The message header of the first chunk. -/
def messageHeader (header : HeaderType) (field : UInt32) (m : Outgoing) : Bytes :=
  match header with
  | .type0 => beBytes 3 (shortField field) ++ beBytes 3 m.payload.length ++
      beBytes 1 m.typeId.toNat ++ leBytes 4 m.streamId.toNat
  | .type1 => beBytes 3 (shortField field) ++ beBytes 3 m.payload.length ++
      beBytes 1 m.typeId.toNat
  | .type2 => beBytes 3 (shortField field)
  | .type3 => []

/-- The payload in chunks of `chunkSize` bytes, with `continuation` between two. -/
def bodyBytes (chunkSize : ℕ) (continuation payload : Bytes) : Bytes :=
  if chunkSize = 0 ∨ payload.length ≤ chunkSize then payload
  else payload.take chunkSize ++ continuation ++
    bodyBytes chunkSize continuation (payload.drop chunkSize)
termination_by payload.length
decreasing_by
  simp only [List.length_drop]
  omega

@[simp] theorem bodyBytes_nil (chunkSize : ℕ) (continuation : Bytes) :
    bodyBytes chunkSize continuation [] = [] := by
  rw [bodyBytes, if_pos (.inr (Nat.zero_le _))]

/-- The type 3 header before each further chunk of a message. -/
def Sent.continuation (s : Sent) : Bytes :=
  basicHeader 3 s.msg.csid s.msg.long ++ extendedField s.field

def Sent.body (chunkSize : ℕ) (s : Sent) : Bytes :=
  bodyBytes chunkSize s.continuation s.msg.payload

/-- One message on the wire. -/
def Sent.bytes (chunkSize : ℕ) (s : Sent) : Bytes :=
  basicHeader s.msg.header.fmt s.msg.csid s.msg.long ++
    (messageHeader s.msg.header s.field s.msg ++ (extendedField s.field ++ s.body chunkSize))

/-! ### What planning the headers gives -/

/-- Every planned header is allowed, and the plan is of these messages. -/
theorem sendAll_spec {states : Map ℕ ChunkState} {ms : List Outgoing} {sent : List Sent}
    (h : sendAll states ms = some sent) :
    sent.map Sent.msg = ms ∧ ∀ s ∈ sent, timestampField s.prev s.msg = some s.field := by
  induction ms generalizing states sent with
  | nil =>
    obtain rfl := Option.some.inj h
    exact ⟨rfl, fun s hs => absurd hs List.not_mem_nil⟩
  | cons m ms ih =>
    obtain ⟨field, hfield, h⟩ := Option.bind_eq_some_iff.mp h
    obtain ⟨rest, hrest, h⟩ := Option.bind_eq_some_iff.mp h
    obtain rfl := Option.some.inj h
    obtain ⟨hmap, hall⟩ := ih hrest
    refine ⟨by rw [List.map_cons, hmap], fun s hs => ?_⟩
    rcases List.mem_cons.mp hs with rfl | hs
    · exact hfield
    · exact hall s hs

/-! ### Reading the parts back -/

theorem readBasicHeader_basicHeader {fmt csid : ℕ} (hfmt : fmt < 4) (hge : 2 ≤ csid)
    (hle : csid ≤ 65599) (long : Bool) (rest : Bytes) :
    readBasicHeader (basicHeader fmt csid long ++ rest) = some ((fmt, csid), rest) := by
  unfold basicHeader
  split
  · rename_i hnarrow
    have hbyte : (UInt8.ofNat (fmt * 64 + csid)).toNat = fmt * 64 + csid := by
      rw [UInt8.toNat_ofNat', Nat.mod_eq_of_lt (by omega)]
    have hdiv : (fmt * 64 + csid) / 64 = fmt := by omega
    have hmod : (fmt * 64 + csid) % 64 = csid := by omega
    obtain ⟨k, rfl⟩ := Nat.exists_eq_add_of_le' hge
    simp only [List.singleton_append, readBasicHeader, hbyte, hdiv, hmod]
  · split
    · have hbyte : (UInt8.ofNat (fmt * 64)).toNat = fmt * 64 := by
        rw [UInt8.toNat_ofNat', Nat.mod_eq_of_lt (by omega)]
      have hdiv : fmt * 64 / 64 = fmt := by omega
      have hmod : fmt * 64 % 64 = 0 := by omega
      have hcsid : csid - 64 + 64 = csid := by omega
      simp only [List.cons_append, readBasicHeader, hbyte, hdiv, hmod, takeExact_beBytes,
        Option.map_some, beNat_beBytes_of_lt (show csid - 64 < 256 ^ 1 by omega), hcsid]
    · have hbyte : (UInt8.ofNat (fmt * 64 + 1)).toNat = fmt * 64 + 1 := by
        rw [UInt8.toNat_ofNat', Nat.mod_eq_of_lt (by omega)]
      have hdiv : (fmt * 64 + 1) / 64 = fmt := by omega
      have hmod : (fmt * 64 + 1) % 64 = 1 := by omega
      have hcsid : csid - 64 + 64 = csid := by omega
      simp only [List.cons_append, readBasicHeader, hbyte, hdiv, hmod,
        takeExact_append _ (length_leBytes 2 _), Option.map_some,
        leNat_leBytes_of_lt (show csid - 64 < 256 ^ 2 by omega), hcsid]

theorem shortField_lt (field : UInt32) : shortField field < 256 ^ 3 := by
  unfold shortField
  omega

theorem readExtendedTimestamp_extended (field : UInt32) (rest : Bytes) :
    readExtendedTimestamp (UInt32.ofNat (shortField field)) (extendedField field ++ rest) =
      some (field, rest) := by
  unfold readExtendedTimestamp extendedField shortField
  by_cases hext : 0xFFFFFF ≤ field.toNat
  · have hall : UInt32.ofNat 0xFFFFFF = 0xFFFFFF := rfl
    have hword : field.toNat < 256 ^ 4 := field.toNat_lt
    rw [if_pos hext, Nat.min_eq_right hext, if_pos hall, takeExact_beBytes, Option.map_some]
    dsimp only
    rw [beNat_beBytes_of_lt hword, UInt32.ofNat_toNat]
  · rw [if_neg hext, Nat.min_eq_left (by omega), UInt32.ofNat_toNat, if_neg, List.nil_append]
    rintro rfl
    exact hext (by decide)

/-- A one-byte continuation header is what the reader skips between two chunks. -/
theorem bodyRead_bodyBytes {chunkSize : ℕ} (hsize : 0 < chunkSize) {continuation payload : Bytes}
    (hcont : chunkSize < payload.length → continuation.length = 1) :
    BodyRead chunkSize payload.length (bodyBytes chunkSize continuation payload) payload := by
  induction hn : payload.length using Nat.strong_induction_on generalizing payload with
  | _ n ih =>
    subst hn
    rw [bodyBytes]
    split
    · rename_i hfits
      exact .last (by omega) rfl
    · rename_i hlong
      have hlt : chunkSize < payload.length := by omega
      have htake : (payload.take chunkSize).length = chunkSize := by
        rw [List.length_take]
        omega
      have hdrop : (payload.drop chunkSize).length = payload.length - chunkSize :=
        List.length_drop
      have htail := ih (payload.drop chunkSize).length (by omega)
        (fun _ => hcont hlt) rfl
      rw [hdrop] at htail
      have hread := BodyRead.chunk hlt htake (hcont hlt) htail
      rwa [List.take_append_drop, ← List.append_assoc] at hread

end StreamInfa.Ingest
