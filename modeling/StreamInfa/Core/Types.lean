import StreamInfa.Lib.Text
import Mathlib.Data.BitVec

/-!
Identifiers and pipeline messages (`src/core/types.rs`).

Machine integers keep their width where the code casts or wraps them (`UInt32`,
`Int64`); counters that only grow by one are `Nat`. A floating-point duration or
frame rate is the exact rational it stands for.
-/

namespace StreamInfa

/-- The cast of a floating-point number to `u32`: toward zero, saturating. -/
def truncU32 (q : ℚ) : UInt32 := UInt32.ofNat (min q.floor.toNat 0xFFFFFFFF)

/-! ### Time -/

/-- A UTC instant, in nanoseconds since the Unix epoch. -/
structure DateTime where
  nanos : ℤ
deriving DecidableEq, Repr

/-- Year, month and day of the proleptic Gregorian calendar, from the day number
counted from 1970-01-01. -/
def civilFromDays (days : ℤ) : ℤ × ℕ × ℕ :=
  -- Count from 0000-03-01, in eras of 400 years.
  let z := days + 719468
  let era := z.fdiv 146097
  let doe := (z.fmod 146097).toNat
  let yoe := (doe - doe / 1460 + doe / 36524 - doe / 146096) / 365
  let doy := doe - (365 * yoe + yoe / 4 - yoe / 100)
  let mp := (5 * doy + 2) / 153
  let day := doy - (153 * mp + 2) / 5 + 1
  let month := if mp < 10 then mp + 3 else mp - 9
  let year := (yoe : ℤ) + era * 400
  (if month ≤ 2 then year + 1 else year, month, day)

/-- A year in at least four digits, signed outside 0..9999. -/
def yearText (y : ℤ) : Text :=
  if y < 0 then '-' :: decimalPad 4 y.natAbs
  else if 9999 < y then '+' :: decimalPad 4 y.natAbs
  else decimalPad 4 y.natAbs

/-- `%Y-%m-%dT%H:%M:%S%.3fZ`. -/
def DateTime.format (t : DateTime) : Text :=
  let secs := t.nanos.fdiv 1000000000
  let millis := ((t.nanos.fmod 1000000000) / 1000000).toNat
  let sod := (secs.fmod 86400).toNat
  let (y, m, d) := civilFromDays (secs.fdiv 86400)
  [yearText y, ['-'], decimalPad 2 m, ['-'], decimalPad 2 d, ['T'], decimalPad 2 (sod / 3600),
    [':'], decimalPad 2 (sod / 60 % 60), [':'], decimalPad 2 (sod % 60), ['.'],
    decimalPad 3 millis, ['Z']].flatten

theorem singleLine_yearText (y : ℤ) : SingleLine (yearText y) := by
  have hpad := singleLine_decimalPad 4 y.natAbs
  unfold yearText
  split
  · exact SingleLine.append (a := ['-']) (by decide) hpad
  · split
    · exact SingleLine.append (a := ['+']) (by decide) hpad
    · exact hpad

theorem DateTime.singleLine_format (t : DateTime) : SingleLine t.format := by
  apply singleLine_flatten
  intro l hl
  simp only [List.mem_cons, List.not_mem_nil, or_false] at hl
  rcases hl with rfl | rfl | rfl | rfl | rfl | rfl | rfl | rfl | rfl | rfl | rfl | rfl | rfl | rfl
  · exact singleLine_yearText _
  all_goals first | exact singleLine_decimalPad _ _ | decide

/-! ### Identifiers -/

/-- A stream identifier: a UUID. -/
structure StreamId where
  uuid : BitVec 128
deriving DecidableEq, Repr

/-- The lower-case hexadecimal numeral of `n` in exactly `w` digits. -/
def hexPad (w n : ℕ) : Text :=
  (List.range w).map fun i => Nat.digitChar (n / 16 ^ (w - 1 - i) % 16)

/-- The canonical hyphenated spelling of a UUID. -/
def StreamId.toText (s : StreamId) : Text :=
  let h := hexPad 32 s.uuid.toNat
  h.take 8 ++ '-' :: (h.drop 8).take 4 ++ '-' :: (h.drop 12).take 4 ++
    '-' :: (h.drop 16).take 4 ++ '-' :: h.drop 20

theorem hexPad_succ (w n : ℕ) :
    hexPad (w + 1) n = Nat.digitChar (n / 16 ^ w % 16) :: hexPad w n := by
  simp only [hexPad, List.range_succ_eq_map, List.map_cons, List.map_map]
  refine congrArg₂ List.cons (by simp) (List.map_congr_left fun i _ => ?_)
  rw [Function.comp_apply, show w + 1 - 1 - (i + 1) = w - 1 - i by omega]

theorem digitChar_hex {d : ℕ} (hd : d < 16) :
    Nat.digitChar d ∈ "0123456789abcdef".toList := by
  revert d
  decide

theorem digitChar_hex_injective {c d : ℕ} (hc : c < 16) (hd : d < 16)
    (h : Nat.digitChar c = Nat.digitChar d) : c = d := by
  have hall : ∀ c < 16, ∀ d < 16, Nat.digitChar c = Nat.digitChar d → c = d := by decide
  exact hall c hc d hd h

theorem hexPad_injective {w m n : ℕ} (hm : m < 16 ^ w) (hn : n < 16 ^ w)
    (h : hexPad w m = hexPad w n) : m = n := by
  suffices hmod : ∀ w, hexPad w m = hexPad w n → m % 16 ^ w = n % 16 ^ w by
    have := hmod w h
    rwa [Nat.mod_eq_of_lt hm, Nat.mod_eq_of_lt hn] at this
  intro w h
  induction w with
  | zero => simp [Nat.mod_one]
  | succ w ih =>
    rw [hexPad_succ, hexPad_succ] at h
    obtain ⟨hhead, htail⟩ := List.cons.inj h
    have hdigit := digitChar_hex_injective (Nat.mod_lt _ (by decide)) (Nat.mod_lt _ (by decide))
      hhead
    rw [Nat.pow_succ, Nat.mod_mul, Nat.mod_mul, ih htail, hdigit]

/-- The spelling is made of hexadecimal digits and hyphens. -/
theorem StreamId.mem_toText {s : StreamId} {c : Char} (h : c ∈ s.toText) :
    c ∈ "0123456789abcdef-".toList := by
  have hhex : ∀ c ∈ hexPad 32 s.uuid.toNat, c ∈ "0123456789abcdef-".toList := by
    intro c hc
    obtain ⟨i, -, rfl⟩ := List.mem_map.mp hc
    exact List.mem_append_left ['-'] (digitChar_hex (Nat.mod_lt _ (by decide)))
  have hhyphen : '-' ∈ "0123456789abcdef-".toList := by decide
  simp only [StreamId.toText, List.mem_append, List.mem_cons] at h
  grind [List.mem_of_mem_take, List.mem_of_mem_drop]

theorem StreamId.slash_notMem_toText (s : StreamId) : '/' ∉ s.toText :=
  fun h => absurd (mem_toText h) (by decide)

/-- Without its hyphens the spelling is the numeral. -/
theorem StreamId.filter_toText (s : StreamId) :
    s.toText.filter (· ≠ '-') = hexPad 32 s.uuid.toNat := by
  have hhex : ∀ t : Text, t <:+: hexPad 32 s.uuid.toNat → t.filter (· ≠ '-') = t := by
    intro t ht
    refine List.filter_eq_self.mpr fun c hc => decide_eq_true ?_
    obtain ⟨i, -, rfl⟩ := List.mem_map.mp (ht.subset hc)
    intro heq
    have hdigit := digitChar_hex (Nat.mod_lt (s.uuid.toNat / 16 ^ (32 - 1 - i)) (Nat.succ_pos 15))
    rw [heq] at hdigit
    exact absurd hdigit (by decide)
  have hdrop := fun k => (List.drop_suffix k (hexPad 32 s.uuid.toNat)).isInfix
  have htake := fun j k => (List.take_prefix j _).isInfix.trans (hdrop k)
  have hjoin : ∀ (h : Text) (j k : ℕ), (h.drop j).take k ++ h.drop (j + k) = h.drop j := by
    intro h j k
    rw [← List.drop_drop, List.take_append_drop]
  simp only [StreamId.toText, List.filter_append, List.filter_cons, ne_eq, not_true_eq_false,
    decide_false, Bool.false_eq_true, if_false]
  rw [hhex _ (List.take_prefix 8 _).isInfix, hhex _ (htake 4 8), hhex _ (htake 4 12),
    hhex _ (htake 4 16), hhex _ (hdrop 20), List.append_assoc, List.append_assoc,
    List.append_assoc, hjoin _ 16 4, hjoin _ 12 4, hjoin _ 8 4, List.take_append_drop]

/-- The spelling determines the identifier. -/
theorem StreamId.toText_injective {s s' : StreamId} (h : s.toText = s'.toText) : s = s' := by
  have hhex : hexPad 32 s.uuid.toNat = hexPad 32 s'.uuid.toNat := by
    rw [← filter_toText, ← filter_toText, h]
  have hnat : s.uuid.toNat = s'.uuid.toNat := hexPad_injective s.uuid.isLt s'.uuid.isLt hhex
  cases s
  cases s'
  exact congrArg StreamId.mk (BitVec.eq_of_toNat_eq hnat)

/-- A rendition of the transcoding profile ladder. -/
inductive RenditionId where
  | high
  | medium
  | low
  | source
deriving DecidableEq, Repr

def RenditionId.asStr : RenditionId → Text
  | .high => "high".toList
  | .medium => "medium".toList
  | .low => "low".toList
  | .source => "source".toList

theorem RenditionId.asStr_injective {r r' : RenditionId} (h : r.asStr = r'.asStr) : r = r' := by
  cases r <;> cases r' <;> first | rfl | exact absurd h (by decide)

theorem RenditionId.slash_notMem_asStr (r : RenditionId) : '/' ∉ r.asStr := by
  cases r <;> decide

/-! ### Pipeline messages -/

/-- The mode of ingestion of a stream. -/
inductive IngestMode where
  | live
  | vod
deriving DecidableEq, Repr

inductive AudioCodec where
  | aac
  | mp3
deriving DecidableEq, Repr

def AudioCodec.toText : AudioCodec → Text
  | .aac => "aac".toList
  | .mp3 => "mp3".toList

inductive VideoCodec where
  | h264
deriving DecidableEq, Repr

def VideoCodec.toText : VideoCodec → Text
  | .h264 => "h264".toList

inductive Container where
  | flv
  | mp4
  | mkv
deriving DecidableEq, Repr

def Container.toText : Container → Text
  | .flv => "flv".toList
  | .mp4 => "mp4".toList
  | .mkv => "mkv".toList

/-- A demuxed elementary-stream track. -/
inductive Track where
  | video (codec : VideoCodec) (width height : UInt32)
  | audio (codec : AudioCodec) (sampleRate : UInt32) (channels : UInt8)
deriving DecidableEq, Repr

def Track.isAudio : Track → Bool
  | .audio .. => true
  | .video .. => false

/-- Media information detected at ingest. -/
structure MediaInfo where
  streamId : StreamId
  videoCodec : VideoCodec
  videoWidth : UInt32
  videoHeight : UInt32
  videoBitrateKbps : Option UInt32
  frameRate : ℚ
  audioCodec : Option AudioCodec
  audioSampleRate : Option UInt32
  audioChannels : Option UInt8
  audioBitrateKbps : Option UInt32
  durationSecs : Option ℚ
  container : Container
deriving DecidableEq, Repr

/-- Metadata of a managed stream. -/
structure StreamMetadata where
  streamId : StreamId
  ingestMode : IngestMode
  mediaInfo : Option MediaInfo
  createdAt : DateTime
  startedAt : Option DateTime
  endedAt : Option DateTime
deriving DecidableEq, Repr

def StreamMetadata.new (streamId : StreamId) (ingestMode : IngestMode) (now : DateTime) :
    StreamMetadata where
  streamId := streamId
  ingestMode := ingestMode
  mediaInfo := none
  createdAt := now
  startedAt := none
  endedAt := none

/-- A frame extracted from the ingest source, 90 kHz timestamps. -/
structure DemuxedFrame where
  streamId : StreamId
  track : Track
  pts : Int64
  dts : Int64
  keyframe : Bool
  data : Bytes
deriving DecidableEq, Repr

/-- A segment produced by the transcode pipeline. -/
structure EncodedSegment where
  streamId : StreamId
  rendition : RenditionId
  sequence : ℕ
  durationSecs : ℚ
  ptsStart : Int64
  videoData : Bytes
  audioData : Option Bytes
  audioSampleRate : UInt32
  audioChannels : UInt8
  isLast : Bool
  width : UInt32
  height : UInt32
  videoBitrateKbps : UInt32
  audioBitrateKbps : UInt32
  profile : Text
  level : Text
  frameRate : ℚ
deriving DecidableEq, Repr

/-- A storage write request, from the packager to the storage writer. -/
structure StorageWrite where
  path : Text
  data : Bytes
  contentType : Text
deriving DecidableEq, Repr

end StreamInfa
