import StreamInfa.Package.Manifest

/-!
The per-rendition segment index (`src/package/segment_index.rs`).

`liveWindowSegments = none` is the unbounded window of a VOD rendition (the
source's `usize::MAX`). The index numbers its entries with a counter of its own,
independent of the sequence number a segment carries.
-/

namespace StreamInfa.Package

/-- A single segment entry in the index. -/
structure SegmentEntry where
  sequence : ℕ
  durationSecs : ℚ
  storagePath : Text
  programDateTime : DateTime
  sizeBytes : ℕ
deriving DecidableEq, Repr

/-- Per-rendition segment index for live window management. -/
structure SegmentIndex where
  streamId : StreamId
  rendition : RenditionId
  segments : List SegmentEntry
  liveWindowSegments : Option ℕ
  nextSequence : ℕ
  totalSegmentsProduced : ℕ
  maxDuration : ℚ
deriving DecidableEq, Repr

namespace SegmentIndex

def new (streamId : StreamId) (rendition : RenditionId) (liveWindowSegments : Option ℕ) :
    SegmentIndex where
  streamId := streamId
  rendition := rendition
  segments := []
  liveWindowSegments := liveWindowSegments
  nextSequence := 0
  totalSegmentsProduced := 0
  maxDuration := 0

/-- The index with a new entry at the back, before eviction. -/
def pushBack (index : SegmentIndex) (durationSecs : ℚ) (storagePath : Text) (sizeBytes : ℕ)
    (now : DateTime) : SegmentIndex :=
  let entry : SegmentEntry :=
    { sequence := index.nextSequence
      durationSecs := durationSecs
      storagePath := storagePath
      programDateTime := now
      sizeBytes := sizeBytes }
  { index with
    segments := index.segments ++ [entry]
    nextSequence := index.nextSequence + 1
    totalSegmentsProduced := index.totalSegmentsProduced + 1
    maxDuration := if index.maxDuration < durationSecs then durationSecs else index.maxDuration }

/-- Whether there are more entries than the window holds. -/
def overflows (index : SegmentIndex) : Bool :=
  match index.liveWindowSegments with
  | some window => decide (window < index.segments.length)
  | none => false

/-- Add a new segment to the index, with the evicted segment if the window
overflowed. -/
def addSegment (index : SegmentIndex) (durationSecs : ℚ) (storagePath : Text) (sizeBytes : ℕ)
    (now : DateTime) : SegmentIndex × Option SegmentEntry :=
  let index := index.pushBack durationSecs storagePath sizeBytes now
  if index.overflows then
    ({ index with segments := index.segments.tail }, index.segments.head?)
  else (index, none)

def playlistSegment (entry : SegmentEntry) : PlaylistSegment where
  sequence := entry.sequence
  durationSecs := entry.durationSecs
  filename := segmentFilename entry.sequence
  programDateTime := some entry.programDateTime

/-- Generate a media playlist from the current segment window. -/
def generatePlaylist (index : SegmentIndex) (hlsVersion : UInt32) (isVod isFinished : Bool) :
    Text :=
  generateMediaPlaylist (index.segments.map playlistSegment) hlsVersion isVod isFinished

/-! ### What a playlist shows of the index -/

variable {index : SegmentIndex} {hlsVersion : UInt32} {isVod isFinished : Bool}

theorem singleLine_playlistSegment (index : SegmentIndex) :
    ∀ s ∈ index.segments.map playlistSegment, SingleLine s.filename := by
  intro s hs
  obtain ⟨entry, -, rfl⟩ := List.mem_map.mp hs
  exact singleLine_segmentFilename _

theorem lines_generatePlaylist :
    lines (index.generatePlaylist hlsVersion isVod isFinished) =
      mediaPlaylistLines (index.segments.map playlistSegment) hlsVersion isVod isFinished :=
  lines_generateMediaPlaylist (singleLine_playlistSegment index)

/-- A playlist names the files of the entries in the window. -/
theorem playlistUris_generatePlaylist :
    playlistUris (index.generatePlaylist hlsVersion isVod isFinished) =
      index.segments.map fun entry => segmentFilename entry.sequence := by
  rw [generatePlaylist, playlistUris_generateMediaPlaylist, List.map_map]
  · rfl
  · intro s hs
    obtain ⟨entry, -, rfl⟩ := List.mem_map.mp hs
    exact ⟨singleLine_segmentFilename _, isUri_segmentFilename _⟩

/-- The last line is ENDLIST exactly for a finished rendition. -/
theorem getLast?_lines_generatePlaylist :
    (lines (index.generatePlaylist hlsVersion isVod isFinished)).getLast? = some endlistTag ↔
      isFinished = true := by
  rw [lines_generatePlaylist, mediaPlaylistLines]
  cases isFinished with
  | true => simp
  | false =>
    simp only [Bool.false_eq_true, if_false, List.append_nil, iff_false]
    rcases List.eq_nil_or_concat index.segments with hnil | ⟨entries, entry, hconcat⟩
    · rw [hnil, List.map_nil, List.flatMap_nil, List.append_nil, getLast?_headerLines]
      exact fun h => absurd (Option.some.inj h) (by decide)
    · have hlast : ((index.segments.map playlistSegment).flatMap segmentLines).getLast? =
          some (segmentFilename entry.sequence) := by
        rw [hconcat, List.concat_eq_append, List.map_append, List.flatMap_append,
          List.map_singleton, List.flatMap_singleton, segmentLines, ← List.append_assoc,
          List.getLast?_append]
        rfl
      rw [List.getLast?_append, hlast, Option.some_or, Option.some.injEq]
      exact segmentFilename_ne (c := '#') rfl rfl _

/-! ### What adding a segment does -/

/-- Adding a segment advances the counter, keeps the window width and leaves in the
window only old entries and the new one. -/
theorem addSegment_spec (index : SegmentIndex) (durationSecs : ℚ) (path : Text) (size : ℕ)
    (now : DateTime) :
    (index.addSegment durationSecs path size now).1.nextSequence = index.nextSequence + 1 ∧
      (index.addSegment durationSecs path size now).1.liveWindowSegments =
        index.liveWindowSegments ∧
      ∀ entry ∈ (index.addSegment durationSecs path size now).1.segments,
        entry ∈ index.segments ∨ entry.sequence = index.nextSequence := by
  have hpush : ∀ entry ∈ (index.pushBack durationSecs path size now).segments,
      entry ∈ index.segments ∨ entry.sequence = index.nextSequence := by
    intro entry hmem
    rcases List.mem_append.mp hmem with h | h
    · exact Or.inl h
    · exact Or.inr (by rw [List.mem_singleton.mp h])
  unfold addSegment
  dsimp only
  split
  · exact ⟨rfl, rfl, fun entry hmem => hpush entry (List.mem_of_mem_tail hmem)⟩
  · exact ⟨rfl, rfl, hpush⟩

/-- As many segments are listed as the window is wide. -/
def Full (index : SegmentIndex) : Prop :=
  ∃ window, index.liveWindowSegments = some window ∧ window ≤ index.segments.length

section Add

variable {index : SegmentIndex} (durationSecs : ℚ) (path : Text) (size : ℕ) (now : DateTime)

theorem overflows_pushBack_iff :
    (index.pushBack durationSecs path size now).overflows = true ↔ index.Full := by
  have hwidth : (index.pushBack durationSecs path size now).liveWindowSegments =
      index.liveWindowSegments := rfl
  have hlen : (index.pushBack durationSecs path size now).segments.length =
      index.segments.length + 1 := List.length_append
  rw [overflows, hwidth, Full]
  cases index.liveWindowSegments with
  | none => exact ⟨nofun, fun ⟨_, hsome, _⟩ => absurd hsome (by simp)⟩
  | some window =>
    simp only [decide_eq_true_eq, Option.some.injEq, exists_eq_left', hlen, Nat.lt_succ_iff]

/-- A full window loses its first entry. -/
theorem addSegment_of_full (h : index.Full) :
    index.addSegment durationSecs path size now =
      ({ index.pushBack durationSecs path size now with
          segments := (index.pushBack durationSecs path size now).segments.tail },
        (index.pushBack durationSecs path size now).segments.head?) :=
  if_pos ((overflows_pushBack_iff durationSecs path size now).mpr h)

theorem addSegment_of_not_full (h : ¬index.Full) :
    index.addSegment durationSecs path size now =
      (index.pushBack durationSecs path size now, none) :=
  if_neg (mt (overflows_pushBack_iff durationSecs path size now).mp h)

end Add

/-! ### The window -/

/-- The first number in a window that ends before `n`. -/
def windowStart (window : Option ℕ) (n : ℕ) : ℕ :=
  match window with
  | some window => n - window
  | none => 0

/-- The entries are numbered consecutively, from the start of the window to the counter. -/
def Spans (index : SegmentIndex) : Prop :=
  index.segments.map (·.sequence) =
    List.range' (windowStart index.liveWindowSegments index.nextSequence)
      (index.nextSequence - windowStart index.liveWindowSegments index.nextSequence)

theorem windowStart_le (window : Option ℕ) (n : ℕ) : windowStart window n ≤ n := by
  cases window with
  | none => exact Nat.zero_le n
  | some window => exact Nat.sub_le n window

/-- The window only moves forward. -/
theorem windowStart_mono (window : Option ℕ) {m n : ℕ} (h : m ≤ n) :
    windowStart window m ≤ windowStart window n := by
  cases window with
  | none => exact le_rfl
  | some window => exact Nat.sub_le_sub_right h window

theorem spans_new (streamId : StreamId) (rendition : RenditionId) (window : Option ℕ) :
    (SegmentIndex.new streamId rendition window).Spans := by
  have hzero : windowStart window 0 = 0 := Nat.le_zero.mp (windowStart_le window 0)
  simp [Spans, new, hzero]

/-- Adding a segment appends its number, and drops the first when the window is full. -/
theorem Spans.addSegment {index : SegmentIndex} (h : index.Spans) (durationSecs : ℚ) (path : Text)
    (size : ℕ) (now : DateTime) : (index.addSegment durationSecs path size now).1.Spans := by
  have hle := windowStart_le index.liveWindowSegments index.nextSequence
  have hpush : (index.pushBack durationSecs path size now).segments.map (·.sequence) =
      List.range' (windowStart index.liveWindowSegments index.nextSequence)
        (index.nextSequence + 1 - windowStart index.liveWindowSegments index.nextSequence) := by
    have hsegments : (index.pushBack durationSecs path size now).segments.map (·.sequence) =
        index.segments.map (·.sequence) ++ [index.nextSequence] := List.map_append
    rw [hsegments, h, Nat.succ_sub hle, List.range'_1_concat, Nat.add_sub_cancel' hle]
  have hlen := congrArg List.length h
  rw [List.length_map, List.length_range'] at hlen
  by_cases hfull : index.Full
  · obtain ⟨window, hwindow, hwide⟩ := id hfull
    rw [hwindow] at hpush hlen
    simp only [windowStart] at hpush hlen
    rw [addSegment_of_full _ _ _ _ hfull, Spans]
    show (index.pushBack durationSecs path size now).segments.tail.map (·.sequence) =
      List.range' (windowStart index.liveWindowSegments (index.nextSequence + 1))
        (index.nextSequence + 1 - windowStart index.liveWindowSegments (index.nextSequence + 1))
    rw [hwindow]
    simp only [windowStart, List.map_tail, hpush, List.tail_range']
    congr 1 <;> omega
  · rw [addSegment_of_not_full _ _ _ _ hfull, Spans, hpush]
    show _ = List.range' (windowStart index.liveWindowSegments (index.nextSequence + 1))
      (index.nextSequence + 1 - windowStart index.liveWindowSegments (index.nextSequence + 1))
    cases hwindow : index.liveWindowSegments with
    | none => rfl
    | some window =>
      have hroom : ¬window ≤ index.segments.length := fun hwide => hfull ⟨window, hwindow, hwide⟩
      rw [hwindow] at hlen
      simp only [windowStart] at hlen ⊢
      congr 1 <;> omega

theorem Spans.mem_iff {index : SegmentIndex} (h : index.Spans) (n : ℕ) :
    (∃ entry ∈ index.segments, entry.sequence = n) ↔
      windowStart index.liveWindowSegments index.nextSequence ≤ n ∧ n < index.nextSequence := by
  have hle := windowStart_le index.liveWindowSegments index.nextSequence
  rw [← List.mem_map, h, List.mem_range'_1]
  omega

end SegmentIndex

end StreamInfa.Package
