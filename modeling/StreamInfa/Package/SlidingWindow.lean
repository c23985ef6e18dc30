import StreamInfa.Package.SegmentIndex

/-!
Successive playlists of a segment index.

`addAll` is a run of `add_segment` calls on a new index with the entries they return.
`Windowed` relates a run to what it was given: the entries returned and those in the window
are, one behind the other, the numbered segments (`entriesOf`), and the window is the end of
them. What the claims of a playlist say of its segments follows from that and from the two
tags a playlist is read by (`playlistTag_target`, `playlistTag_mediaSequence`).

**`sliding_window_iff`**: numbers, evictions, file names and successive playlists are right
in every run; no listed segment is longer than EXT-X-TARGETDURATION exactly in the runs
whose durations fit the `u32` that the target is cast to.
-/

namespace StreamInfa.Package

/-! ### Runs -/

/-- The arguments of an `add_segment` call, and the time of the call. -/
structure NewSegment where
  durationSecs : ℚ
  storagePath : Text
  sizeBytes : ℕ
  now : DateTime
deriving DecidableEq, Repr

def NewSegment.entry (s : NewSegment) (sequence : ℕ) : SegmentEntry where
  sequence := sequence
  durationSecs := s.durationSecs
  storagePath := s.storagePath
  programDateTime := s.now
  sizeBytes := s.sizeBytes

/-- The entries of the segments, numbered from 0. -/
def entriesOf (added : List NewSegment) : List SegmentEntry :=
  added.zipIdx.map fun (s, n) => s.entry n

namespace SegmentIndex

def add (index : SegmentIndex) (s : NewSegment) : SegmentIndex × Option SegmentEntry :=
  index.addSegment s.durationSecs s.storagePath s.sizeBytes s.now

/-- Add the segments in turn, collecting the entries that are evicted. -/
def addAll (index : SegmentIndex) (added : List NewSegment) : SegmentIndex × List SegmentEntry :=
  added.foldl (fun (index, evicted) s => ((index.add s).1, evicted ++ (index.add s).2.toList))
    (index, [])

end SegmentIndex

/-! ### Durations -/

def longest (durations : List ℚ) : ℚ := durations.foldl max 0

/-- The maximum duration rounded up, and at least 1. -/
def roundedUp (durations : List ℚ) : ℕ := max (longest durations).ceil.toNat 1

def u32Max : ℕ := 0xFFFFFFFF

theorem foldl_max_le_iff {durations : List ℚ} {a b : ℚ} :
    durations.foldl max a ≤ b ↔ a ≤ b ∧ ∀ d ∈ durations, d ≤ b := by
  induction durations generalizing a with
  | nil => simp
  | cons d durations ih =>
    rw [List.foldl_cons, ih, max_le_iff, List.forall_mem_cons, and_assoc]

/-- The rounded-up maximum is the least bound of the durations from 1 on. -/
theorem roundedUp_le_iff {durations : List ℚ} {k : ℕ} :
    roundedUp durations ≤ k ↔ 1 ≤ k ∧ ∀ d ∈ durations, d ≤ k := by
  have hk : (0 : ℚ) ≤ k := Nat.cast_nonneg k
  have hceil : (longest durations).ceil.toNat ≤ k ↔ ∀ d ∈ durations, d ≤ (k : ℚ) := by
    rw [Int.toNat_le, Rat.ceil_le_iff, longest, foldl_max_le_iff]
    exact and_iff_right hk
  rw [roundedUp, max_le_iff, hceil, and_comm]

theorem le_roundedUp {durations : List ℚ} {d : ℚ} (h : d ∈ durations) :
    d ≤ roundedUp durations :=
  (roundedUp_le_iff.mp le_rfl).2 d h

/-- What is written is the rounded-up maximum, as far as it fits. -/
theorem toNat_targetDuration (segments : List PlaylistSegment) :
    (targetDuration segments).toNat = min (roundedUp (segments.map (·.durationSecs))) u32Max := by
  have hfold : segments.foldl (fun d s => max d s.durationSecs) 0 =
      longest (segments.map (·.durationSecs)) := by
    rw [longest, List.foldl_map]
  have htrunc : ∀ z : ℤ, (truncU32 z).toNat = min z.toNat u32Max := by
    intro z
    have hlt : min z.toNat 0xFFFFFFFF < 2 ^ 32 := by omega
    rw [truncU32, Rat.floor_intCast, UInt32.toNat_ofNat', Nat.mod_eq_of_lt hlt, u32Max]
  have hmax : ∀ a : UInt32, (max a 1).toNat = max a.toNat 1 := by
    intro a
    show (if a ≤ 1 then 1 else a).toNat = _
    split
    · rename_i hle
      exact (Nat.max_eq_right (UInt32.le_iff_toNat_le.mp hle)).symm
    · rename_i hlt
      exact (Nat.max_eq_left (Nat.le_of_not_le fun h => hlt (UInt32.le_iff_toNat_le.mpr h))).symm
  rw [targetDuration, hfold, hmax, htrunc, roundedUp, u32Max]
  omega

/-! ### The tags of a playlist -/

def targetTag : Text := "#EXT-X-TARGETDURATION:".toList

def mediaSequenceTag : Text := "#EXT-X-MEDIA-SEQUENCE:".toList

/-- What a playlist gives behind a tag. -/
def playlistTag (tag playlist : Text) : Option Text :=
  ((lines playlist).find? (tag.isPrefixOf ·)).map (·.drop tag.length)

section Tags

variable {index : SegmentIndex} {hlsVersion : UInt32} {isVod isFinished : Bool}

/-- The durations in the window. -/
def SegmentIndex.durations (index : SegmentIndex) : List ℚ := index.segments.map (·.durationSecs)

/-- The number of the first listed segment, or 0. -/
def SegmentIndex.firstSequence (index : SegmentIndex) : ℕ :=
  (index.segments.head?.map (·.sequence)).getD 0

theorem playlistTag_target :
    playlistTag targetTag (index.generatePlaylist hlsVersion isVod isFinished) =
      some (decimal (min (roundedUp index.durations) u32Max)) := by
  have hdurations : (index.segments.map SegmentIndex.playlistSegment).map (·.durationSecs) =
      index.durations := by
    rw [List.map_map]
    rfl
  rw [playlistTag, SegmentIndex.lines_generatePlaylist, mediaPlaylistLines, headerLines,
    toNat_targetDuration, hdurations]
  rfl

theorem playlistTag_mediaSequence :
    playlistTag mediaSequenceTag (index.generatePlaylist hlsVersion isVod isFinished) =
      some (decimal index.firstSequence) := by
  have hfirst : ((index.segments.map SegmentIndex.playlistSegment).head?.map (·.sequence)).getD 0 =
      index.firstSequence := by
    rw [List.head?_map, Option.map_map]
    rfl
  rw [playlistTag, SegmentIndex.lines_generatePlaylist, mediaPlaylistLines, headerLines, hfirst]
  cases isVod with
  | false => rfl
  | true => rfl

end Tags

/-! ### The window of a run -/

open SegmentIndex (windowStart windowStart_le)

/-- A run has numbered the segments and keeps the end of them, as wide as the window. -/
structure Windowed (window : Option ℕ) (added : List NewSegment) (index : SegmentIndex)
    (evicted : List SegmentEntry) : Prop where
  width : index.liveWindowSegments = window
  whole : evicted ++ index.segments = entriesOf added
  count : evicted.length = windowStart window added.length
  next : index.nextSequence = added.length
  total : index.totalSegmentsProduced = added.length
  maxDuration : index.maxDuration = longest (added.map (·.durationSecs))

theorem entriesOf_concat (added : List NewSegment) (s : NewSegment) :
    entriesOf (added ++ [s]) = entriesOf added ++ [s.entry added.length] := by
  simp [entriesOf, List.zipIdx_append]

theorem length_entriesOf (added : List NewSegment) : (entriesOf added).length = added.length := by
  rw [entriesOf, List.length_map, List.length_zipIdx]

theorem longest_concat (durations : List ℚ) (d : ℚ) :
    longest (durations ++ [d]) = if longest durations < d then d else longest durations := by
  rw [longest, List.foldl_append, List.foldl_cons, List.foldl_nil, ← longest, max_def_lt]

theorem windowed_new (streamId : StreamId) (rendition : RenditionId) (window : Option ℕ) :
    Windowed window [] (.new streamId rendition window) [] where
  width := rfl
  whole := rfl
  count := (Nat.le_zero.mp (windowStart_le window 0)).symm
  next := rfl
  total := rfl
  maxDuration := rfl

/-- One more segment: it is behind the others, and when the window is full the first of it
is returned. -/
theorem Windowed.add {window : Option ℕ} {added : List NewSegment} {index : SegmentIndex}
    {evicted : List SegmentEntry} (h : Windowed window added index evicted) (s : NewSegment) :
    Windowed window (added ++ [s]) (index.add s).1 (evicted ++ (index.add s).2.toList) := by
  set pushed := index.pushBack s.durationSecs s.storagePath s.sizeBytes s.now with hpushed
  have hsegments : pushed.segments = index.segments ++ [s.entry added.length] := by
    rw [← h.next]
    rfl
  have hwhole : evicted ++ pushed.segments = entriesOf (added ++ [s]) := by
    rw [hsegments, ← List.append_assoc, h.whole, entriesOf_concat]
  have hmax : pushed.maxDuration = longest ((added ++ [s]).map (·.durationSecs)) := by
    rw [List.map_append, List.map_singleton, longest_concat, ← h.maxDuration]
    rfl
  have hnext : pushed.nextSequence = (added ++ [s]).length := by
    rw [List.length_append, ← h.next]
    rfl
  have htotal : pushed.totalSegmentsProduced = (added ++ [s]).length := by
    rw [List.length_append, ← h.total]
    rfl
  have hlength := congrArg List.length h.whole
  rw [List.length_append, length_entriesOf, h.count] at hlength
  have hwidth : pushed.liveWindowSegments = window := h.width
  by_cases hfull : index.Full
  · obtain ⟨w, hw, hwide⟩ := id hfull
    obtain rfl : window = some w := h.width.symm.trans hw
    obtain ⟨first, rest, hcons⟩ : ∃ first rest, pushed.segments = first :: rest := by
      rw [hsegments]
      exact List.exists_cons_of_ne_nil (by simp)
    have hadd : index.add s = ({ pushed with segments := rest }, some first) := by
      rw [SegmentIndex.add, SegmentIndex.addSegment_of_full _ _ _ _ hfull, ← hpushed, hcons]
      rfl
    rw [hadd]
    refine ⟨hwidth, ?_, ?_, hnext, htotal, hmax⟩
    · rw [← hwhole, hcons, List.append_assoc]
      rfl
    · simp only [List.length_append, List.length_singleton, Option.toList_some, h.count,
        windowStart] at hlength ⊢
      omega
  · have hadd : index.add s = (pushed, none) := by
      rw [SegmentIndex.add, SegmentIndex.addSegment_of_not_full _ _ _ _ hfull]
    rw [hadd, Option.toList_none, List.append_nil]
    refine ⟨hwidth, hwhole, ?_, hnext, htotal, hmax⟩
    rw [h.count, List.length_append, List.length_singleton]
    cases window with
    | none => rfl
    | some w =>
      have hroom : ¬w ≤ index.segments.length := fun hwide => hfull ⟨w, h.width, hwide⟩
      simp only [windowStart] at hlength ⊢
      omega

theorem SegmentIndex.addAll_concat (index : SegmentIndex) (added : List NewSegment)
    (s : NewSegment) :
    index.addAll (added ++ [s]) =
      (((index.addAll added).1.add s).1,
        (index.addAll added).2 ++ ((index.addAll added).1.add s).2.toList) := by
  rw [addAll, List.foldl_append, List.foldl_cons, List.foldl_nil]
  rfl

/-- Every run from a new index keeps a window of what was added. -/
theorem windowed_addAll (streamId : StreamId) (rendition : RenditionId) (window : Option ℕ)
    (added : List NewSegment) :
    Windowed window added ((SegmentIndex.new streamId rendition window).addAll added).1
      ((SegmentIndex.new streamId rendition window).addAll added).2 := by
  induction added using List.reverseRecOn with
  | nil => exact windowed_new streamId rendition window
  | append_singleton added s ih =>
    rw [SegmentIndex.addAll_concat]
    exact ih.add s

section Windowed

variable {window : Option ℕ} {added : List NewSegment} {index : SegmentIndex}
  {evicted : List SegmentEntry}

/-- The window is the end of what was added. -/
theorem Windowed.segments_eq (h : Windowed window added index evicted) :
    index.segments = (entriesOf added).drop (windowStart window added.length) := by
  rw [← h.whole, ← h.count, List.drop_left]

/-- What was evicted is what came before. -/
theorem Windowed.evicted_eq (h : Windowed window added index evicted) :
    evicted = (entriesOf added).take (windowStart window added.length) := by
  rw [← h.whole, ← h.count, List.take_left]

theorem map_sequence_entriesOf (added : List NewSegment) :
    (entriesOf added).map (·.sequence) = List.range' 0 added.length := by
  rw [entriesOf, List.map_map, ← List.zipIdx_map_snd 0 added]
  rfl

theorem map_durationSecs_entriesOf (added : List NewSegment) :
    (entriesOf added).map (·.durationSecs) = added.map (·.durationSecs) := by
  have hfst : added.map (·.durationSecs) = (added.zipIdx.map Prod.fst).map (·.durationSecs) := by
    rw [List.zipIdx_map_fst]
  rw [hfst, entriesOf, List.map_map, List.map_map]
  rfl

theorem Windowed.listed (h : Windowed window added index evicted) :
    index.segments.map (·.sequence) =
      List.range' (windowStart window added.length)
        (added.length - windowStart window added.length) := by
  rw [h.segments_eq, List.map_drop, map_sequence_entriesOf, List.drop_range', Nat.mul_one,
    Nat.zero_add]

theorem Windowed.evicted_sequences (h : Windowed window added index evicted) :
    evicted.map (·.sequence) = List.range (windowStart window added.length) := by
  rw [h.evicted_eq, List.map_take, map_sequence_entriesOf, ← List.range_eq_range',
    List.take_range, Nat.min_eq_left (windowStart_le _ _)]

/-- The durations in the window are among those added. -/
theorem Windowed.mem_durations (h : Windowed window added index evicted) {d : ℚ}
    (hd : d ∈ index.durations) : d ∈ added.map (·.durationSecs) := by
  rw [SegmentIndex.durations, h.segments_eq, List.map_drop, map_durationSecs_entriesOf] at hd
  exact List.mem_of_mem_drop hd

/-- The window of at least one segment starts before the last one. -/
theorem windowStart_concat_le (hwindow : window ≠ some 0) (n : ℕ) :
    windowStart window (n + 1) ≤ n := by
  cases window with
  | none => exact Nat.zero_le n
  | some w =>
    have hpos : w ≠ 0 := fun h => hwindow (congrArg some h)
    simp only [windowStart]
    omega

theorem Windowed.firstSequence (hwindow : window ≠ some 0)
    (h : Windowed window added index evicted) :
    index.firstSequence = windowStart window added.length := by
  have hhead : index.segments.head?.map (·.sequence) = (index.segments.map (·.sequence)).head? :=
    List.head?_map.symm
  rw [SegmentIndex.firstSequence, hhead, h.listed]
  rcases Nat.eq_zero_or_pos added.length with hzero | hpos
  · rw [hzero, Nat.zero_sub, List.range'_zero, List.head?_nil]
    exact (Nat.le_zero.mp (windowStart_le window 0)).symm
  · obtain ⟨n, hn⟩ : ∃ n, added.length = n + 1 := ⟨added.length - 1, by omega⟩
    have hlt := windowStart_concat_le hwindow n
    rw [hn, List.head?_range', if_neg (by omega), Option.getD_some]

end Windowed

/-! ### The playlists of a run -/

section Run

variable (streamId : StreamId) (rendition : RenditionId) (window : Option ℕ)
  (added : List NewSegment)

/-- The index and the entries evicted so far after the first `n` segments. -/
def after (n : ℕ) : SegmentIndex × List SegmentEntry :=
  (SegmentIndex.new streamId rendition window).addAll (added.take n)

/-- What the playlists of a run show, one after the other. -/
structure SlidingPlaylists : Prop where
  /-- The index holds the last segments, as many as the window is wide. -/
  listed : ∀ n ≤ added.length,
    (after streamId rendition window added n).1.segments.map (·.sequence) =
      List.range' (windowStart window n) (n - windowStart window n)
  evicted : ∀ n ≤ added.length,
    (after streamId rendition window added n).2.map (·.sequence) =
      List.range (windowStart window n)
  counters : ∀ n ≤ added.length,
    (after streamId rendition window added n).1.nextSequence = n ∧
      (after streamId rendition window added n).1.totalSegmentsProduced = n
  names : ∀ n ≤ added.length, ∀ hlsVersion isVod isFinished,
    playlistUris ((after streamId rendition window added n).1.generatePlaylist hlsVersion isVod
        isFinished) =
      ((after streamId rendition window added n).1.segments.map (·.sequence)).map segmentFilename
  mediaSequence : ∀ n ≤ added.length, ∀ hlsVersion isVod isFinished,
    playlistTag mediaSequenceTag ((after streamId rendition window added n).1.generatePlaylist
        hlsVersion isVod isFinished) =
      some (decimal (after streamId rendition window added n).1.firstSequence)
  /-- At most one segment is dropped at the front, and the new one is appended. -/
  successive : ∀ n < added.length, ∃ k ≤ 1,
    (∃ entry, (after streamId rendition window added (n + 1)).1.segments =
      (after streamId rendition window added n).1.segments.drop k ++ [entry]) ∧
    ∀ hlsVersion isVod isFinished,
      playlistUris ((after streamId rendition window added (n + 1)).1.generatePlaylist hlsVersion
          isVod isFinished) =
        (playlistUris ((after streamId rendition window added n).1.generatePlaylist hlsVersion
          isVod isFinished)).drop k ++ [segmentFilename n]
  monotone : ∀ m n, m ≤ n → n ≤ added.length →
    (after streamId rendition window added m).1.firstSequence ≤
      (after streamId rendition window added n).1.firstSequence
  /-- No listed segment is longer than the target duration. -/
  covered : ∀ n ≤ added.length, ∀ hlsVersion isVod isFinished, ∃ target : ℕ,
    playlistTag targetTag ((after streamId rendition window added n).1.generatePlaylist hlsVersion
        isVod isFinished) = some (decimal target) ∧
      ∀ d ∈ (after streamId rendition window added n).1.durations, d ≤ target

theorem windowed_after (n : ℕ) :
    Windowed window (added.take n) (after streamId rendition window added n).1
      (after streamId rendition window added n).2 :=
  windowed_addAll streamId rendition window (added.take n)

variable {window added}

/-- From one playlist to the next. -/
theorem segments_after_succ (hwindow : window ≠ some 0) {n : ℕ} (hn : n < added.length) :
    ∃ k ≤ 1, (after streamId rendition window added (n + 1)).1.segments =
      (after streamId rendition window added n).1.segments.drop k ++ [added[n].entry n] := by
  have htake : added.take (n + 1) = added.take n ++ [added[n]] := by
    rw [List.take_succ_eq_append_getElem hn]
  have hlen : (added.take n).length = n := List.length_take_of_le (Nat.le_of_lt hn)
  have hstart := windowStart_concat_le hwindow n
  have hmono := SegmentIndex.windowStart_mono window (Nat.le_succ n)
  have hnext := (windowed_after streamId rendition window added (n + 1)).segments_eq
  have hnow := (windowed_after streamId rendition window added n).segments_eq
  rw [htake, entriesOf_concat, List.length_append, List.length_singleton, hlen,
    List.drop_append_of_le_length (by rw [length_entriesOf, hlen]; exact hstart)] at hnext
  rw [hlen] at hnow
  refine ⟨windowStart window (n + 1) - windowStart window n, ?_, ?_⟩
  · cases window with
    | none => exact Nat.zero_le 1
    | some w =>
      simp only [windowStart]
      omega
  · rw [hnext, hnow, List.drop_drop, Nat.add_sub_cancel' hmono]

/-- What is written for the target covers the listed segments exactly when all fit it. -/
theorem covered_iff (hwindow : window ≠ some 0) :
    (∀ n ≤ added.length, ∀ hlsVersion isVod isFinished, ∃ target : ℕ,
      playlistTag targetTag ((after streamId rendition window added n).1.generatePlaylist
          hlsVersion isVod isFinished) = some (decimal target) ∧
        ∀ d ∈ (after streamId rendition window added n).1.durations, d ≤ target) ↔
      ∀ s ∈ added, s.durationSecs ≤ u32Max := by
  constructor
  · intro hcovered s hs
    -- The segment is listed in the playlist behind its call.
    obtain ⟨n, hn, rfl⟩ := List.mem_iff_getElem.mp hs
    obtain ⟨target, htarget, hall⟩ := hcovered (n + 1) hn 7 false false
    rw [playlistTag_target, Option.some.injEq] at htarget
    have hvalue := decimal_injective htarget
    have hlisted : added[n].durationSecs ∈
        (after streamId rendition window added (n + 1)).1.durations := by
      obtain ⟨k, -, hsegments⟩ := segments_after_succ streamId rendition hwindow hn
      rw [SegmentIndex.durations, hsegments, List.map_append]
      exact List.mem_append_right _ List.mem_cons_self
    have hle : target ≤ u32Max := hvalue ▸ Nat.min_le_right _ _
    exact (hall _ hlisted).trans (Nat.cast_le.mpr hle)
  · intro hfits n hn hlsVersion isVod isFinished
    refine ⟨_, playlistTag_target, fun d hd => ?_⟩
    obtain ⟨s, hs, rfl⟩ := List.mem_map.mp ((windowed_after _ _ _ _ n).mem_durations hd)
    rw [Nat.cast_min]
    exact le_min (le_roundedUp hd) (hfits s (List.mem_of_mem_take hs))

variable {streamId rendition}

theorem names_after (n : ℕ) (hlsVersion : UInt32) (isVod isFinished : Bool) :
    playlistUris ((after streamId rendition window added n).1.generatePlaylist hlsVersion isVod
        isFinished) =
      ((after streamId rendition window added n).1.segments.map (·.sequence)).map
        segmentFilename := by
  rw [SegmentIndex.playlistUris_generatePlaylist, List.map_map]
  rfl

end Run

/-- **The sliding window**: for every window of at least one segment and every sequence of
`add_segment` calls the playlists are as they should be, up to the target duration; and no
listed segment is longer than that exactly when all durations fit its 32 bits. -/
theorem sliding_window_iff (streamId : StreamId) (rendition : RenditionId) (window : Option ℕ)
    (hwindow : window ≠ some 0) (added : List NewSegment) :
    SlidingPlaylists streamId rendition window added ↔
      ∀ s ∈ added, s.durationSecs ≤ u32Max := by
  rw [← covered_iff streamId rendition hwindow]
  have hlen : ∀ n ≤ added.length, (added.take n).length = n := fun n hn =>
    List.length_take_of_le hn
  have hwindowed := windowed_after streamId rendition window added
  refine ⟨SlidingPlaylists.covered, fun hcovered => ?_⟩
  constructor
  · intro n hn
    have hlisted := (hwindowed n).listed
    rwa [hlen n hn] at hlisted
  · intro n hn
    have hevicted := (hwindowed n).evicted_sequences
    rwa [hlen n hn] at hevicted
  · intro n hn
    have hnext := (hwindowed n).next
    have htotal := (hwindowed n).total
    rw [hlen n hn] at hnext htotal
    exact ⟨hnext, htotal⟩
  · intro n _ hlsVersion isVod isFinished
    exact names_after n hlsVersion isVod isFinished
  · intro n _ hlsVersion isVod isFinished
    exact playlistTag_mediaSequence
  · intro n hn
    obtain ⟨k, hk, hsegments⟩ := segments_after_succ streamId rendition hwindow hn
    refine ⟨k, hk, ⟨_, hsegments⟩, fun hlsVersion isVod isFinished => ?_⟩
    rw [names_after, names_after, hsegments, List.map_append, List.map_append, List.map_drop,
      List.map_drop]
    rfl
  · intro m n hmn hn
    have hm := (hwindowed m).firstSequence hwindow
    have hn' := (hwindowed n).firstSequence hwindow
    rw [hlen m (hmn.trans hn)] at hm
    rw [hlen n hn] at hn'
    rw [hm, hn']
    exact SegmentIndex.windowStart_mono window hmn
  · exact hcovered

/-- Three segments of up to eight seconds. -/
def threeSegments : List NewSegment :=
  [⟨8, "a".toList, 100, ⟨0⟩⟩, ⟨6, "b".toList, 100, ⟨8⟩⟩, ⟨6, "c".toList, 100, ⟨14⟩⟩]

theorem sliding_window_threeSegments :
    SlidingPlaylists ⟨1⟩ .high (some 2) threeSegments :=
  (sliding_window_iff ⟨1⟩ .high (some 2) (by decide) threeSegments).mpr (by decide +kernel)

/-- A segment of 2^32 seconds. -/
def overLong : NewSegment := ⟨4294967296, "a".toList, 100, ⟨0⟩⟩

/-- The target duration that it is listed under is one second too short. -/
theorem overLong_not_covered :
    playlistTag targetTag
        ((after ⟨1⟩ .high (some 5) [overLong] 1).1.generatePlaylist 7 false false) =
        some "4294967295".toList ∧
      4294967296 ∈ (after ⟨1⟩ .high (some 5) [overLong] 1).1.durations ∧
      ¬SlidingPlaylists ⟨1⟩ .high (some 5) [overLong] := by
  refine ⟨?_, List.mem_cons_self, fun h => ?_⟩
  · rw [playlistTag_target]
    decide +kernel
  · have hfits := (covered_iff _ _ (by decide)).mp h.covered overLong List.mem_cons_self
    exact absurd hfits (by decide +kernel)

end StreamInfa.Package
