import StreamInfa.Package.Trace

/-!
The sliding window in the packager's writes.

The `j`-th playlist of a rendition shows the segments from `windowStart` up to its own
(`getElem?_playlistsOf_renditionTrace`), so the window only moves forward: a segment that
was listed and no longer is never comes back.
-/

namespace StreamInfa.Package

/-- The playlists of a rendition, by number: the `j`-th shows the window before `n + j + 1`. -/
theorem getElem?_playlistsOf_renditionTrace {env : PackagerEnv} {r : RenditionId}
    {input : List (EncodedSegment × DateTime)} {index : Option SegmentIndex} {n : ℕ}
    (hown : ∀ x ∈ input, x.1.rendition = r)
    (hindex : ∀ old, index = some old → old.Spans ∧ old.liveWindowSegments = env.segmentWindow)
    (hnext : (index.map SegmentIndex.nextSequence).getD 0 = n) {j : ℕ} {w : StorageWrite}
    (hj : (playlistsOf env r (renditionTrace env index input))[j]? = some w) :
    ∃ (shown : SegmentIndex) (isFinished : Bool),
      w = playlistWrite env r
        (shown.generatePlaylist env.config.hlsVersion env.isVod isFinished) ∧
      shown.Spans ∧ shown.liveWindowSegments = env.segmentWindow ∧
      shown.nextSequence = n + j + 1 := by
  induction input generalizing index n j with
  | nil => simp [renditionTrace, playlistsOf] at hj
  | cons x input ih =>
    obtain ⟨segment, now⟩ := x
    obtain rfl : segment.rendition = r := hown _ List.mem_cons_self
    obtain ⟨hspans, hwindow⟩ := nextIndex_spans hindex segment now
    have hnext' : (nextIndex env index segment now).nextSequence = n + 1 := by
      rw [(nextIndex_spec env index segment now).1, hnext]
    rw [playlistsOf_renditionTrace_cons] at hj
    cases j with
    | zero =>
      obtain rfl := Option.some.inj hj
      exact ⟨_, _, rfl, hspans, hwindow, hnext'⟩
    | succ j =>
      obtain ⟨shown, isFinished, hw, hspans', hwindow', hseq⟩ := ih
        (fun x hx => hown x (List.mem_cons_of_mem _ hx))
        (fun old hold => Option.some.inj hold ▸ ⟨hspans, hwindow⟩) hnext' hj
      exact ⟨shown, isFinished, hw, hspans', hwindow', by omega⟩

/-- What the packager writes: the master playlist and objects of the renditions. -/
theorem path_of_mem_turnWrites {env : PackagerEnv} {p : Packager} {segment : EncodedSegment}
    {now : DateTime} {w : StorageWrite} (hw : w ∈ turnWrites env p segment now) :
    w.path = masterPlaylistPath env.streamId.toText ∨
      w.path = initSegmentPath env.streamId.toText segment.rendition.asStr ∨
      w.path = segmentPath env.streamId.toText segment.rendition.asStr segment.sequence ∨
      w.path = mediaPlaylistPath env.streamId.toText segment.rendition.asStr := by
  rcases List.mem_append.mp hw with hw | hw
  · cases hlookup : p.indexes.lookup segment.rendition with
    | some index =>
      rw [hlookup] at hw
      exact absurd hw List.not_mem_nil
    | none =>
      rw [hlookup] at hw
      simp only [List.mem_cons, List.not_mem_nil, or_false] at hw
      rcases hw with rfl | rfl
      · exact Or.inr (Or.inl rfl)
      · exact Or.inl rfl
  · simp only [mediaWritesOf, List.mem_cons, List.not_mem_nil, or_false] at hw
    rcases hw with rfl | rfl
    · exact Or.inr (Or.inr (Or.inl rfl))
    · exact Or.inr (Or.inr (Or.inr rfl))

theorem path_of_mem_packagerLoop {env : PackagerEnv} {p : Packager} (hopen : p.Open)
    {input : List (EncodedSegment × DateTime)} {w : StorageWrite}
    (hw : w ∈ (packagerLoop env p input).writes) :
    w ∈ p.writes ∨ w.path = masterPlaylistPath env.streamId.toText ∨ ∃ r : RenditionId,
      w.path = initSegmentPath env.streamId.toText r.asStr ∨
      (∃ n, w.path = segmentPath env.streamId.toText r.asStr n) ∨
      w.path = mediaPlaylistPath env.streamId.toText r.asStr := by
  induction input generalizing p with
  | nil => exact Or.inl hw
  | cons x input ih =>
    obtain ⟨segment, now⟩ := x
    obtain ⟨p', hstep, hopen', hwrites, -⟩ := handleSegment_open env segment now hopen
    rw [packagerLoop, hstep] at hw
    rcases ih hopen' hw with hw | hw
    · rw [hwrites] at hw
      rcases List.mem_append.mp hw with hw | hw
      · exact Or.inl hw
      · refine Or.inr ((path_of_mem_turnWrites hw).imp_right fun h => ⟨segment.rendition, ?_⟩)
        exact h.imp_right (Or.imp_left fun h => ⟨segment.sequence, h⟩)
    · exact Or.inr hw

/-- Everything the packager writes is the master playlist or an object of a rendition. -/
theorem path_of_mem_packagerTrace {env : PackagerEnv} {input : List (EncodedSegment × DateTime)}
    {w : StorageWrite} (hw : w ∈ packagerTrace env input) :
    w.path = masterPlaylistPath env.streamId.toText ∨ ∃ r : RenditionId,
      w.path = initSegmentPath env.streamId.toText r.asStr ∨
      (∃ n, w.path = segmentPath env.streamId.toText r.asStr n) ∨
      w.path = mediaPlaylistPath env.streamId.toText r.asStr := by
  have hloop : ∀ w ∈ (packagerLoop env (Packager.start none) input).writes, _ := fun w hw =>
    (path_of_mem_packagerLoop Packager.open_start hw).resolve_left List.not_mem_nil
  have hopen := (packagerLoop_open env .high Packager.open_start input).1
  unfold packagerTrace runPackager at hw
  dsimp only at hw
  split at hw
  · exact hloop w hw
  · rw [writeMasterPlaylist, Packager.send_of_open hopen.room, Option.getD_some] at hw
    rcases List.mem_append.mp hw with hw | hw
    · exact hloop w hw
    · rw [List.mem_singleton.mp hw]
      exact Or.inl rfl

/-! ### Objects written once -/

section Once

variable {env : PackagerEnv} {input : List (EncodedSegment × DateTime)} {r : RenditionId}
  {w w' : StorageWrite}

theorem eq_of_initSegmentPath (hw : w ∈ packagerTrace env input)
    (hw' : w' ∈ packagerTrace env input)
    (hpath : w.path = initSegmentPath env.streamId.toText r.asStr)
    (hpath' : w'.path = initSegmentPath env.streamId.toText r.asStr) : w = w' := by
  have hof : ∀ v : StorageWrite, v.path = initSegmentPath env.streamId.toText r.asStr →
      isOfRendition env.streamId.toText r.asStr v.path = true := by
    intro v hv
    rw [hv, initSegmentPath_eq, isOfRendition_append]
  rw [mem_packagerTrace_iff (hof w hpath)] at hw
  rw [mem_packagerTrace_iff (hof w' hpath')] at hw'
  have hne : ownInput r input ≠ [] := by
    intro hnil
    rw [hnil] at hw
    exact absurd hw List.not_mem_nil
  obtain ⟨init, rest, htrace, -, hrest⟩ := renditionTrace_init env rendition_of_mem_ownInput hne
  have hinit : ∀ v ∈ renditionTrace env none (ownInput r input),
      v.path = initSegmentPath env.streamId.toText r.asStr → v = init := by
    intro v hv hvpath
    rw [htrace] at hv
    exact (List.mem_cons.mp hv).resolve_right fun hv => hrest v hv hvpath
  rw [hinit w hw hpath, hinit w' hw' hpath']

theorem eq_of_segmentPath (hnum : Numbered input) {n : ℕ} (hw : w ∈ packagerTrace env input)
    (hw' : w' ∈ packagerTrace env input)
    (hpath : w.path = segmentPath env.streamId.toText r.asStr n)
    (hpath' : w'.path = segmentPath env.streamId.toText r.asStr n) : w = w' := by
  have hof : isOfRendition env.streamId.toText r.asStr w.path = true := by
    rw [hpath, segmentPath_eq, isOfRendition_append]
  rcases mem_renditionTrace ((mem_packagerTrace_iff hof).mp hw) with
    ⟨-, x, hx, rfl⟩ | ⟨x, hx, index, hmedia⟩
  · rw [← rendition_of_mem_ownInput x hx] at hpath
    exact absurd hpath segmentPath_ne_initSegmentPath.symm
  · obtain rfl := rendition_of_mem_ownInput x hx
    simp only [mediaWritesOf, List.mem_cons, List.not_mem_nil, or_false] at hmedia
    rcases hmedia with rfl | rfl
    · have hx : (x.1, x.2) ∈ input := (List.mem_filter.mp hx).1
      exact (eq_segmentWrite_of_path hnum hx hw rfl).trans
        (eq_segmentWrite_of_path hnum hx hw' (hpath'.trans hpath.symm)).symm
    · exact absurd hpath segmentPath_ne_mediaPlaylistPath.symm

/-- Everything but the playlists is written at most once. -/
theorem eq_of_path (hnum : Numbered input) (hw : w ∈ packagerTrace env input)
    (hw' : w' ∈ packagerTrace env input) (hpath : w'.path = w.path)
    (hplaylist : ¬ ".m3u8".toList <:+ w.path) : w = w' := by
  rcases path_of_mem_packagerTrace hw with hmaster | ⟨r, hinit | ⟨n, hsegment⟩ | hmedia⟩
  · rw [hmaster] at hplaylist
    exact absurd (suffix_m3u8_masterPlaylistPath _) hplaylist
  · exact eq_of_initSegmentPath hw hw' hinit (hpath.trans hinit)
  · exact eq_of_segmentPath hnum hw hw' hsegment (hpath.trans hsegment)
  · rw [hmedia] at hplaylist
    exact absurd (suffix_m3u8_mediaPlaylistPath _ _) hplaylist

end Once

/-! ### The latest playlist -/

/-- The number of playlists of a rendition among the first `k` writes. -/
def playlistCount (env : PackagerEnv) (input : List (EncodedSegment × DateTime)) (r : RenditionId)
    (k : ℕ) : ℕ :=
  (playlistsOf env r ((packagerTrace env input).take k)).length

/-- The last playlist of a rendition among the first `k` writes lists segment `n`. -/
def ListsSegment (env : PackagerEnv) (input : List (EncodedSegment × DateTime)) (k : ℕ)
    (r : RenditionId) (n : ℕ) : Prop :=
  SegmentIndex.windowStart env.segmentWindow (playlistCount env input r k) ≤ n ∧
    n < playlistCount env input r k

section Latest

variable {env : PackagerEnv} {input : List (EncodedSegment × DateTime)} {r : RenditionId}
  {k k' n : ℕ}

theorem playlistCount_mono (h : k ≤ k') :
    playlistCount env input r k ≤ playlistCount env input r k' := by
  exact ((List.take_sublist_take_left h).filter _).length_le

/-- A segment that was listed and no longer is never comes back. -/
theorem ListsSegment.not_again (hbefore : ListsSegment env input k r n) {m : ℕ} (hkm : k ≤ m)
    (hnow : ¬ ListsSegment env input m r n) (hmk' : m ≤ k') : ¬ ListsSegment env input k' r n := by
  intro hagain
  refine hnow ⟨?_, ?_⟩
  · exact (SegmentIndex.windowStart_mono _ (playlistCount_mono hmk')).trans hagain.1
  · exact hbefore.2.trans_le (playlistCount_mono hkm)

/-- The last playlist among the first `k` writes is generated from an index that holds
exactly the segments listed. -/
theorem exists_index_of_getLast? {w : StorageWrite}
    (hlast : (playlistsOf env r ((packagerTrace env input).take k)).getLast? = some w) :
    ∃ (index : SegmentIndex) (isFinished : Bool),
      w = playlistWrite env r
        (index.generatePlaylist env.config.hlsVersion env.isVod isFinished) ∧
      ∀ n, (∃ entry ∈ index.segments, entry.sequence = n) ↔ ListsSegment env input k r n := by
  have hprefix : playlistsOf env r ((packagerTrace env input).take k) <+:
      playlistsOf env r (renditionTrace env none (ownInput r input)) := by
    rw [← playlistsOf_packagerTrace]
    exact (List.take_prefix k _).filter _
  obtain ⟨rest, hrest⟩ := hprefix
  have hpos : 0 < playlistCount env input r k := by
    refine Nat.pos_of_ne_zero fun hzero => ?_
    rw [List.length_eq_zero_iff.mp hzero] at hlast
    exact absurd hlast (by simp)
  have hget : (playlistsOf env r (renditionTrace env none (ownInput r input)))[
      playlistCount env input r k - 1]? = some w := by
    rw [← hrest, playlistCount, List.getElem?_append_left (Nat.sub_one_lt_of_lt hpos),
      ← List.getLast?_eq_getElem?, hlast]
  obtain ⟨index, isFinished, hw, hspans, hwindow, hnext⟩ :=
    getElem?_playlistsOf_renditionTrace (n := 0) rendition_of_mem_ownInput
      (fun old hold => absurd hold (by simp)) rfl hget
  have hcount : index.nextSequence = playlistCount env input r k := by omega
  refine ⟨index, isFinished, hw, fun n => ?_⟩
  rw [hspans.mem_iff, hwindow, hcount, ListsSegment]

end Latest

end StreamInfa.Package
