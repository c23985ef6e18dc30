import Mathlib.Data.List.Chain
import StreamInfa.Lib.Follow
import StreamInfa.Package.Player
import StreamInfa.Package.PlaylistReader
import StreamInfa.Package.Window

/-!
What a player gets of a live rendition that it follows.

Each time it polls, the player reads the media playlist and fetches the files it names from the
number on that it waits for. In between the packager has gone on, and segments have left the
window. **`live_playback`**: the player gets each segment that some playlist it read has listed,
once and in order, as it was packaged; and it misses none exactly when no playlist starts behind
the end of the one it read before.
-/

namespace StreamInfa.Package

/-- A player: the number it waits for, and what it has played. -/
structure LivePlayer where
  next : ℕ
  played : List (MediaSegment × Bytes)

namespace LivePlayer

def start : LivePlayer := ⟨0, []⟩

/-- A segment with its media, as `fetch` gives the objects. -/
def fetchMedia (streamId rendition : Text) (fetch : Text → Option Bytes) (s : MediaSegment) :
    Option (MediaSegment × Bytes) :=
  ((fetch (renditionPrefix streamId rendition ++ s.uri)).bind decodeFragment).map fun f =>
    (s, f.mediaData)

/-- Read the playlist and play what is new. -/
def poll (streamId rendition : Text) (player : LivePlayer) (fetch : Text → Option Bytes) :
    Option LivePlayer := do
  let object ← fetch (mediaPlaylistPath streamId rendition)
  let playlist ← readMediaPlaylist (fromUtf8Lossy object)
  let media ← (playlist.segments.filter fun s => player.next ≤ s.sequence).mapM
    (fetchMedia streamId rendition fetch)
  return ⟨max player.next (playlist.mediaSequence + playlist.segments.length),
    player.played ++ media⟩

/-- Poll again and again, with what the storage holds each time. -/
def watch (streamId rendition : Text) (fetches : List (Text → Option Bytes)) : Option LivePlayer :=
  fetches.foldlM (poll streamId rendition) start

end LivePlayer

/-- The segments of a rendition as a playlist lists them, with their media. -/
def aired (own : List (EncodedSegment × DateTime)) : List (MediaSegment × Bytes) :=
  own.zipIdx.map fun (x, n) =>
    (⟨n, thousandths x.1.durationSecs, some x.2.format, segmentFilename n⟩, x.1.videoData)

theorem map_sequence_aired (own : List (EncodedSegment × DateTime)) :
    (aired own).map (·.1.sequence) = List.range' 0 (aired own).length := by
  rw [aired, List.map_map, List.length_map, List.length_zipIdx, ← List.zipIdx_map_snd 0 own]
  rfl

/-! ### The playlists of a rendition -/

/-- What a segment adds to the index. -/
def newSegment (env : PackagerEnv) (x : EncodedSegment × DateTime) : NewSegment where
  durationSecs := x.1.durationSecs
  storagePath := segmentPath env.streamId.toText x.1.rendition.asStr x.1.sequence
  sizeBytes := (encoded (generateMediaSegment (mediaSegmentParams x.1))).length
  now := x.2

section Playlists

variable {env : PackagerEnv} {r : RenditionId} {own : List (EncodedSegment × DateTime)}

/-- The index of a rendition behind its first segments. -/
def indexOf (env : PackagerEnv) (r : RenditionId) (own : List (EncodedSegment × DateTime)) (n : ℕ) :
    SegmentIndex :=
  (after env.streamId r env.segmentWindow (own.map (newSegment env)) n).1

theorem getD_indexAfter (hown : ∀ x ∈ own, x.1.rendition = r) :
    (indexAfter env none own).getD (SegmentIndex.new env.streamId r env.segmentWindow) =
      ((SegmentIndex.new env.streamId r env.segmentWindow).addAll
        (own.map (newSegment env))).1 := by
  induction own using List.reverseRecOn with
  | nil => rfl
  | append_singleton own x ih =>
    have hx : x.1.rendition = r := hown x (by simp)
    have hstep : indexAfter env none (own ++ [x]) =
        some (nextIndex env (indexAfter env none own) x.1 x.2) := by
      simp [indexAfter]
    have hbefore := ih fun y hy => hown y (List.mem_append_left _ hy)
    rw [hstep, Option.getD_some, nextIndex, hx, hbefore, List.map_append, List.map_singleton,
      SegmentIndex.addAll_concat, SegmentIndex.add, newSegment, hx]

theorem length_playlistsOf_renditionTrace {index : Option SegmentIndex}
    (hown : ∀ x ∈ own, x.1.rendition = r) :
    (playlistsOf env r (renditionTrace env index own)).length = own.length := by
  induction own generalizing index with
  | nil => rfl
  | cons x own ih =>
    obtain rfl : x.1.rendition = r := hown x List.mem_cons_self
    rw [playlistsOf_renditionTrace_cons, List.length_cons, List.length_cons,
      ih fun y hy => hown y (List.mem_cons_of_mem _ hy)]

/-- The playlists of a rendition show its index behind each of its segments. -/
theorem getElem?_playlistsOf (env : PackagerEnv) {n : ℕ} {x : EncodedSegment × DateTime}
    (hown : ∀ x ∈ own, x.1.rendition = r) (hx : own[n]? = some x) :
    (playlistsOf env r (renditionTrace env none own))[n]? = some (playlistWrite env r
      ((indexOf env r own (n + 1)).generatePlaylist env.config.hlsVersion env.isVod
        x.1.isLast)) := by
  obtain ⟨hlt, hget⟩ := List.getElem?_eq_some_iff.mp hx
  have hsplit : own = own.take n ++ x :: own.drop (n + 1) := by
    rw [← hget, ← List.drop_eq_getElem_cons hlt, List.take_append_drop]
  have hbefore : ∀ y ∈ own.take n, y.1.rendition = r := fun y hy =>
    hown y (List.mem_of_mem_take hy)
  have hcount : (playlistsOf env r (renditionTrace env none (own.take n))).length = n := by
    rw [length_playlistsOf_renditionTrace hbefore, List.length_take_of_le (Nat.le_of_lt hlt)]
  have hxr : x.1.rendition = r := hown x (List.mem_of_getElem? hx)
  have hindex : nextIndex env (indexAfter env none (own.take n)) x.1 x.2 =
      indexOf env r own (n + 1) := by
    have htake : own.take (n + 1) = own.take n ++ [x] := by
      rw [List.take_succ_eq_append_getElem hlt, hget]
    rw [nextIndex, hxr, getD_indexAfter hbefore, indexOf, after, ← List.map_take, htake,
      List.map_append, List.map_singleton, SegmentIndex.addAll_concat, SegmentIndex.add, newSegment,
      hxr]
  subst hxr
  conv_lhs => rw [hsplit]
  rw [renditionTrace_append, playlistsOf_append, List.getElem?_append_right (Nat.le_of_eq hcount),
    hcount, Nat.sub_self, playlistsOf_renditionTrace_cons, List.getElem?_cons_zero, hindex]

theorem windowed_indexOf (env : PackagerEnv) (r : RenditionId) {n : ℕ} (hn : n ≤ own.length) :
    (indexOf env r own n).segments.map (·.sequence) =
        List.range' (SegmentIndex.windowStart env.segmentWindow n)
          (n - SegmentIndex.windowStart env.segmentWindow n) ∧
      (env.segmentWindow ≠ some 0 →
        (indexOf env r own n).firstSequence = SegmentIndex.windowStart env.segmentWindow n) ∧
      ∀ entry ∈ (indexOf env r own n).segments,
        ∃ x ∈ own, entry.durationSecs = x.1.durationSecs := by
  have hlength : ((own.map (newSegment env)).take n).length = n := by
    rw [List.length_take, List.length_map, Nat.min_eq_left hn]
  have hwindowed := windowed_after env.streamId r env.segmentWindow (own.map (newSegment env)) n
  have hlisted := hwindowed.listed
  rw [hlength] at hlisted
  refine ⟨hlisted, fun hwindow => ?_, fun entry hentry => ?_⟩
  · have hfirst := hwindowed.firstSequence hwindow
    rwa [hlength] at hfirst
  · obtain ⟨s, hs, heq⟩ := List.mem_map.mp (hwindowed.mem_durations (List.mem_map_of_mem hentry))
    obtain ⟨x, hx, rfl⟩ := List.mem_map.mp (List.mem_of_mem_take hs)
    exact ⟨x, hx, heq.symm⟩

/-- The segments in the window are those aired with a number in it. -/
theorem listed_indexOf {n : ℕ} (hn : n ≤ own.length) :
    (indexOf env r own n).listed =
      ((aired own).map Prod.fst).filter fun s =>
        decide (SegmentIndex.windowStart env.segmentWindow n ≤ s.sequence ∧ s.sequence < n) := by
  have hlength : ((own.map (newSegment env)).take n).length = n := by
    rw [List.length_take, List.length_map, Nat.min_eq_left hn]
  have hsegments := (windowed_after env.streamId r env.segmentWindow
    (own.map (newSegment env)) n).segments_eq
  rw [hlength] at hsegments
  have haired : (entriesOf (own.map (newSegment env))).map (fun entry =>
      (SegmentIndex.playlistSegment entry).listed entry.sequence) = (aired own).map Prod.fst := by
    rw [entriesOf, aired, List.zipIdx_map, List.map_map, List.map_map, List.map_map]
    rfl
  have htake : entriesOf ((own.map (newSegment env)).take n) =
      (entriesOf (own.map (newSegment env))).take n := by
    conv_rhs => rw [← List.take_append_drop n (own.map (newSegment env))]
    rw [entriesOf, entriesOf, List.zipIdx_append, List.map_append, List.take_left']
    rw [List.length_map, List.length_zipIdx, hlength]
  have hnumbers : ((aired own).map Prod.fst).map MediaSegment.sequence =
      List.range' 0 ((aired own).map Prod.fst).length := by
    rw [List.length_map, ← map_sequence_aired, List.map_map]
    rfl
  rw [SegmentIndex.listed, indexOf, hsegments, htake, List.map_drop, List.map_take, haired,
    take_drop_eq_filter hnumbers]
  simp only [Nat.zero_add]

/-- Of a playlist a player gets the segments in the window, and the number behind them. -/
theorem readMediaPlaylist_indexOf {n : ℕ} (r : RenditionId) (isFinished : Bool)
    (hn : n ≤ own.length) (hwindow : env.segmentWindow ≠ some 0)
    (hduration : ∀ x ∈ own, 0 ≤ x.1.durationSecs) :
    ∃ playlist, readMediaPlaylist ((indexOf env r own n).generatePlaylist env.config.hlsVersion
        env.isVod isFinished) = some playlist ∧
      playlist.segments = (indexOf env r own n).listed ∧
      playlist.mediaSequence + playlist.segments.length = n := by
  obtain ⟨hsequence, hfirst, hdurations⟩ := windowed_indexOf env r hn
  have hlength := congrArg List.length hsequence
  rw [List.length_map, List.length_range'] at hlength
  have hnonneg : ∀ entry ∈ (indexOf env r own n).segments, 0 ≤ entry.durationSecs := by
    intro entry hentry
    obtain ⟨x, hx, heq⟩ := hdurations entry hentry
    exact heq ▸ hduration x hx
  rw [← hlength] at hsequence
  obtain ⟨playlist, hread, hsegments, hmedia⟩ :=
    SegmentIndex.readMediaPlaylist_generatePlaylist hsequence hnonneg
  refine ⟨playlist, hread, hsegments, ?_⟩
  have hstart := SegmentIndex.windowStart_le env.segmentWindow n
  have hseq : playlist.mediaSequence = SegmentIndex.windowStart env.segmentWindow n :=
    hmedia.trans (hfirst hwindow)
  rw [hseq, hsegments, SegmentIndex.listed, List.length_map, hlength]
  omega

end Playlists

/-! ### One poll -/

instance {env : PackagerEnv} {input : List (EncodedSegment × DateTime)} {k n : ℕ}
    {r : RenditionId} : Decidable (ListsSegment env input k r n) :=
  inferInstanceAs (Decidable (_ ∧ _))

section Poll

variable {env : PackagerEnv} {input : List (EncodedSegment × DateTime)} {r : RenditionId} {k : ℕ}

/-- The last playlist among the first writes. -/
theorem getLast?_playlistsOf_take (hpublished : 0 < playlistCount env input r k) :
    playlistCount env input r k ≤ (ownInput r input).length ∧
      ∃ isFinished, (playlistsOf env r ((packagerTrace env input).take k)).getLast? =
        some (playlistWrite env r ((indexOf env r (ownInput r input)
          (playlistCount env input r k)).generatePlaylist env.config.hlsVersion env.isVod
            isFinished)) := by
  obtain ⟨rest, hrest⟩ : playlistsOf env r ((packagerTrace env input).take k) <+:
      playlistsOf env r (renditionTrace env none (ownInput r input)) := by
    rw [← playlistsOf_packagerTrace]
    exact (List.take_prefix k _).filter _
  have hlength := congrArg List.length hrest
  rw [List.length_append, length_playlistsOf_renditionTrace rendition_of_mem_ownInput] at hlength
  have hle : playlistCount env input r k ≤ (ownInput r input).length := by
    rw [playlistCount]
    omega
  obtain ⟨n, hn⟩ : ∃ n, playlistCount env input r k = n + 1 :=
    ⟨playlistCount env input r k - 1, by omega⟩
  have hlt : n < (ownInput r input).length := by omega
  have hget := getElem?_playlistsOf env rendition_of_mem_ownInput (List.getElem?_eq_getElem hlt)
  refine ⟨hle, (ownInput r input)[n].1.isLast, ?_⟩
  rw [List.getLast?_eq_getElem?, ← playlistCount, hn, Nat.add_sub_cancel, ← hget, ← hrest,
    List.getElem?_append_left]
  rw [← playlistCount]
  omega

theorem sequence_ownInput (hnum : Numbered input) {n : ℕ} {x : EncodedSegment × DateTime}
    (hx : (ownInput r input)[n]? = some x) : x.1.sequence = n := by
  have hsequence := congrArg (·[n]?) (hnum.sequence r)
  have hlt := (List.getElem?_eq_some_iff.mp hx).1
  simp only [List.getElem?_map, hx, Option.map_some, List.getElem?_range hlt,
    Option.some.injEq] at hsequence
  exact hsequence

/-- The file of a listed segment has been written. -/
theorem segmentWrite_mem_take (hnum : Numbered input) {n : ℕ} {x : EncodedSegment × DateTime}
    (hx : (ownInput r input)[n]? = some x) (hlisted : ListsSegment env input k r n) :
    segmentWrite env x.1 (encoded (generateMediaSegment (mediaSegmentParams x.1))) ∈
      (packagerTrace env input).take k := by
  obtain ⟨hle, isFinished, hlast⟩ :=
    getLast?_playlistsOf_take (Nat.zero_lt_of_lt hlisted.2)
  set w := playlistWrite env r ((indexOf env r (ownInput r input)
    (playlistCount env input r k)).generatePlaylist env.config.hlsVersion env.isVod isFinished)
    with hw
  have hmem : w ∈ (packagerTrace env input).take k :=
    (List.mem_filter.mp (List.mem_of_getLast? hlast)).1
  obtain ⟨before, behind, hsplit⟩ := List.append_of_mem hmem
  have htrace : packagerTrace env input =
      before ++ w :: (behind ++ (packagerTrace env input).drop k) := by
    rw [← List.cons_append, ← List.append_assoc, ← hsplit, List.take_append_drop]
  have hnamed : segmentFilename n ∈ playlistUris (playlistText w) := by
    have hnumber : n ∈ (indexOf env r (ownInput r input)
        (playlistCount env input r k)).segments.map (·.sequence) := by
      rw [(windowed_indexOf env r hle).1, List.mem_range'_1]
      obtain ⟨hfrom, hto⟩ := hlisted
      omega
    obtain ⟨entry, hentry, rfl⟩ := List.mem_map.mp hnumber
    rw [playlistText_playlistWrite, SegmentIndex.playlistUris_generatePlaylist]
    exact List.mem_map_of_mem hentry
  obtain ⟨n', heq, w', hw', hpath⟩ :=
    eachAfter_iff.mp (packagerTrace_listsWritten hnum r) before w _ htrace rfl _ hnamed
  obtain rfl := segmentFilename_injective heq
  obtain ⟨hin, hr⟩ := List.mem_filter.mp (List.mem_of_getElem? hx)
  have hr : x.1.rendition = r := of_decide_eq_true hr
  have hsegment := eq_segmentWrite_of_path hnum hin (w := w')
    (htrace ▸ List.mem_append_left _ hw') (by rw [hpath, hr, sequence_ownInput hnum hx])
  rw [← hsegment, hsplit]
  exact List.mem_append_left _ hw'

/-- What is packaged, as the player needs it. -/
structure Playable (env : PackagerEnv) (input : List (EncodedSegment × DateTime))
    (r : RenditionId) : Prop where
  numbered : Numbered input
  window : env.segmentWindow ≠ some 0
  duration : ∀ x ∈ ownInput r input, 0 ≤ x.1.durationSecs
  size : ∀ x ∈ ownInput r input, x.1.videoData.length + 8 < 2 ^ 32

variable {fetch : Text → Option Bytes}

/-- A listed segment is fetched as it was packaged. -/
theorem fetch_listed (h : Playable env input r)
    (hfetch : HoldsLast ((packagerTrace env input).take k) fetch) {shown : MediaSegment × Bytes}
    (hshown : shown ∈ aired (ownInput r input))
    (hlisted : ListsSegment env input k r shown.1.sequence) :
    LivePlayer.fetchMedia env.streamId.toText r.asStr fetch shown.1 = some shown := by
  obtain ⟨⟨x, n⟩, hmem, rfl⟩ := List.mem_map.mp hshown
  have hx : (ownInput r input)[n]? = some x := List.mem_zipIdx_iff_getElem?.mp hmem
  have hin := List.mem_of_getElem? hx
  have hsegment := fetch_segment h.numbered (List.take_subset k _) hfetch hin
    (segmentWrite_mem_take h.numbered hx hlisted) (h.size x hin)
  rw [sequence_ownInput h.numbered hx] at hsegment
  obtain ⟨f, hf, hdata⟩ := Option.map_eq_some_iff.mp hsegment
  rw [LivePlayer.fetchMedia, hf, Option.map_some, hdata]

/-- A poll plays what is listed from the awaited number on. -/
theorem LivePlayer.poll_eq (h : Playable env input r)
    (hfetch : HoldsLast ((packagerTrace env input).take k) fetch)
    (hpublished : 0 < playlistCount env input r k) (player : LivePlayer) :
    player.poll env.streamId.toText r.asStr fetch =
      some ⟨max player.next (playlistCount env input r k),
        player.played ++ (aired (ownInput r input)).filter fun shown =>
          decide (ListsSegment env input k r shown.1.sequence ∧
            player.next ≤ shown.1.sequence)⟩ := by
  obtain ⟨hle, isFinished, hlast⟩ := getLast?_playlistsOf_take hpublished
  obtain ⟨playlist, hread, hsegments, hcount⟩ :=
    readMediaPlaylist_indexOf r isFinished hle h.window h.duration
  have hobject := hfetch _ _ hlast
  have hfresh : playlist.segments.filter (fun s => player.next ≤ s.sequence) =
      ((aired (ownInput r input)).filter fun shown =>
        decide (ListsSegment env input k r shown.1.sequence ∧
          player.next ≤ shown.1.sequence)).map Prod.fst := by
    rw [hsegments, listed_indexOf hle, List.filter_filter, List.filter_map]
    congr 1
    refine List.filter_congr fun shown _ => ?_
    simp [ListsSegment, and_comm]
  have hmedia : (playlist.segments.filter fun s => player.next ≤ s.sequence).mapM
      (fetchMedia env.streamId.toText r.asStr fetch) =
        some ((aired (ownInput r input)).filter fun shown =>
          decide (ListsSegment env input k r shown.1.sequence ∧
            player.next ≤ shown.1.sequence)) := by
    rw [hfresh, List.mapM_map, mapM_eq_some_of_forall (g := id), List.map_id]
    intro shown hshown
    obtain ⟨hin, hlisted⟩ := List.mem_filter.mp hshown
    exact fetch_listed h hfetch hin (of_decide_eq_true hlisted).1
  have htext : fromUtf8Lossy (playlistWrite env r ((indexOf env r (ownInput r input)
      (playlistCount env input r k)).generatePlaylist env.config.hlsVersion env.isVod
        isFinished)).data = _ := playlistText_playlistWrite _
  simp only [LivePlayer.poll, hobject, Option.bind_eq_bind, Option.bind_some, htext, hread, hmedia,
    hcount]
  rfl

end Poll

/-! ### Following a rendition -/

section Following

variable {env : PackagerEnv} {input : List (EncodedSegment × DateTime)} {r : RenditionId}
  {fetch : ℕ → Text → Option Bytes}

theorem pairwise_aired (own : List (EncodedSegment × DateTime)) :
    (aired own).Pairwise fun shown shown' => shown.1.sequence ≤ shown'.1.sequence := by
  rw [← List.pairwise_map (f := fun shown : MediaSegment × Bytes => shown.1.sequence),
    map_sequence_aired]
  exact List.pairwise_le_range'

/-- The player has what was listed, and waits for the number behind the last playlist. -/
theorem watch_eq (h : Playable env input r) {moments : List ℕ}
    (hfetch : ∀ k ∈ moments, HoldsLast ((packagerTrace env input).take k) (fetch k))
    (hordered : moments.Pairwise (· ≤ ·))
    (hpublished : ∀ k ∈ moments, 0 < playlistCount env input r k) :
    LivePlayer.watch env.streamId.toText r.asStr (moments.map fetch) =
      some ⟨(moments.getLast?.map (playlistCount env input r)).getD 0,
        (aired (ownInput r input)).filter fun shown =>
          decide (∃ k ∈ moments, ListsSegment env input k r shown.1.sequence)⟩ := by
  induction moments using List.reverseRecOn with
  | nil => simp [LivePlayer.watch, LivePlayer.start]
  | append_singleton moments k ih =>
    obtain ⟨hbefore, -, hle⟩ := List.pairwise_append.mp hordered
    have hle : ∀ k' ∈ moments, k' ≤ k := fun k' hk' => hle k' hk' k (List.mem_singleton_self k)
    have hin : ∀ k' ∈ moments, k' ∈ moments ++ [k] := fun k' hk' => List.mem_append_left _ hk'
    have hk : k ∈ moments ++ [k] := by simp
    have hlast : ∀ k' ∈ moments, playlistCount env input r k' ≤
        (moments.getLast?.map (playlistCount env input r)).getD 0 := by
      intro k' hk'
      rcases List.eq_nil_or_concat moments with rfl | ⟨earlier, last, rfl⟩
      · exact absurd hk' List.not_mem_nil
      · rw [List.concat_eq_append] at hk' hbefore ⊢
        rw [List.getLast?_concat, Option.map_some, Option.getD_some]
        refine playlistCount_mono ?_
        rcases List.mem_append.mp hk' with hk' | hk'
        · exact (List.pairwise_append.mp hbefore).2.2 k' hk' last (List.mem_singleton_self last)
        · exact Nat.le_of_eq (List.mem_singleton.mp hk')
    have hnext : (moments.getLast?.map (playlistCount env input r)).getD 0 ≤
        playlistCount env input r k := by
      cases hget : moments.getLast? with
      | none => exact Nat.zero_le _
      | some last => exact playlistCount_mono (hle last (List.mem_of_getLast? hget))
    have hwatched := ih (fun k' hk' => hfetch k' (hin k' hk')) hbefore
      fun k' hk' => hpublished k' (hin k' hk')
    rw [LivePlayer.watch] at hwatched ⊢
    rw [List.map_append, List.map_singleton, List.foldlM_append, hwatched, Option.bind_eq_bind,
      Option.bind_some, List.foldlM_cons, LivePlayer.poll_eq h (hfetch k hk) (hpublished k hk),
      List.getLast?_concat]
    -- What is listed again below the awaited number was in the playlist before.
    have hagain : ∀ n, ListsSegment env input k r n →
        n < (moments.getLast?.map (playlistCount env input r)).getD 0 →
        ∃ k' ∈ moments, ListsSegment env input k' r n := by
      intro n hlisted hlt
      cases hget : moments.getLast? with
      | none =>
        rw [hget] at hlt
        exact absurd hlt (Nat.not_lt_zero n)
      | some last =>
        rw [hget] at hlt
        have hmem := List.mem_of_getLast? hget
        have hcount : playlistCount env input r last ≤ playlistCount env input r k :=
          playlistCount_mono (hle last hmem)
        have hstart := SegmentIndex.windowStart_mono env.segmentWindow hcount
        exact ⟨last, hmem, hstart.trans hlisted.1, hlt⟩
    have hplayed : ((aired (ownInput r input)).filter fun shown =>
          decide (∃ k' ∈ moments, ListsSegment env input k' r shown.1.sequence)) ++
        ((aired (ownInput r input)).filter fun shown =>
          decide (ListsSegment env input k r shown.1.sequence ∧
            (moments.getLast?.map (playlistCount env input r)).getD 0 ≤ shown.1.sequence)) =
        (aired (ownInput r input)).filter fun shown =>
          decide (∃ k' ∈ moments ++ [k], ListsSegment env input k' r shown.1.sequence) := by
      rw [filter_append_filter (pairwise_aired (ownInput r input))]
      · refine List.filter_congr fun shown _ => ?_
        rw [← Bool.decide_or, decide_eq_decide]
        constructor
        · rintro (⟨k', hk', hlisted⟩ | ⟨hlisted, -⟩)
          · exact ⟨k', hin k' hk', hlisted⟩
          · exact ⟨k, hk, hlisted⟩
        · rintro ⟨k', hk', hlisted⟩
          rcases List.mem_append.mp hk' with hk' | hk'
          · exact Or.inl ⟨k', hk', hlisted⟩
          · rw [List.mem_singleton.mp hk'] at hlisted
            rcases Nat.lt_or_ge shown.1.sequence
              ((moments.getLast?.map (playlistCount env input r)).getD 0) with hlt | hge
            · exact Or.inl (hagain _ hlisted hlt)
            · exact Or.inr ⟨hlisted, hge⟩
      · intro shown _ hp
        obtain ⟨k', hk', hlisted⟩ := of_decide_eq_true hp
        exact hlisted.2.trans_le (hlast k' hk')
      · exact fun shown _ hq => (of_decide_eq_true hq).2
    rw [Option.bind_eq_bind, Option.bind_some, List.foldlM_nil, Nat.max_eq_right hnext, hplayed]
    rfl

section Windows

variable {first : ℕ} {later : List ℕ}

/-- What the playlists list, by the numbers they end before. -/
theorem exists_listed_iff {n : ℕ} :
    (∃ k ∈ first :: later, ListsSegment env input k r n) ↔
      ∃ c ∈ playlistCount env input r first :: later.map (playlistCount env input r),
        SegmentIndex.windowStart env.segmentWindow c ≤ n ∧ n < c := by
  simp only [← List.map_cons, List.mem_map, exists_exists_and_eq_and, ListsSegment]

theorem pairwise_playlistCount (hordered : (first :: later).Pairwise (· ≤ ·)) :
    (playlistCount env input r first :: later.map (playlistCount env input r)).Pairwise
      (· ≤ ·) := by
  rw [← List.map_cons, List.pairwise_map]
  exact hordered.imp playlistCount_mono

/-- Listed are numbers between the start of the first playlist and the end of the last. -/
theorem between_of_listed {n : ℕ} (hordered : (first :: later).Pairwise (· ≤ ·))
    (hlisted : ∃ k ∈ first :: later, ListsSegment env input k r n) :
    SegmentIndex.windowStart env.segmentWindow (playlistCount env input r first) ≤ n ∧
      n < playlistCount env input r (later.getLastD first) := by
  have hmono : Monotone (SegmentIndex.windowStart env.segmentWindow) :=
    fun _ _ => SegmentIndex.windowStart_mono env.segmentWindow
  have hbetween := between_of_seen hmono (pairwise_playlistCount hordered)
    (exists_listed_iff.mp hlisted)
  rwa [List.getLastD_map] at hbetween

/-- All of them are listed exactly when each playlist reaches back to the one before. -/
theorem isChain_iff_listed (hordered : (first :: later).Pairwise (· ≤ ·)) :
    (first :: later).IsChain (fun k k' => SegmentIndex.windowStart env.segmentWindow
        (playlistCount env input r k') ≤ playlistCount env input r k) ↔
      ∀ n, SegmentIndex.windowStart env.segmentWindow (playlistCount env input r first) ≤ n →
        n < playlistCount env input r (later.getLastD first) →
          ∃ k ∈ first :: later, ListsSegment env input k r n := by
  have hmono : Monotone (SegmentIndex.windowStart env.segmentWindow) :=
    fun _ _ => SegmentIndex.windowStart_mono env.segmentWindow
  have hcounts : (playlistCount env input r first ::
      later.map (playlistCount env input r)).Pairwise (· ≤ ·) := pairwise_playlistCount hordered
  have hfollows :=
    isChain_iff_follows hmono (SegmentIndex.windowStart_le env.segmentWindow) hcounts
  rw [← List.map_cons, List.isChain_map, List.getLastD_map] at hfollows
  rw [hfollows]
  simp only [exists_listed_iff, List.map_cons]

end Windows

/-- **Following a live rendition**: a player polls behind the first `k` writes of the packager, for
one `k` after another, and each time finds the last of these at every path; at its first poll the
playlist is there. The player gets what some playlist it read has listed, in order and once, as it
was packaged. It misses nothing between the first and the last of them exactly when no playlist
starts behind the end of the one it read before. -/
theorem live_playback (first : ℕ) (later : List ℕ) (h : Playable env input r)
    (hfetch : ∀ k ∈ first :: later, HoldsLast ((packagerTrace env input).take k) (fetch k))
    (hordered : (first :: later).Pairwise (· ≤ ·))
    (hpublished : 0 < playlistCount env input r first) :
    ∃ player, LivePlayer.watch env.streamId.toText r.asStr ((first :: later).map fetch) =
        some player ∧
      player.played = ((aired (ownInput r input)).filter fun shown =>
        decide (∃ k ∈ first :: later, ListsSegment env input k r shown.1.sequence)) ∧
      (∀ shown ∈ player.played, ∃ x, (ownInput r input)[shown.1.sequence]? = some x ∧
        shown.2 = x.1.videoData ∧ |shown.1.duration - x.1.durationSecs| ≤ 1 / 2000) ∧
      ((first :: later).IsChain (fun k k' => SegmentIndex.windowStart env.segmentWindow
          (playlistCount env input r k') ≤ playlistCount env input r k) ↔
        player.played = (aired (ownInput r input)).filter fun shown =>
          decide (SegmentIndex.windowStart env.segmentWindow (playlistCount env input r first) ≤
              shown.1.sequence ∧
            shown.1.sequence < playlistCount env input r (later.getLastD first))) := by
  have hall : ∀ k ∈ first :: later, 0 < playlistCount env input r k := by
    intro k hk
    rcases List.mem_cons.mp hk with rfl | hk
    · exact hpublished
    · exact hpublished.trans_le
        (playlistCount_mono ((List.pairwise_cons.mp hordered).1 k hk))
  refine ⟨_, watch_eq h hfetch hordered hall, rfl, fun shown hshown => ?_, ?_⟩
  · obtain ⟨⟨x, n⟩, hmem, rfl⟩ := List.mem_map.mp (List.mem_of_mem_filter hshown)
    have hx : (ownInput r input)[n]? = some x := List.mem_zipIdx_iff_getElem?.mp hmem
    exact ⟨x, hx, rfl, abs_thousandths_sub_le (h.duration x (List.mem_of_getElem? hx))⟩
  · rw [isChain_iff_listed hordered]
    constructor
    · intro hlisted
      refine List.filter_congr fun shown _ => ?_
      rw [decide_eq_decide]
      exact ⟨between_of_listed hordered, fun hbetween => hlisted _ hbetween.1 hbetween.2⟩
    · intro heq n hfrom hto
      dsimp only at heq
      -- The segment of that number is among those aired.
      obtain ⟨hle, -⟩ := getLast?_playlistsOf_take (Nat.zero_lt_of_lt hto)
      have hlt : n < (ownInput r input).length := hto.trans_le hle
      obtain ⟨shown, haired, rfl⟩ : ∃ shown ∈ aired (ownInput r input), shown.1.sequence = n :=
        ⟨_, List.mem_map.mpr ⟨((ownInput r input)[n], n),
          List.mem_zipIdx_iff_getElem?.mpr (List.getElem?_eq_getElem hlt), rfl⟩, rfl⟩
      have hmem : shown ∈ (aired (ownInput r input)).filter fun shown =>
          decide (∃ k ∈ first :: later, ListsSegment env input k r shown.1.sequence) := by
        rw [heq, List.mem_filter]
        exact ⟨haired, decide_eq_true ⟨hfrom, hto⟩⟩
      exact of_decide_eq_true (List.mem_filter.mp hmem).2

end Following

section Sample

/-- What is stored at a path: the last write to it. -/
def stored (writes : List StorageWrite) (path : Text) : Option Bytes :=
  (writes.filter fun w => w.path = path).getLast?.map (·.data)

theorem holdsLast_stored (writes : List StorageWrite) : HoldsLast writes (stored writes) := by
  intro path write hlast
  rw [stored, hlast, Option.map_some]

/-- The player polls behind each of the two playlists, and gets both segments. -/
theorem live_playback_sample :
    ∃ player, LivePlayer.watch (sampleEnv false).streamId.toText RenditionId.low.asStr
        ([8, 10].map fun k => stored ((packagerTrace (sampleEnv false) sampleInput).take k)) =
        some player ∧
      player.played.map (·.1.uri) = [segmentFilename 0, segmentFilename 1] := by
  have hplayable : Playable (sampleEnv false) sampleInput .low :=
    ⟨numbered_sampleInput, by decide, by decide +kernel, by decide +kernel⟩
  obtain ⟨player, hwatch, hplayed, -⟩ := live_playback 8 [10] hplayable
    (fun k _ => holdsLast_stored _) (by decide) (by decide +kernel)
  refine ⟨player, hwatch, ?_⟩
  rw [hplayed]
  decide +kernel

end Sample

end StreamInfa.Package
