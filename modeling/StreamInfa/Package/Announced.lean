import StreamInfa.Package.InitSegment
import StreamInfa.Package.Paths
import StreamInfa.Package.Trace

/-!
What the packager announces before it is there, and what never comes.

The master playlist is written when a rendition is opened, in front of the rendition's
first media playlist, so the first master playlist already names a file that has not been
written (`master_lists_written_iff`). An init segment declares an audio track when the
first segment has audio, but the media segments only carry the video track
(`trackFragments_mediaSegment`), so audio is kept only where there is none
(`audio_kept_iff`).

The storage channel may close at any write, so the runs are those of `runPackager` with
any `room`.
-/

namespace StreamInfa.Package

/-! ### The master playlist -/

/-- A master playlist lists the media playlist of a rendition. -/
def ListsRendition (master : Text) (r : RenditionId) : Prop :=
  r.asStr ++ "/media.m3u8".toList ∈ playlistUris master

/-- If the write is a master playlist, the media playlists it lists are among the writes
before it. -/
def ListsPublished (env : PackagerEnv) (done : List StorageWrite) (w : StorageWrite) : Prop :=
  w.path = masterPlaylistPath env.streamId.toText →
    ∀ r, ListsRendition (playlistText w) r →
      ∃ w' ∈ done, w'.path = mediaPlaylistPath env.streamId.toText r.asStr

theorem listsRendition_masterWrite {env : PackagerEnv} {infos : List RenditionInfo}
    {info : RenditionInfo} (hinfo : info ∈ infos) :
    ListsRendition (playlistText (masterWrite env infos)) info.id := by
  have hline : SingleLine (info.id.asStr ++ "/media.m3u8".toList) ∧
      isUri (info.id.asStr ++ "/media.m3u8".toList) = true := by
    cases info.id <;> decide
  have htext : playlistText (masterWrite env infos) =
      generateMultivariantPlaylist infos env.config.hlsVersion := fromUtf8Lossy_encodeUtf8 _
  rw [ListsRendition, htext]
  refine List.mem_filter.mpr ⟨mem_lines_unlines hline.1 ?_, hline.2⟩
  refine List.mem_append_right _ (List.mem_flatMap.mpr ⟨info, hinfo, ?_⟩)
  simp [variantLines]

/-- A rendition is opened with its init segment and a new master playlist, if the channel
takes both. -/
theorem openRendition_of_room {env : PackagerEnv} {p : Packager} (h₀ : p.room ≠ some 0)
    (h₁ : p.room ≠ some 1) (hpublished : p.lastMasterRenditionCount = p.renditionInfos.length)
    (segment : EncodedSegment) :
    ∃ p₁, (writeInitSegment env p segment).map (fun p => registerRendition env p segment) =
        .ok p₁ ∧
      p₁.writes = p.writes ++ [initWriteOf env segment,
        masterWrite env (p.renditionInfos ++ [renditionInfo segment])] := by
  have hnew : p.lastMasterRenditionCount <
      (p.renditionInfos ++ [renditionInfo segment]).length := by
    rw [hpublished, List.length_append, List.length_singleton]
    exact Nat.lt_succ_self _
  match hroom : p.room with
  | none => exact ⟨_, openRendition_open hroom hpublished, rfl⟩
  | some 0 => exact absurd hroom h₀
  | some 1 => exact absurd hroom h₁
  | some (n + 2) =>
    unfold writeInitSegment
    rw [generateInitSegment_eq]
    simp only [Packager.send, hroom, Except.map, registerRendition, if_pos hnew,
      writeMasterPlaylist, Option.getD_some, List.append_assoc]
    exact ⟨_, rfl, rfl⟩

/-- With room for two writes, a run begins with the init segment and the master playlist of
the first segment's rendition. -/
theorem runPackager_cons (env : PackagerEnv) {room : Option ℕ} (h₀ : room ≠ some 0)
    (h₁ : room ≠ some 1) (segment : EncodedSegment) (now : DateTime)
    (input : List (EncodedSegment × DateTime)) :
    ∃ later, (runPackager env room ((segment, now) :: input)).writes =
      initWriteOf env segment :: masterWrite env [renditionInfo segment] :: later := by
  obtain ⟨p₁, hopened, hwrites⟩ := @openRendition_of_room env
    { Packager.start room with
      indexes := (Packager.start room).indexes.insert segment.rendition
        (indexFor env (.start room) segment.rendition) } h₀ h₁ rfl segment
  have hlookup : (Packager.start room).initSegmentsWritten.lookup segment.rendition = none := by
    simp [Packager.start]
  have hturn : handleSegment env (.start room) segment now =
      writeMediaSegment env p₁ segment now := by
    unfold handleSegment
    simp only [hlookup]
    rw [hopened]
    rfl
  have hloop : Extends env p₁ (packagerLoop env (.start room) ((segment, now) :: input)) := by
    refine Extends.loop ?_ (extends_packagerLoop env input)
    rw [hturn]
    exact extends_writeMediaSegment segment now
  obtain ⟨new, hnew, -⟩ := hloop.trans (extends_runPackager env room ((segment, now) :: input))
  refine ⟨new, ?_⟩
  rw [hnew, hwrites]
  rfl

/-- A channel that closes at its first or second write takes no master playlist. -/
theorem runPackager_no_room (env : PackagerEnv) {room : Option ℕ}
    (hroom : room = some 0 ∨ room = some 1) (segment : EncodedSegment) (now : DateTime)
    (input : List (EncodedSegment × DateTime)) :
    ∀ w ∈ (runPackager env room ((segment, now) :: input)).writes,
      w = initWriteOf env segment := by
  obtain ⟨init, hinit⟩ := generateInitSegment_isOk (initSegmentParams segment)
  obtain ⟨media, hmedia⟩ := generateMediaSegment_isOk (mediaSegmentParams segment)
  rcases hroom with rfl | rfl
  · simp [runPackager, packagerLoop, handleSegment, writeInitSegment, hinit, Packager.send,
      Packager.start, Except.map, Except.bind]
  · simp [runPackager, packagerLoop, handleSegment, writeInitSegment, hinit, Packager.send,
      Packager.start, Except.map, Except.bind, registerRendition, writeMasterPlaylist,
      writeMediaSegment, hmedia, initWriteOf, encoded]

/-- The first master playlist lists a rendition that has no media playlist yet. -/
theorem first_master_early (env : PackagerEnv) {room : Option ℕ} (h₀ : room ≠ some 0)
    (h₁ : room ≠ some 1) (segment : EncodedSegment) (now : DateTime)
    (input : List (EncodedSegment × DateTime)) :
    ¬ EachAfter (ListsPublished env) []
      (runPackager env room ((segment, now) :: input)).writes := by
  intro hlists
  obtain ⟨later, hwrites⟩ := runPackager_cons env h₀ h₁ segment now input
  rw [hwrites] at hlists
  obtain ⟨w, hw, hpath⟩ := hlists.2.1 rfl segment.rendition
    (listsRendition_masterWrite (List.mem_singleton_self (renditionInfo segment)))
  rw [List.nil_append, List.mem_singleton] at hw
  rw [hw] at hpath
  exact initSegmentPath_ne_mediaPlaylistPath hpath

/-- A master playlist only lists renditions whose media playlist was written before it, in
the runs that write no master playlist at all: there is no segment, or the channel closes
at its first or second write. -/
theorem master_lists_written_iff (env : PackagerEnv) (room : Option ℕ)
    (input : List (EncodedSegment × DateTime)) :
    EachAfter (ListsPublished env) [] (runPackager env room input).writes ↔
      input = [] ∨ room = some 0 ∨ room = some 1 := by
  cases input with
  | nil => exact ⟨fun _ => .inl rfl, fun _ => trivial⟩
  | cons x input =>
    obtain ⟨segment, now⟩ := x
    constructor
    · intro hlists
      by_contra hnot
      simp only [reduceCtorEq, false_or, not_or] at hnot
      exact first_master_early env hnot.1 hnot.2 segment now input hlists
    · intro hroom
      have hinit := runPackager_no_room env
        (hroom.resolve_left (List.cons_ne_nil _ _)) segment now input
      rw [eachAfter_iff]
      intro before w after hsplit hpath
      have hw : w = initWriteOf env segment := by
        refine hinit w ?_
        rw [hsplit]
        exact List.mem_append_right before List.mem_cons_self
      rw [hw] at hpath
      exact absurd hpath (initSegmentPath_ne_masterPlaylistPath)

theorem single_segment_master_early :
    ¬ EachAfter (ListsPublished (sampleEnv false)) []
      (runPackager (sampleEnv false) none [(sampleSegment .medium 0 true, ⟨0⟩)]).writes :=
  first_master_early (sampleEnv false) (by simp) (by simp) (sampleSegment .medium 0 true) ⟨0⟩ []

/-! ### The audio track -/

/-- The first movie fragment of a byte string, with the position of its first byte; the
boxes before it are skipped, at most `n` of them. -/
def firstMoof : ℕ → ℕ → Bytes → Option (ℕ × Bytes)
  | 0, _, _ => none
  | n + 1, pos, bs =>
    (readBox bs).bind fun (boxType, content, rest) =>
      if boxType = ascii "moof" then some (pos, content)
      else firstMoof n (pos + 8 + content.length) rest

/-- The track fragments of a media segment: the track of each and the bytes of its
samples, which start `data_offset` bytes behind the first byte of moof. -/
def trackFragments (bs : Bytes) : Option (List (ℕ × Bytes)) :=
  (firstMoof bs.length 0 bs).bind fun (moofStart, moof) =>
  (readBoxes moof).bind fun boxes =>
  ((boxes.filter fun box => box.1 = ascii "traf").mapM fun box => decodeTraf box.2).map fun trafs =>
    trafs.map fun (trackId, _, dataOffset, samples) =>
      (trackId, (bs.drop (moofStart + dataOffset.toInt.toNat)).take
        (samples.map fun s => s.size.toNat).sum)

/-- The segment has a fragment of the track with these sample bytes. -/
def CarriesTrack (bs : Bytes) (trackId : ℕ) (samples : Bytes) : Prop :=
  ∃ fragments, trackFragments bs = some fragments ∧ (trackId, samples) ∈ fragments

/-- An init segment declares a track, with a track header and with defaults. -/
def DeclaresTrack (bs : Bytes) (trackId : ℕ) : Prop :=
  ∃ boxes, readTree bs = some boxes ∧
    some trackId ∈ (IsoBox.find (["moov", "trak", "tkhd"].map ascii) boxes).map (trackIdAt 12) ∧
    some trackId ∈ (IsoBox.find (["moov", "mvex", "trex"].map ascii) boxes).map (trackIdAt 4)

/-- The content of styp. -/
def stypContent : Bytes := ascii "msdh" ++ beBytes 4 0 ++ ascii "msdh" ++ ascii "msix"

/-- A fragment behind styp is the first one. -/
theorem firstMoof_behind_styp {bs rest rest' moof : Bytes} (n : ℕ)
    (hstyp : readBox bs = some (ascii "styp", stypContent, rest))
    (hmoof : readBox rest = some (ascii "moof", moof, rest')) :
    firstMoof (n + 2) 0 bs = some (24, moof) := by
  have hne : ascii "styp" ≠ ascii "moof" := by decide
  have hstart : 0 + 8 + stypContent.length = 24 := by decide
  rw [firstMoof, hstyp, Option.bind_some]
  dsimp only
  rw [if_neg hne, hstart, firstMoof, hmoof, Option.bind_some]
  exact if_pos rfl

theorem firstMoof_segmentBoxes {params : MediaSegmentParams}
    (hmoof : 96 + 16 * params.samples.length < 2 ^ 31) (n : ℕ) :
    firstMoof (n + 2) 0 ((segmentBoxes params).flatMap fun b => writeBox b.1 b.2) =
      some (24, moofContent params) := by
  have hlength := length_moofContent params
  have hbytes : (segmentBoxes params).flatMap (fun b => writeBox b.1 b.2) =
      writeBox (ascii "styp") stypContent ++ (writeBox (ascii "moof") (moofContent params) ++
        writeBox (ascii "mdat") params.mediaData) := by
    simp only [segmentBoxes, stypContent, List.flatMap_cons, List.flatMap_nil, List.append_nil]
  rw [hbytes]
  exact firstMoof_behind_styp n (readBox_writeBox rfl (by decide) _)
    (readBox_writeBox rfl (by omega) _)

/-- A media segment of the packager has one track fragment, that of the video. -/
theorem trackFragments_mediaSegment (segment : EncodedSegment) :
    trackFragments (encoded (generateMediaSegment (mediaSegmentParams segment))) =
      some [(1, segment.videoData.take (segment.videoData.length % 2 ^ 32))] := by
  have hdata : encoded (generateMediaSegment (mediaSegmentParams segment)) =
      (segmentBoxes (mediaSegmentParams segment)).flatMap fun b => writeBox b.1 b.2 := by
    rw [generateMediaSegment_eq_boxes]
    rfl
  have hcount : (mediaSegmentParams segment).samples.length = 1 := rfl
  have hmoof : 96 + 16 * (mediaSegmentParams segment).samples.length < 2 ^ 31 := by
    rw [hcount]
    decide
  obtain ⟨front, hfront, hlength⟩ := exists_front (mediaSegmentParams segment)
  -- Neither moof nor traf depends on the media data.
  have hempty : ([] : Bytes).length + 8 < 2 ^ 32 := by decide
  have hboxes : readBoxes (moofContent (mediaSegmentParams segment)) =
      some (moofBoxes (mediaSegmentParams segment)) :=
    readBoxes_flatMap (segmentBoxes_fit { mediaSegmentParams segment with mediaData := [] } hmoof
      hempty).2.1
  have htraf : decodeTraf (trafContent (mediaSegmentParams segment)) = some (1, segment.ptsStart,
      Int32.ofBitVec (BitVec.ofNat 32 (112 % 256 ^ 4)), (mediaSegmentParams segment).samples) :=
    decodeTraf_trafContent { mediaSegmentParams segment with mediaData := [] } hmoof hempty
  have hfilter : (moofBoxes (mediaSegmentParams segment)).filter (fun box => box.1 = ascii "traf") =
      [(ascii "traf", trafContent (mediaSegmentParams segment))] := by
    have hmfhd : ascii "mfhd" ≠ ascii "traf" := by decide
    rw [moofBoxes, List.filter_cons_of_neg (by simpa using hmfhd),
      List.filter_cons_of_pos (by simp), List.filter_nil]
  obtain ⟨n, hn⟩ : ∃ n, ((segmentBoxes (mediaSegmentParams segment)).flatMap fun b =>
      writeBox b.1 b.2).length = n + 2 := by
    refine ⟨_, (Nat.sub_add_cancel ?_).symm⟩
    rw [hfront, List.length_append, hlength]
    omega
  have hoffset : 24 + (Int32.ofBitVec (BitVec.ofNat 32 (112 % 256 ^ 4))).toInt.toNat = 136 := by
    decide
  have hmedia : ((segmentBoxes (mediaSegmentParams segment)).flatMap fun b =>
      writeBox b.1 b.2).drop 136 = segment.videoData := by
    rw [hfront]
    exact List.drop_left' (by rw [hlength, hcount])
  have hsize : ((mediaSegmentParams segment).samples.map fun s => s.size.toNat).sum =
      segment.videoData.length % 2 ^ 32 := by
    simp [mediaSegmentParams]
  rw [trackFragments, hdata, hn, firstMoof_segmentBoxes hmoof, Option.bind_some]
  dsimp only
  rw [hboxes, Option.bind_some, hfilter]
  simp only [List.mapM_cons, List.mapM_nil, htraf, Option.bind_eq_bind, Option.bind_some,
    Option.pure_def, Option.map_some, List.map_cons, List.map_nil, hoffset, hmedia, hsize]

/-- What the packager writes at the path of a media segment has no audio fragment. -/
theorem not_carriesTrack_of_sent {env : PackagerEnv} {w : StorageWrite} (hw : Sent env w)
    {r : RenditionId} {sequence : ℕ}
    (hpath : w.path = segmentPath env.streamId.toText r.asStr sequence) (samples : Bytes) :
    ¬ CarriesTrack w.data 2 samples := by
  -- The file names of the other objects end otherwise.
  have hlast : w.path.getLast? = some 's' := by
    rw [hpath, segmentPath, List.getLast?_append]
    rfl
  cases hw with
  | init segment =>
    rw [initWriteOf, initWrite, initSegmentPath, List.getLast?_append] at hlast
    cases hlast
  | master infos =>
    rw [masterWrite, masterPlaylistPath, List.getLast?_append] at hlast
    cases hlast
  | playlist r playlist =>
    rw [playlistWrite, mediaPlaylistPath, List.getLast?_append] at hlast
    cases hlast
  | media segment =>
    rintro ⟨fragments, hread, hmem⟩
    rw [segmentWrite, trackFragments_mediaSegment] at hread
    obtain rfl := Option.some.inj hread
    rw [List.mem_singleton, Prod.mk.injEq] at hmem
    exact absurd hmem.1 (by decide)

/-- The audio of a rendition is kept: if its init segment declares the audio track, every
segment with audio is written with a fragment of that track that holds the audio; and if
any of its segments has audio, its init segment declares the track. -/
structure AudioKept (env : PackagerEnv) (room : Option ℕ)
    (input : List (EncodedSegment × DateTime)) (r : RenditionId) : Prop where
  carried : ∀ init ∈ (runPackager env room input).writes,
    init.path = initSegmentPath env.streamId.toText r.asStr → DeclaresTrack init.data 2 →
    ∀ x ∈ input, x.1.rendition = r → ∀ audio, x.1.audioData = some audio →
      ∃ w ∈ (runPackager env room input).writes,
        w.path = segmentPath env.streamId.toText r.asStr x.1.sequence ∧
        CarriesTrack w.data 2 audio
  declared : ∀ x ∈ input, x.1.rendition = r → ∀ audio, x.1.audioData = some audio →
    ∃ init ∈ (runPackager env room input).writes,
      init.path = initSegmentPath env.streamId.toText r.asStr ∧ DeclaresTrack init.data 2

/-- The audio of a rendition is kept exactly if it has none. -/
theorem audio_kept_iff (env : PackagerEnv) (room : Option ℕ)
    (input : List (EncodedSegment × DateTime)) (r : RenditionId) :
    AudioKept env room input r ↔ ∀ x ∈ input, x.1.rendition = r → x.1.audioData = none := by
  constructor
  · intro hkept x hx hr
    by_contra hsome
    obtain ⟨audio, haudio⟩ := Option.ne_none_iff_exists'.mp hsome
    obtain ⟨init, hinit, hpath, hdeclares⟩ := hkept.declared x hx hr audio haudio
    obtain ⟨w, hw, hsegment, hcarries⟩ :=
      hkept.carried init hinit hpath hdeclares x hx hr audio haudio
    exact not_carriesTrack_of_sent (sent_of_mem hw) hsegment audio hcarries
  · intro hnone
    constructor
    · intro init _ _ _ x hx hr audio haudio
      rw [hnone x hx hr] at haudio
      cases haudio
    · intro x hx hr audio haudio
      rw [hnone x hx hr] at haudio
      cases haudio

/-- An init segment with audio declares its track. -/
theorem declaresTrack_audio {params : InitSegmentParams} (haudio : params.hasAudio = true)
    (hsps : params.sps.length < 2 ^ 16) (hpps : params.pps.length < 2 ^ 16)
    (hasc : ∀ asc ∈ params.audioSpecificConfig, asc.length ≤ 104) :
    DeclaresTrack (encoded (generateInitSegment params)) 2 := by
  obtain ⟨hdeep, hsize⟩ := length_initBoxes params hsps hpps hasc
  have hdata : encoded (generateInitSegment params) = IsoBox.writeAll (initBoxes params) := by
    rw [generateInitSegment_eq_boxes]
    rfl
  rw [hdata]
  refine ⟨initBoxes params, readTree_writeAll (fits_initBoxes params) hdeep hsize, ?_, ?_⟩
  · have hpath : ["moov", "trak", "tkhd"].map ascii =
        ["moov", "trak"].map ascii ++ [ascii "tkhd"] := rfl
    have htkhd : IsoBox.find [ascii "tkhd"]
        ([videoTrakBox params, audioTrakBox params].flatMap IsoBox.children) =
        [leafOf "tkhd" (buildTkhd 1 params.width params.height true),
          leafOf "tkhd" (buildTkhd 2 0 0 false)] := rfl
    rw [hpath, IsoBox.find_append (by decide) (by decide), find_trak, perTrack, if_pos haudio,
      htkhd, List.map_cons, List.map_singleton, trackIdAt_tkhd (by decide),
      trackIdAt_tkhd (by decide)]
    exact List.mem_cons_of_mem _ List.mem_cons_self
  · rw [find_trex, map_perTrack, trackIdAt_trex (by decide), trackIdAt_trex (by decide), perTrack,
      if_pos haudio]
    exact List.mem_cons_of_mem _ List.mem_cons_self

theorem length_audioSpecificConfig {segment : EncodedSegment} {asc : Bytes}
    (h : asc ∈ (initSegmentParams segment).audioSpecificConfig) : asc.length = 2 := by
  obtain ⟨audio, -, rfl⟩ := Option.map_eq_some_iff.mp h
  exact length_beBytes 2 _

/-- A segment with three bytes of audio. -/
def soundSegment : EncodedSegment :=
  { sampleSegment .medium 0 true with audioData := some [0x21, 0x10, 0x04] }

/-- The init segment declares an audio track, and no media segment has a fragment of it. -/
theorem sound_dropped :
    (∃ init ∈ (runPackager (sampleEnv false) none [(soundSegment, ⟨0⟩)]).writes,
      init.path = initSegmentPath (sampleEnv false).streamId.toText RenditionId.medium.asStr ∧
        DeclaresTrack init.data 2) ∧
    ∀ w ∈ (runPackager (sampleEnv false) none [(soundSegment, ⟨0⟩)]).writes,
      w.path = segmentPath (sampleEnv false).streamId.toText RenditionId.medium.asStr 0 →
        ¬ CarriesTrack w.data 2 [0x21, 0x10, 0x04] := by
  have hdeclares := @declaresTrack_audio (initSegmentParams soundSegment) rfl
    (by decide +kernel) (by decide +kernel) fun asc hasc =>
      (length_audioSpecificConfig hasc).le.trans (by decide)
  obtain ⟨later, hwrites⟩ := @runPackager_cons (sampleEnv false) none (by simp) (by simp)
    soundSegment ⟨0⟩ []
  constructor
  · refine ⟨initWriteOf (sampleEnv false) soundSegment, ?_, rfl, ?_⟩
    · rw [hwrites]
      exact List.mem_cons_self
    · exact hdeclares
  · intro w hw hpath
    exact not_carriesTrack_of_sent (sent_of_mem hw) hpath _

end StreamInfa.Package
