import StreamInfa.Package.Sent
import StreamInfa.Lib.Trace

/-!
The writes of a packager run over an open channel.

Segments of different renditions do not interact: the writes of one rendition are
those of `renditionTrace` on that rendition's own segments
(`writesOf_packagerTrace`), and everything below is proved of the latter.

The stored file of a segment is named after the segment's own sequence number, a
line of a playlist after the index's counter. They agree for the numbering the
segment accumulator produces (`Numbered`), and **`packagerTrace_spec`** collects what
follows: the init segment comes first and once, a playlist lists only files written
before it, a rendition's writes do not depend on the others, and the last playlist
of a VOD rendition is complete and the only one that ends.
-/

namespace StreamInfa.Package

/-- The writes of a run over an open channel, in order. -/
def packagerTrace (env : PackagerEnv) (input : List (EncodedSegment × DateTime)) :
    List StorageWrite :=
  (runPackager env none input).writes

/-- The writes to objects of a rendition. -/
def writesOf (env : PackagerEnv) (r : RenditionId) (writes : List StorageWrite) :
    List StorageWrite :=
  writes.filter fun w => isOfRendition env.streamId.toText r.asStr w.path

/-- The segments of a rendition. -/
def ownInput (r : RenditionId) (input : List (EncodedSegment × DateTime)) :
    List (EncodedSegment × DateTime) :=
  input.filter fun x => x.1.rendition = r

/-- The writes of a rendition whose index is `index` for the segments `input`. -/
def renditionTrace (env : PackagerEnv) :
    Option SegmentIndex → List (EncodedSegment × DateTime) → List StorageWrite
  | _, [] => []
  | index, (segment, now) :: input =>
    (if index.isNone then [initWriteOf env segment] else []) ++
      mediaWritesOf env (nextIndex env index segment now) segment ++
      renditionTrace env (some (nextIndex env index segment now)) input

/-! ### Renditions do not interact -/

section Projection

variable {env : PackagerEnv} {p : Packager} {segment : EncodedSegment} {r : RenditionId}

theorem isOfRendition_self (file : Text) :
    isOfRendition env.streamId.toText r.asStr
      (renditionPrefix env.streamId.toText r.asStr ++ file) = true :=
  isOfRendition_append file

theorem isOfRendition_other {r' : RenditionId} (hne : r' ≠ r) (file : Text) :
    isOfRendition env.streamId.toText r.asStr
      (renditionPrefix env.streamId.toText r'.asStr ++ file) = false := by
  refine isOfRendition_append_ne r.slash_notMem_asStr r'.slash_notMem_asStr (fun h => ?_) file
  exact hne (RenditionId.asStr_injective h.symm)

theorem initWriteOf_path (env : PackagerEnv) (segment : EncodedSegment) : ∃ file,
    (initWriteOf env segment).path =
      renditionPrefix env.streamId.toText segment.rendition.asStr ++ file :=
  ⟨_, initSegmentPath_eq _ _⟩

theorem segmentWrite_path (env : PackagerEnv) (segment : EncodedSegment) (data : Bytes) :
    (segmentWrite env segment data).path =
      renditionPrefix env.streamId.toText segment.rendition.asStr ++
        segmentFilename segment.sequence :=
  segmentPath_eq _ _ _

theorem mediaWritesOf_path {index : SegmentIndex} {w : StorageWrite}
    (hw : w ∈ mediaWritesOf env index segment) : ∃ file,
    w.path = renditionPrefix env.streamId.toText segment.rendition.asStr ++ file := by
  simp only [mediaWritesOf, List.mem_cons, List.not_mem_nil, or_false] at hw
  rcases hw with rfl | rfl
  · exact ⟨_, segmentWrite_path env segment _⟩
  · exact ⟨_, mediaPlaylistPath_eq _ _⟩

/-- A turn writes for its own rendition what that rendition's trace writes. -/
theorem writesOf_turnWrites_self (now : DateTime) :
    writesOf env segment.rendition (turnWrites env p segment now) =
      (if (p.indexes.lookup segment.rendition).isNone then [initWriteOf env segment] else []) ++
        mediaWritesOf env (nextIndex env (p.indexes.lookup segment.rendition) segment now)
          segment := by
  have hmedia : ∀ index, writesOf env segment.rendition (mediaWritesOf env index segment) =
      mediaWritesOf env index segment := by
    intro index
    refine List.filter_eq_self.mpr fun w hw => ?_
    obtain ⟨file, hfile⟩ := mediaWritesOf_path hw
    rw [hfile, isOfRendition_self]
  have hinit : isOfRendition env.streamId.toText segment.rendition.asStr
      (initWriteOf env segment).path = true := by
    obtain ⟨file, hfile⟩ := initWriteOf_path env segment
    rw [hfile, isOfRendition_self]
  have hmaster : ∀ infos, isOfRendition env.streamId.toText segment.rendition.asStr
      (masterWrite env infos).path = false := fun _ => isOfRendition_master
  rw [turnWrites, writesOf, List.filter_append, ← writesOf, ← writesOf, hmedia]
  cases p.indexes.lookup segment.rendition with
  | some index => rfl
  | none =>
    simp only [writesOf, List.filter_cons, hinit, hmaster, List.filter_nil, if_true,
      Bool.false_eq_true, if_false, Option.isNone_none]

/-- A turn writes nothing for the other renditions. -/
theorem writesOf_turnWrites_ne (hne : segment.rendition ≠ r) (now : DateTime) :
    writesOf env r (turnWrites env p segment now) = [] := by
  refine List.filter_eq_nil_iff.mpr fun w hw => ?_
  rw [Bool.not_eq_true]
  have hown : ∀ file, w.path = renditionPrefix env.streamId.toText segment.rendition.asStr ++ file →
      isOfRendition env.streamId.toText r.asStr w.path = false := by
    intro file hfile
    rw [hfile, isOfRendition_other hne]
  rcases List.mem_append.mp hw with hw | hw
  · cases hlookup : p.indexes.lookup segment.rendition with
    | some index =>
      rw [hlookup] at hw
      exact absurd hw List.not_mem_nil
    | none =>
      rw [hlookup] at hw
      simp only [List.mem_cons, List.not_mem_nil, or_false] at hw
      rcases hw with rfl | rfl
      · exact hown _ (initSegmentPath_eq _ _)
      · exact isOfRendition_master
  · obtain ⟨file, hfile⟩ := mediaWritesOf_path hw
    exact hown file hfile

theorem writesOf_append (ws ws' : List StorageWrite) :
    writesOf env r (ws ++ ws') = writesOf env r ws ++ writesOf env r ws' :=
  List.filter_append _ _

/-- The loop writes for a rendition what its own trace writes. -/
theorem packagerLoop_open (env : PackagerEnv) (r : RenditionId) (hopen : p.Open)
    (input : List (EncodedSegment × DateTime)) :
    (packagerLoop env p input).Open ∧
      writesOf env r (packagerLoop env p input).writes =
        writesOf env r p.writes ++
          renditionTrace env (p.indexes.lookup r) (ownInput r input) := by
  induction input generalizing p with
  | nil => exact ⟨hopen, (List.append_nil _).symm⟩
  | cons x input ih =>
    obtain ⟨segment, now⟩ := x
    obtain ⟨p', hstep, hopen', hwrites, -, hself, hother⟩ :=
      handleSegment_open env segment now hopen
    have hloop : packagerLoop env p ((segment, now) :: input) = packagerLoop env p' input := by
      rw [packagerLoop, hstep]
    obtain ⟨hopen'', htrace⟩ := ih hopen'
    refine ⟨by rw [hloop]; exact hopen'', ?_⟩
    rw [hloop, htrace, hwrites, writesOf_append]
    by_cases hr : segment.rendition = r
    · subst hr
      have hown : ownInput segment.rendition ((segment, now) :: input) =
          (segment, now) :: ownInput segment.rendition input :=
        List.filter_cons_of_pos (by simp)
      rw [hown, renditionTrace, writesOf_turnWrites_self, hself, List.append_assoc]
    · have hown : ownInput r ((segment, now) :: input) = ownInput r input :=
        List.filter_cons_of_neg (by simpa using hr)
      rw [hown, writesOf_turnWrites_ne hr, hother r (Ne.symm hr), List.append_nil]

/-- The writes of a rendition depend on its own segments only. -/
theorem writesOf_packagerTrace (env : PackagerEnv) (r : RenditionId)
    (input : List (EncodedSegment × DateTime)) :
    writesOf env r (packagerTrace env input) = renditionTrace env none (ownInput r input) := by
  obtain ⟨hopen, htrace⟩ := packagerLoop_open env r Packager.open_start input
  unfold packagerTrace runPackager
  dsimp only
  have hloop : writesOf env r (packagerLoop env (Packager.start none) input).writes =
      renditionTrace env none (ownInput r input) := by
    rw [htrace]
    rfl
  split
  · exact hloop
  · have hmaster : ∀ infos, writesOf env r [masterWrite env infos] = [] := by
      intro infos
      refine List.filter_cons_of_neg ?_
      rw [Bool.not_eq_true]
      exact isOfRendition_master
    rw [writeMasterPlaylist, Packager.send_of_open hopen.room, Option.getD_some]
    rw [writesOf_append, hmaster, List.append_nil, hloop]

end Projection

/-! ### The order of a rendition's writes -/

section Order

variable {env : PackagerEnv} {r : RenditionId} {input : List (EncodedSegment × DateTime)}

/-- The text of a playlist write. -/
def playlistText (w : StorageWrite) : Text := fromUtf8Lossy w.data

theorem playlistText_playlistWrite (playlist : Text) :
    playlistText (playlistWrite env r playlist) = playlist :=
  fromUtf8Lossy_encodeUtf8 playlist

/-- A rendition's trace holds init segments, media segments and playlists; once the
rendition has its index, no init segment follows. -/
theorem mem_renditionTrace {index : Option SegmentIndex} {w : StorageWrite}
    (hw : w ∈ renditionTrace env index input) :
    (index = none ∧ ∃ x ∈ input, w = initWriteOf env x.1) ∨
      ∃ x ∈ input, ∃ index', w ∈ mediaWritesOf env index' x.1 := by
  induction input generalizing index with
  | nil => exact absurd hw List.not_mem_nil
  | cons x input ih =>
    obtain ⟨segment, now⟩ := x
    rw [renditionTrace, List.append_assoc] at hw
    rcases List.mem_append.mp hw with hw | hw
    · split at hw
      · rename_i hnone
        exact Or.inl ⟨Option.isNone_iff_eq_none.mp hnone, _, List.mem_cons_self,
          List.mem_singleton.mp hw⟩
      · exact absurd hw List.not_mem_nil
    rcases List.mem_append.mp hw with hw | hw
    · exact Or.inr ⟨_, List.mem_cons_self, _, hw⟩
    · rcases ih hw with ⟨hsome, -⟩ | ⟨x, hx, index', hw⟩
      · exact absurd hsome (Option.some_ne_none _)
      · exact Or.inr ⟨x, List.mem_cons_of_mem _ hx, index', hw⟩

/-- Every segment is written. -/
theorem segmentWrite_mem_renditionTrace {index : Option SegmentIndex}
    {x : EncodedSegment × DateTime} (hx : x ∈ input) :
    segmentWrite env x.1 (encoded (generateMediaSegment (mediaSegmentParams x.1))) ∈
      renditionTrace env index input := by
  induction input generalizing index with
  | nil => exact absurd hx List.not_mem_nil
  | cons y input ih =>
    obtain ⟨segment, now⟩ := y
    rw [renditionTrace, List.append_assoc]
    refine List.mem_append_right _ ?_
    rcases List.mem_cons.mp hx with rfl | hx
    · exact List.mem_append_left _ List.mem_cons_self
    · exact List.mem_append_right _ (ih hx)

theorem mediaWritesOf_path_ne_init {index : SegmentIndex} {segment : EncodedSegment}
    {w : StorageWrite} (hw : w ∈ mediaWritesOf env index segment) :
    w.path ≠ initSegmentPath env.streamId.toText segment.rendition.asStr := by
  simp only [mediaWritesOf, List.mem_cons, List.not_mem_nil, or_false] at hw
  rcases hw with rfl | rfl
  · exact segmentPath_ne_initSegmentPath
  · exact initSegmentPath_ne_mediaPlaylistPath.symm

/-- A rendition's trace starts with its init segment and never writes it again. -/
theorem renditionTrace_init (env : PackagerEnv) (hown : ∀ x ∈ input, x.1.rendition = r)
    (hne : input ≠ []) :
    ∃ init rest, renditionTrace env none input = init :: rest ∧
      init.path = initSegmentPath env.streamId.toText r.asStr ∧
      ∀ w ∈ rest, w.path ≠ initSegmentPath env.streamId.toText r.asStr := by
  cases input with
  | nil => exact absurd rfl hne
  | cons x input =>
    obtain ⟨segment, now⟩ := x
    obtain rfl : segment.rendition = r := hown _ List.mem_cons_self
    refine ⟨initWriteOf env segment, _, rfl, rfl, fun w hw => ?_⟩
    rcases List.mem_append.mp hw with hw | hw
    · exact mediaWritesOf_path_ne_init hw
    · rcases mem_renditionTrace hw with ⟨hsome, -⟩ | ⟨x, hx, index', hw⟩
      · exact absurd hsome (Option.some_ne_none _)
      · rw [← hown x (List.mem_cons_of_mem _ hx)]
        exact mediaWritesOf_path_ne_init hw

/-- A write that, if it is the media playlist of `r`, lists only segments of `r` whose
files are among `done`. -/
def ListsWritten (env : PackagerEnv) (r : RenditionId) (done : List StorageWrite)
    (w : StorageWrite) : Prop :=
  w.path = mediaPlaylistPath env.streamId.toText r.asStr →
    ∀ uri ∈ playlistUris (playlistText w), ∃ n, uri = segmentFilename n ∧
      ∃ w' ∈ done, w'.path = segmentPath env.streamId.toText r.asStr n

theorem nextIndex_spec (env : PackagerEnv) (index : Option SegmentIndex)
    (segment : EncodedSegment) (now : DateTime) :
    (nextIndex env index segment now).nextSequence =
        (index.map SegmentIndex.nextSequence).getD 0 + 1 ∧
      ∀ entry ∈ (nextIndex env index segment now).segments,
        (∃ old, index = some old ∧ entry ∈ old.segments) ∨
          entry.sequence = (index.map SegmentIndex.nextSequence).getD 0 := by
  cases index with
  | none =>
    obtain ⟨hnext, -, hmem⟩ := SegmentIndex.addSegment_spec
      (SegmentIndex.new env.streamId segment.rendition env.segmentWindow) segment.durationSecs
      (segmentPath env.streamId.toText segment.rendition.asStr segment.sequence)
      (encoded (generateMediaSegment (mediaSegmentParams segment))).length now
    refine ⟨hnext, fun entry hentry => Or.inr ?_⟩
    exact (hmem entry hentry).resolve_left List.not_mem_nil
  | some index =>
    obtain ⟨hnext, -, hmem⟩ := SegmentIndex.addSegment_spec index segment.durationSecs
      (segmentPath env.streamId.toText segment.rendition.asStr segment.sequence)
      (encoded (generateMediaSegment (mediaSegmentParams segment))).length now
    refine ⟨hnext, fun entry hentry => ?_⟩
    exact (hmem entry hentry).imp (fun h => ⟨index, rfl, h⟩) id

/-- The playlists of a rendition list only files written before them: the index's
counter and the segments' sequence numbers advance together. -/
theorem renditionTrace_listsWritten {index : Option SegmentIndex} {n : ℕ}
    {done : List StorageWrite} (hown : ∀ x ∈ input, x.1.rendition = r)
    (hnum : input.map (·.1.sequence) = List.range' n input.length)
    (hnext : (index.map SegmentIndex.nextSequence).getD 0 = n)
    (hdone : ∀ old, index = some old → ∀ entry ∈ old.segments, ∃ w ∈ done,
      w.path = segmentPath env.streamId.toText r.asStr entry.sequence) :
    EachAfter (ListsWritten env r) done (renditionTrace env index input) := by
  induction input generalizing index n done with
  | nil => trivial
  | cons x input ih =>
    obtain ⟨segment, now⟩ := x
    obtain rfl : segment.rendition = r := hown _ List.mem_cons_self
    simp only [List.map_cons, List.length_cons, List.range'_succ, List.cons.injEq] at hnum
    obtain ⟨hseq, hnum⟩ := hnum
    obtain ⟨hnext', hentries⟩ := nextIndex_spec env index segment now
    rw [hnext] at hnext' hentries
    -- The entries of the new index are on file once the segment is written.
    have hfiles : ∀ opening, ∀ entry ∈ (nextIndex env index segment now).segments,
        ∃ w ∈ (done ++ opening) ++ [segmentWrite env segment
          (encoded (generateMediaSegment (mediaSegmentParams segment)))],
          w.path = segmentPath env.streamId.toText segment.rendition.asStr entry.sequence := by
      intro opening entry hentry
      rcases hentries entry hentry with ⟨old, hold, hmem⟩ | hlast
      · obtain ⟨w, hw, hpath⟩ := hdone old hold entry hmem
        exact ⟨w, List.mem_append_left _ (List.mem_append_left _ hw), hpath⟩
      · refine ⟨_, List.mem_append_right _ (List.mem_singleton_self _), ?_⟩
        rw [hlast, ← hseq]
        rfl
    rw [renditionTrace, List.append_assoc, eachAfter_append]
    constructor
    · split
      · exact ⟨fun h => absurd h initSegmentPath_ne_mediaPlaylistPath, trivial⟩
      · trivial
    · refine ⟨fun h => absurd h segmentPath_ne_mediaPlaylistPath, ?_, ?_⟩
      · intro _ uri huri
        rw [playlistText_playlistWrite, SegmentIndex.playlistUris_generatePlaylist] at huri
        obtain ⟨entry, hentry, rfl⟩ := List.mem_map.mp huri
        exact ⟨entry.sequence, rfl, hfiles _ entry hentry⟩
      · refine ih (fun x hx => hown x (List.mem_cons_of_mem _ hx)) hnum ?_ ?_
        · rw [Option.map_some, Option.getD_some, hnext']
        · intro old hold entry hentry
          obtain rfl := Option.some.inj hold
          obtain ⟨w, hw, hpath⟩ := hfiles _ entry hentry
          exact ⟨w, List.mem_append_left _ hw, hpath⟩

end Order

/-! ### The clock -/

section Clock

variable {env : PackagerEnv} {r : RenditionId}

/-- Forget the PROGRAM-DATE-TIME values of a media playlist of `r`. -/
def eraseClock (env : PackagerEnv) (r : RenditionId) (w : StorageWrite) : StorageWrite :=
  if w.path = mediaPlaylistPath env.streamId.toText r.asStr then
    { w with data := encodeUtf8 (unlines ((lines (playlistText w)).map erasePdt)) }
  else w

/-- An index whose entries were all added at one instant. -/
def SegmentIndex.timeless (index : SegmentIndex) : SegmentIndex :=
  { index with segments := index.segments.map fun e => { e with programDateTime := ⟨0⟩ } }

theorem SegmentIndex.timeless_addSegment (index : SegmentIndex) (durationSecs : ℚ) (path : Text)
    (size : ℕ) (now : DateTime) :
    (index.addSegment durationSecs path size now).1.timeless =
      (index.timeless.addSegment durationSecs path size ⟨0⟩).1 := by
  have hpush : (index.pushBack durationSecs path size now).timeless =
      index.timeless.pushBack durationSecs path size ⟨0⟩ := by
    unfold SegmentIndex.timeless SegmentIndex.pushBack
    simp only [List.map_append]
    rfl
  have hover : (index.timeless.pushBack durationSecs path size ⟨0⟩).overflows =
      (index.pushBack durationSecs path size now).overflows := by
    rw [← hpush]
    simp [SegmentIndex.overflows, SegmentIndex.timeless]
  unfold SegmentIndex.addSegment
  simp only [hover]
  split
  · rw [← hpush]
    simp [SegmentIndex.timeless]
  · exact hpush

theorem timeless_nextIndex (index : Option SegmentIndex) (segment : EncodedSegment)
    (now : DateTime) :
    (nextIndex env index segment now).timeless =
      nextIndex env (index.map SegmentIndex.timeless) segment ⟨0⟩ := by
  cases index with
  | none => exact SegmentIndex.timeless_addSegment _ _ _ _ _
  | some index => exact SegmentIndex.timeless_addSegment _ _ _ _ _

theorem eraseClock_playlistWrite_eq (playlist : Text) :
    eraseClock env r (playlistWrite env r playlist) =
      playlistWrite env r (unlines ((lines playlist).map erasePdt)) := by
  have hpath : (playlistWrite env r playlist).path =
      mediaPlaylistPath env.streamId.toText r.asStr := rfl
  rw [eraseClock, if_pos hpath, playlistText_playlistWrite]
  rfl

theorem eraseClock_playlistWrite (index : SegmentIndex) (isFinished : Bool) :
    eraseClock env r (playlistWrite env r
        (index.generatePlaylist env.config.hlsVersion env.isVod isFinished)) =
      eraseClock env r (playlistWrite env r
        (index.timeless.generatePlaylist env.config.hlsVersion env.isVod isFinished)) := by
  have hsegs : index.timeless.segments.map SegmentIndex.playlistSegment =
      (index.segments.map SegmentIndex.playlistSegment).map PlaylistSegment.timeless := by
    simp only [SegmentIndex.timeless, List.map_map]
    rfl
  rw [eraseClock_playlistWrite_eq, eraseClock_playlistWrite_eq,
    SegmentIndex.lines_generatePlaylist, SegmentIndex.lines_generatePlaylist, hsegs,
    map_erasePdt_mediaPlaylistLines]

theorem eraseClock_mediaWritesOf (index : SegmentIndex) (segment : EncodedSegment) :
    (mediaWritesOf env index segment).map (eraseClock env segment.rendition) =
      (mediaWritesOf env index.timeless segment).map (eraseClock env segment.rendition) := by
  simp only [mediaWritesOf, List.map_cons, List.map_nil, eraseClock_playlistWrite index]

/-- The writes of a rendition depend on the clock through PROGRAM-DATE-TIME only. -/
theorem eraseClock_renditionTrace (index : Option SegmentIndex)
    (input : List (EncodedSegment × DateTime)) (hown : ∀ x ∈ input, x.1.rendition = r) :
    (renditionTrace env index input).map (eraseClock env r) =
      (renditionTrace env (index.map SegmentIndex.timeless)
        (input.map fun x => (x.1, ⟨0⟩))).map (eraseClock env r) := by
  induction input generalizing index with
  | nil => rfl
  | cons x input ih =>
    obtain ⟨segment, now⟩ := x
    obtain rfl : segment.rendition = r := hown _ List.mem_cons_self
    have hrest := ih (some (nextIndex env index segment now))
      fun x hx => hown x (List.mem_cons_of_mem _ hx)
    rw [Option.map_some, timeless_nextIndex] at hrest
    simp only [List.map_cons, renditionTrace, List.map_append, hrest, Option.isNone_map,
      eraseClock_mediaWritesOf (nextIndex env index segment now), timeless_nextIndex]

end Clock

/-! ### VOD playlists -/

section Vod

variable {env : PackagerEnv} {r : RenditionId} {input : List (EncodedSegment × DateTime)}

/-- The index of a rendition after the segments `input`. -/
def indexAfter (env : PackagerEnv) (index : Option SegmentIndex)
    (input : List (EncodedSegment × DateTime)) : Option SegmentIndex :=
  input.foldl (fun index x => some (nextIndex env index x.1 x.2)) index

theorem renditionTrace_append (index : Option SegmentIndex)
    (input input' : List (EncodedSegment × DateTime)) :
    renditionTrace env index (input ++ input') =
      renditionTrace env index input ++ renditionTrace env (indexAfter env index input) input' := by
  induction input generalizing index with
  | nil => rfl
  | cons x input ih =>
    obtain ⟨segment, now⟩ := x
    simp only [List.cons_append, renditionTrace, ih, List.append_assoc]
    rfl

/-- The media playlists among a list of writes. -/
def playlistsOf (env : PackagerEnv) (r : RenditionId) (writes : List StorageWrite) :
    List StorageWrite :=
  writes.filter fun w => w.path = mediaPlaylistPath env.streamId.toText r.asStr

/-- A playlist whose last line is ENDLIST. -/
def EndsInEndlist (w : StorageWrite) : Prop :=
  (lines (playlistText w)).getLast? = some endlistTag

theorem playlistsOf_mediaWritesOf (index : SegmentIndex) (segment : EncodedSegment) :
    playlistsOf env segment.rendition (mediaWritesOf env index segment) =
      [playlistWrite env segment.rendition
        (index.generatePlaylist env.config.hlsVersion env.isVod segment.isLast)] := by
  have hseg : ∀ data, (segmentWrite env segment data).path ≠
      mediaPlaylistPath env.streamId.toText segment.rendition.asStr :=
    fun _ => segmentPath_ne_mediaPlaylistPath
  rw [playlistsOf, mediaWritesOf, List.filter_cons_of_neg (by simpa using hseg _),
    List.filter_cons_of_pos (by exact decide_eq_true rfl), List.filter_nil]

theorem playlistsOf_append (ws ws' : List StorageWrite) :
    playlistsOf env r (ws ++ ws') = playlistsOf env r ws ++ playlistsOf env r ws' :=
  List.filter_append _ _

/-- Every turn of a rendition writes one playlist, which ends exactly when the
segment is the last. -/
theorem playlistsOf_renditionTrace_cons (index : Option SegmentIndex) (segment : EncodedSegment)
    (now : DateTime) (input : List (EncodedSegment × DateTime)) :
    playlistsOf env segment.rendition (renditionTrace env index ((segment, now) :: input)) =
      playlistWrite env segment.rendition
        ((nextIndex env index segment now).generatePlaylist env.config.hlsVersion env.isVod
          segment.isLast) ::
      playlistsOf env segment.rendition
        (renditionTrace env (some (nextIndex env index segment now)) input) := by
  have hopening : playlistsOf env segment.rendition
      (if index.isNone then [initWriteOf env segment] else []) = [] := by
    have hinit : (initWriteOf env segment).path ≠
        mediaPlaylistPath env.streamId.toText segment.rendition.asStr :=
      initSegmentPath_ne_mediaPlaylistPath
    split
    · exact List.filter_cons_of_neg (by simpa using hinit)
    · rfl
  rw [renditionTrace, playlistsOf_append, playlistsOf_append, hopening, List.nil_append,
    playlistsOf_mediaWritesOf, List.singleton_append]

/-- No playlist of unfinished segments ends. -/
theorem not_endsInEndlist_of_mem {index : Option SegmentIndex}
    (hown : ∀ x ∈ input, x.1.rendition = r) (hlast : ∀ x ∈ input, x.1.isLast = false) :
    ∀ w ∈ playlistsOf env r (renditionTrace env index input), ¬ EndsInEndlist w := by
  induction input generalizing index with
  | nil => exact fun w hw => absurd hw List.not_mem_nil
  | cons x input ih =>
    obtain ⟨segment, now⟩ := x
    obtain rfl : segment.rendition = r := hown _ List.mem_cons_self
    intro w hw
    rw [playlistsOf_renditionTrace_cons] at hw
    rcases List.mem_cons.mp hw with rfl | hw
    · rw [EndsInEndlist, playlistText_playlistWrite,
        SegmentIndex.getLast?_lines_generatePlaylist, hlast _ List.mem_cons_self]
      exact Bool.false_ne_true
    · exact ih (fun x hx => hown x (List.mem_cons_of_mem _ hx))
        (fun x hx => hlast x (List.mem_cons_of_mem _ hx)) w hw

/-- The index after a segment keeps its window, and its numbers are consecutive. -/
theorem nextIndex_spans {env : PackagerEnv} {index : Option SegmentIndex}
    (hindex : ∀ old, index = some old → old.Spans ∧ old.liveWindowSegments = env.segmentWindow)
    (segment : EncodedSegment) (now : DateTime) :
    (nextIndex env index segment now).Spans ∧
      (nextIndex env index segment now).liveWindowSegments = env.segmentWindow := by
  have hbefore : ∃ old, index.getD
        (SegmentIndex.new env.streamId segment.rendition env.segmentWindow) = old ∧
      old.Spans ∧ old.liveWindowSegments = env.segmentWindow := by
    cases index with
    | none => exact ⟨_, rfl, SegmentIndex.spans_new _ _ _, rfl⟩
    | some old => exact ⟨old, rfl, hindex old rfl⟩
  obtain ⟨old, hold, hspans, hwindow⟩ := hbefore
  rw [nextIndex, hold]
  exact ⟨hspans.addSegment _ _ _ _, (SegmentIndex.addSegment_spec old _ _ _ _).2.1.trans hwindow⟩

/-- The index of a VOD rendition holds everything that was added to it. -/
theorem indexAfter_vod (hvod : env.isVod = true) (input : List (EncodedSegment × DateTime))
    (hne : input ≠ []) :
    ∃ index, indexAfter env none input = some index ∧
      index.segments.map (·.sequence) = List.range input.length := by
  -- The numbers of an unbounded window start at zero and end at the counter.
  suffices hspans : ∀ input : List (EncodedSegment × DateTime),
      (∀ index, indexAfter env none input = some index →
        index.Spans ∧ index.liveWindowSegments = env.segmentWindow) ∧
      ((indexAfter env none input).map SegmentIndex.nextSequence).getD 0 = input.length by
    obtain ⟨hindex, hnext⟩ := hspans input
    cases hafter : indexAfter env none input with
    | none =>
      rw [hafter] at hnext
      exact absurd (List.length_eq_zero_iff.mp hnext.symm) hne
    | some index =>
      obtain ⟨hspan, hwindow⟩ := hindex index hafter
      rw [hafter] at hnext
      refine ⟨index, rfl, ?_⟩
      have hwindow' : index.liveWindowSegments = none := hwindow.trans (if_pos hvod)
      rw [SegmentIndex.Spans, hwindow', show index.nextSequence = input.length from hnext] at hspan
      rw [hspan, List.range_eq_range']
      rfl
  intro input
  induction input using List.reverseRecOn with
  | nil => exact ⟨fun index h => absurd h (by simp [indexAfter]), rfl⟩
  | append_singleton input x ih =>
    have hstep : indexAfter env none (input ++ [x]) =
        some (nextIndex env (indexAfter env none input) x.1 x.2) := by
      simp [indexAfter]
    rw [hstep]
    refine ⟨fun index h => Option.some.inj h ▸ nextIndex_spans ih.1 x.1 x.2, ?_⟩
    rw [Option.map_some, Option.getD_some, (nextIndex_spec env _ x.1 x.2).1, ih.2,
      List.length_append]
    rfl

/-- The playlists of a VOD rendition that received its last segment: the last one is
complete, and it alone ends. -/
theorem renditionTrace_vod (hvod : env.isVod = true) (hown : ∀ x ∈ input, x.1.rendition = r)
    (hnot : ∀ x ∈ input.dropLast, x.1.isLast = false)
    (hlast : ∃ x, input.getLast? = some x ∧ x.1.isLast = true) :
    ∃ earlier last, playlistsOf env r (renditionTrace env none input) = earlier ++ [last] ∧
      playlistUris (playlistText last) = (List.range input.length).map segmentFilename ∧
      EndsInEndlist last ∧ ∀ w ∈ earlier, ¬ EndsInEndlist w := by
  obtain ⟨⟨segment, now⟩, hget, hfinal⟩ := hlast
  obtain ⟨init, rfl⟩ := List.getLast?_eq_some_iff.mp hget
  rw [List.dropLast_concat] at hnot
  obtain rfl : segment.rendition = r := hown (segment, now) (by simp)
  obtain ⟨index, hindex, hseqs⟩ := indexAfter_vod hvod
    (init ++ [(segment, now)]) (by simp)
  have hnext : nextIndex env (indexAfter env none init) segment now = index := by
    have hstep : indexAfter env none (init ++ [(segment, now)]) =
        some (nextIndex env (indexAfter env none init) segment now) := by
      simp [indexAfter]
    exact Option.some.inj (hstep.symm.trans hindex)
  refine ⟨playlistsOf env segment.rendition (renditionTrace env none init),
    playlistWrite env segment.rendition
      (index.generatePlaylist env.config.hlsVersion env.isVod segment.isLast), ?_, ?_, ?_, ?_⟩
  · rw [renditionTrace_append, playlistsOf_append, playlistsOf_renditionTrace_cons, hnext]
    rfl
  · rw [playlistText_playlistWrite, SegmentIndex.playlistUris_generatePlaylist, ← hseqs,
      List.map_map]
    rfl
  · rw [EndsInEndlist, playlistText_playlistWrite, SegmentIndex.getLast?_lines_generatePlaylist]
    exact hfinal
  · exact not_endsInEndlist_of_mem (fun x hx => hown x (List.mem_append_left _ hx)) hnot

end Vod

/-! ### The trace of a run -/

/-- The numbering of the segment accumulator: each rendition's own segments carry the
sequence numbers 0, 1, 2, … and only the final one may be marked last. -/
structure Numbered (input : List (EncodedSegment × DateTime)) : Prop where
  sequence : ∀ r, (ownInput r input).map (·.1.sequence) = List.range (ownInput r input).length
  isLast : ∀ r, ∀ x ∈ (ownInput r input).dropLast, x.1.isLast = false

theorem rendition_of_mem_ownInput {r : RenditionId} {input : List (EncodedSegment × DateTime)} :
    ∀ x ∈ ownInput r input, x.1.rendition = r :=
  fun _ hx => of_decide_eq_true (List.mem_filter.mp hx).2

/-- A write to an object of a rendition comes from the rendition's own trace. -/
theorem mem_packagerTrace_iff {env : PackagerEnv} {input : List (EncodedSegment × DateTime)}
    {r : RenditionId} {w : StorageWrite}
    (hpath : isOfRendition env.streamId.toText r.asStr w.path = true) :
    w ∈ packagerTrace env input ↔ w ∈ renditionTrace env none (ownInput r input) := by
  rw [← writesOf_packagerTrace, writesOf, List.mem_filter, and_iff_left hpath]

theorem segmentWrite_mem_packagerTrace {env : PackagerEnv}
    {input : List (EncodedSegment × DateTime)} {x : EncodedSegment × DateTime} (hx : x ∈ input) :
    segmentWrite env x.1 (encoded (generateMediaSegment (mediaSegmentParams x.1))) ∈
      packagerTrace env input := by
  have hown : x ∈ ownInput x.1.rendition input := List.mem_filter.mpr ⟨hx, decide_eq_true rfl⟩
  refine (mem_packagerTrace_iff ?_).mpr (segmentWrite_mem_renditionTrace hown)
  rw [segmentWrite_path, isOfRendition_append]

/-- The write to a rendition's init path is an init segment. -/
theorem eq_initWriteOf_of_path {env : PackagerEnv} {input : List (EncodedSegment × DateTime)}
    {r : RenditionId} {w : StorageWrite} (hw : w ∈ packagerTrace env input)
    (hpath : w.path = initSegmentPath env.streamId.toText r.asStr) :
    ∃ segment, w = initWriteOf env segment := by
  have hof : isOfRendition env.streamId.toText r.asStr w.path = true := by
    rw [hpath, initSegmentPath_eq, isOfRendition_append]
  rcases mem_renditionTrace ((mem_packagerTrace_iff hof).mp hw) with
    ⟨-, x, -, hw⟩ | ⟨x, hx, index, hw⟩
  · exact ⟨x.1, hw⟩
  · rw [← rendition_of_mem_ownInput x hx] at hpath
    exact absurd hpath (mediaWritesOf_path_ne_init hw)

/-- The write to a segment's path is that segment. -/
theorem eq_segmentWrite_of_path {env : PackagerEnv} {input : List (EncodedSegment × DateTime)}
    (hnum : Numbered input) {segment : EncodedSegment} {now : DateTime}
    (hmem : (segment, now) ∈ input) {w : StorageWrite} (hw : w ∈ packagerTrace env input)
    (hpath : w.path =
      segmentPath env.streamId.toText segment.rendition.asStr segment.sequence) :
    w = segmentWrite env segment (encoded (generateMediaSegment (mediaSegmentParams segment))) := by
  have hof : isOfRendition env.streamId.toText segment.rendition.asStr w.path = true := by
    rw [hpath, segmentPath_eq, isOfRendition_append]
  have hown : (segment, now) ∈ ownInput segment.rendition input :=
    List.mem_filter.mpr ⟨hmem, decide_eq_true rfl⟩
  rcases mem_renditionTrace ((mem_packagerTrace_iff hof).mp hw) with
    ⟨-, x, hx, rfl⟩ | ⟨x, hx, index, hw⟩
  · rw [← rendition_of_mem_ownInput x hx] at hpath
    exact absurd hpath segmentPath_ne_initSegmentPath.symm
  · have hr := rendition_of_mem_ownInput x hx
    simp only [mediaWritesOf, List.mem_cons, List.not_mem_nil, or_false] at hw
    rcases hw with rfl | rfl
    · -- Two segments of one rendition with the same number are the same segment.
      have hseq : x.1.sequence = segment.sequence := by
        have hpath' : segmentPath env.streamId.toText x.1.rendition.asStr x.1.sequence =
            segmentPath env.streamId.toText segment.rendition.asStr segment.sequence := hpath
        rw [hr, segmentPath_eq, segmentPath_eq] at hpath'
        exact segmentFilename_injective (List.append_cancel_left hpath')
      have hnodup : ((ownInput segment.rendition input).map (·.1.sequence)).Nodup := by
        rw [hnum.sequence]
        exact List.nodup_range
      rw [List.inj_on_of_nodup_map hnodup hx hown hseq]
    · have hpath' : mediaPlaylistPath env.streamId.toText x.1.rendition.asStr =
          segmentPath env.streamId.toText segment.rendition.asStr segment.sequence := hpath
      rw [hr] at hpath'
      exact absurd hpath'.symm segmentPath_ne_mediaPlaylistPath

/-- The playlists of a rendition, anywhere in the trace, list only files written
before. -/
theorem packagerTrace_listsWritten {env : PackagerEnv} {input : List (EncodedSegment × DateTime)}
    (hnum : Numbered input) (r : RenditionId) :
    EachAfter (ListsWritten env r) [] (packagerTrace env input) := by
  refine EachAfter.of_filter
    (q := fun w => isOfRendition env.streamId.toText r.asStr w.path) ?_ ?_ ?_
  · intro as bs w hsub h hpath uri huri
    obtain ⟨n, hn, w', hw', hpath'⟩ := h hpath uri huri
    exact ⟨n, hn, w', hsub hw', hpath'⟩
  · intro as w hq hpath
    rw [hpath, mediaPlaylistPath_eq, isOfRendition_append] at hq
    exact absurd hq (by decide)
  · rw [List.filter_nil, ← writesOf, writesOf_packagerTrace]
    refine renditionTrace_listsWritten (n := 0) rendition_of_mem_ownInput ?_ rfl ?_
    · rw [hnum.sequence r, List.range_eq_range']
    · exact fun old hold => absurd hold (by simp)

/-- A media playlist is preceded by its rendition's init segment. -/
theorem packagerTrace_initFirst (env : PackagerEnv) (input : List (EncodedSegment × DateTime))
    (r : RenditionId) :
    EachAfter (fun done w => w.path = mediaPlaylistPath env.streamId.toText r.asStr →
      ∃ w' ∈ done, w'.path = initSegmentPath env.streamId.toText r.asStr) []
      (packagerTrace env input) := by
  refine EachAfter.of_filter
    (q := fun w => isOfRendition env.streamId.toText r.asStr w.path) ?_ ?_ ?_
  · intro as bs w hsub h hpath
    obtain ⟨w', hw', hpath'⟩ := h hpath
    exact ⟨w', hsub hw', hpath'⟩
  · intro as w hq hpath
    rw [hpath, mediaPlaylistPath_eq, isOfRendition_append] at hq
    exact absurd hq (by decide)
  · rw [List.filter_nil, ← writesOf, writesOf_packagerTrace]
    by_cases hne : ownInput r input = []
    · rw [hne]
      trivial
    · obtain ⟨init, rest, htrace, hinit, -⟩ :=
        renditionTrace_init env rendition_of_mem_ownInput hne
      rw [htrace]
      refine ⟨fun hpath => absurd (hinit.symm.trans hpath) initSegmentPath_ne_mediaPlaylistPath, ?_⟩
      refine eachAfter_iff.mpr fun before w after _ _ => ⟨init, ?_, hinit⟩
      simp

/-- A media playlist of a rendition is an object of it. -/
theorem playlistsOf_packagerTrace (env : PackagerEnv) (r : RenditionId)
    (input : List (EncodedSegment × DateTime)) :
    playlistsOf env r (packagerTrace env input) =
      playlistsOf env r (renditionTrace env none (ownInput r input)) := by
  rw [← writesOf_packagerTrace, playlistsOf, playlistsOf, writesOf, List.filter_filter]
  refine List.filter_congr fun w _ => ?_
  by_cases hpath : w.path = mediaPlaylistPath env.streamId.toText r.asStr
  · rw [hpath, mediaPlaylistPath_eq, isOfRendition_append, Bool.and_true]
  · rw [decide_eq_false hpath, Bool.false_and]

/-- The write trace of a packager run over an open channel, for segments numbered as
the accumulator numbers them and in every interleaving of the renditions. -/
theorem packagerTrace_spec (env : PackagerEnv) (input : List (EncodedSegment × DateTime))
    (hnum : Numbered input) (r : RenditionId) :
    (ownInput r input ≠ [] → ∃ init rest, writesOf env r (packagerTrace env input) = init :: rest ∧
      init.path = initSegmentPath env.streamId.toText r.asStr ∧
      ∀ w ∈ rest, w.path ≠ initSegmentPath env.streamId.toText r.asStr) ∧
    (∀ before w after, packagerTrace env input = before ++ w :: after →
      w.path = mediaPlaylistPath env.streamId.toText r.asStr →
      ∀ uri ∈ playlistUris (playlistText w), ∃ n, uri = segmentFilename n ∧
        ∃ w' ∈ before, w'.path = segmentPath env.streamId.toText r.asStr n) ∧
    (∀ input', (ownInput r input').map Prod.fst = (ownInput r input).map Prod.fst →
      (writesOf env r (packagerTrace env input')).map (eraseClock env r) =
        (writesOf env r (packagerTrace env input)).map (eraseClock env r)) ∧
    (env.isVod = true → (∃ x, (ownInput r input).getLast? = some x ∧ x.1.isLast = true) →
      ∃ earlier last,
        playlistsOf env r (packagerTrace env input) = earlier ++ [last] ∧
        playlistUris (playlistText last) =
          (List.range (ownInput r input).length).map segmentFilename ∧
        EndsInEndlist last ∧ ∀ w ∈ earlier, ¬ EndsInEndlist w) := by
  refine ⟨fun hne => ?_, ?_, fun input' hown => ?_, fun hvod hlast => ?_⟩
  · rw [writesOf_packagerTrace]
    exact renditionTrace_init env rendition_of_mem_ownInput hne
  · intro before w after hsplit
    exact eachAfter_iff.mp (packagerTrace_listsWritten hnum r) before w after hsplit
  · have htimeless : ∀ xs : List (EncodedSegment × DateTime),
        xs.map (fun x => (x.1, (⟨0⟩ : DateTime))) = (xs.map Prod.fst).map (·, ⟨0⟩) := by
      intro xs
      rw [List.map_map]
      rfl
    rw [writesOf_packagerTrace, writesOf_packagerTrace,
      eraseClock_renditionTrace none _ rendition_of_mem_ownInput,
      eraseClock_renditionTrace none (ownInput r input) rendition_of_mem_ownInput,
      htimeless, htimeless, hown]
  · rw [playlistsOf_packagerTrace]
    exact renditionTrace_vod hvod rendition_of_mem_ownInput (hnum.isLast r) hlast

/-- The first writes of any run: the first segment's init segment, the master
playlist, the segment and its playlist. -/
theorem packagerTrace_cons (env : PackagerEnv) (segment : EncodedSegment) (now : DateTime)
    (input : List (EncodedSegment × DateTime)) :
    ∃ rest, packagerTrace env ((segment, now) :: input) =
      initWriteOf env segment :: masterWrite env [renditionInfo segment] ::
        mediaWritesOf env (nextIndex env none segment now) segment ++ rest := by
  obtain ⟨p', hstep, -, hwrites, -⟩ :=
    handleSegment_open env segment now Packager.open_start
  have hloop : packagerLoop env (Packager.start none) ((segment, now) :: input) =
      packagerLoop env p' input := by
    rw [packagerLoop, hstep]
  have hrun := extends_runPackager env none ((segment, now) :: input)
  rw [hloop] at hrun
  obtain ⟨later, hlater, -⟩ := (extends_packagerLoop env input p').trans hrun
  refine ⟨later, ?_⟩
  rw [packagerTrace, hlater, hwrites]
  rfl

section Sample

/-- A two-second segment of a 720p rendition. -/
def sampleSegment (rendition : RenditionId) (sequence : ℕ) (isLast : Bool) : EncodedSegment where
  streamId := ⟨1⟩
  rendition := rendition
  sequence := sequence
  durationSecs := 2
  ptsStart := 0
  videoData := [0x00, 0x00, 0x00, 0x01, 0x65, 0x88]
  audioData := none
  audioSampleRate := 48000
  audioChannels := 2
  isLast := isLast
  width := 1280
  height := 720
  videoBitrateKbps := 2000
  audioBitrateKbps := 128
  profile := "main".toList
  level := "3.1".toList
  frameRate := 30

def sampleEnv (isVod : Bool) : PackagerEnv where
  streamId := ⟨1⟩
  config := { liveWindowSegments := 5, hlsVersion := 7 }
  isVod := isVod

/-- Two renditions of two segments each, interleaved. -/
def sampleInput : List (EncodedSegment × DateTime) :=
  [(sampleSegment .medium 0 false, ⟨0⟩), (sampleSegment .low 0 false, ⟨1⟩),
    (sampleSegment .low 1 true, ⟨2⟩), (sampleSegment .medium 1 true, ⟨3⟩)]

theorem numbered_sampleInput : Numbered sampleInput :=
  ⟨fun r => by cases r <;> decide, fun r => by cases r <;> decide⟩

theorem packagerTrace_spec_sample :
    Numbered sampleInput ∧ ∃ earlier last,
      playlistsOf (sampleEnv true) .low (packagerTrace (sampleEnv true) sampleInput) =
        earlier ++ [last] ∧
      playlistUris (playlistText last) = (List.range 2).map segmentFilename ∧
      EndsInEndlist last ∧ ∀ w ∈ earlier, ¬ EndsInEndlist w :=
  ⟨numbered_sampleInput,
    (packagerTrace_spec (sampleEnv true) sampleInput numbered_sampleInput .low).2.2.2 rfl
      ⟨(sampleSegment .low 1 true, ⟨2⟩), by decide, rfl⟩⟩

end Sample

end StreamInfa.Package
