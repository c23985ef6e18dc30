import StreamInfa.Package.MasterReader
import StreamInfa.Package.Trace

/-!
What a player reads in the master playlists of a stream.

The packager publishes a master playlist for each rendition that it opens, and one more at its
end. **`master_playlists_read`**: a player reads in them the renditions opened so far, each as its
first segment describes it, and the playlist that a variant names is one that the packager writes.
-/

namespace StreamInfa.Package

/-- The segments that open their rendition, where those of `seen` are open. -/
def openers (seen : List RenditionId) : List EncodedSegment → List EncodedSegment
  | [] => []
  | segment :: segments =>
    if segment.rendition ∈ seen then openers seen segments
    else segment :: openers (segment.rendition :: seen) segments

/-- A rendition is opened by its first segment. -/
theorem mem_openers_iff {seen : List RenditionId} {segments : List EncodedSegment}
    {s : EncodedSegment} :
    s ∈ openers seen segments ↔ s.rendition ∉ seen ∧ ∃ before after,
      segments = before ++ s :: after ∧ s.rendition ∉ before.map (·.rendition) := by
  induction segments generalizing seen with
  | nil => simp [openers]
  | cons first segments ih =>
    by_cases hseen : first.rendition ∈ seen
    · rw [openers, if_pos hseen, ih]
      refine and_congr_right fun hs => ⟨?_, ?_⟩
      · rintro ⟨before, after, rfl, hbefore⟩
        refine ⟨first :: before, after, rfl, ?_⟩
        rw [List.map_cons, List.mem_cons, not_or]
        exact ⟨fun heq => hs (heq ▸ hseen), hbefore⟩
      · rintro ⟨before, after, hsplit, hbefore⟩
        cases before with
        | nil =>
          obtain ⟨rfl, -⟩ := List.cons.inj hsplit
          exact absurd hseen hs
        | cons other before =>
          obtain ⟨-, rfl⟩ := List.cons.inj hsplit
          exact ⟨before, after, rfl, fun hmem => hbefore (List.mem_cons_of_mem _ hmem)⟩
    · rw [openers, if_neg hseen, List.mem_cons, ih, List.mem_cons, not_or]
      constructor
      · rintro (rfl | ⟨⟨hne, hs⟩, before, after, rfl, hbefore⟩)
        · exact ⟨hseen, [], segments, rfl, List.not_mem_nil⟩
        · refine ⟨hs, first :: before, after, rfl, ?_⟩
          rw [List.map_cons, List.mem_cons, not_or]
          exact ⟨hne, hbefore⟩
      · rintro ⟨hs, before, after, hsplit, hbefore⟩
        cases before with
        | nil => exact .inl (List.cons.inj hsplit).1.symm
        | cons other before =>
          obtain ⟨rfl, rfl⟩ := List.cons.inj hsplit
          rw [List.map_cons, List.mem_cons, not_or] at hbefore
          exact .inr ⟨⟨hbefore.1, hs⟩, before, after, rfl, hbefore.2⟩

/-- No rendition is opened twice. -/
theorem nodup_openers (seen : List RenditionId) (segments : List EncodedSegment) :
    ((openers seen segments).map (·.rendition)).Nodup := by
  induction segments generalizing seen with
  | nil => exact List.nodup_nil
  | cons first segments ih =>
    rw [openers]
    split
    · exact ih seen
    · refine List.nodup_cons.mpr ⟨fun hmem => ?_, ih _⟩
      obtain ⟨s, hs, heq⟩ := List.mem_map.mp hmem
      exact (mem_openers_iff.mp hs).1 (heq ▸ List.mem_cons_self)

/-! ### What is published -/

/-- The master playlists among writes. -/
def mastersOf (env : PackagerEnv) (writes : List StorageWrite) : List StorageWrite :=
  writes.filter fun w => w.path = masterPlaylistPath env.streamId.toText

section Published

variable {env : PackagerEnv} {p p' : Packager} {segment : EncodedSegment} {now : DateTime}

theorem mastersOf_append (ws ws' : List StorageWrite) :
    mastersOf env (ws ++ ws') = mastersOf env ws ++ mastersOf env ws' := List.filter_append ..

theorem mastersOf_masterWrite (infos : List RenditionInfo) :
    mastersOf env [masterWrite env infos] = [masterWrite env infos] :=
  List.filter_cons_of_pos (decide_eq_true rfl)

/-- The object of a rendition is no master playlist. -/
theorem ne_masterPlaylistPath {r : RenditionId} {file : Text} :
    renditionPrefix env.streamId.toText r.asStr ++ file ≠
      masterPlaylistPath env.streamId.toText := by
  intro heq
  have hown := @isOfRendition_append env.streamId.toText r.asStr file
  rw [heq, isOfRendition_master] at hown
  cases hown

theorem mastersOf_mediaWritesOf (index : SegmentIndex) :
    mastersOf env (mediaWritesOf env index segment) = [] := by
  refine List.filter_eq_nil_iff.mpr fun w hw heq => ?_
  obtain ⟨file, hfile⟩ := mediaWritesOf_path hw
  exact ne_masterPlaylistPath (hfile.symm.trans (of_decide_eq_true heq))

/-- A turn publishes a master playlist exactly if it opens the rendition. -/
theorem mastersOf_turnWrites :
    mastersOf env (turnWrites env p segment now) =
      if p.indexes.lookup segment.rendition = none
        then [masterWrite env (p.renditionInfos ++ [renditionInfo segment])] else [] := by
  have hinit : mastersOf env [initWriteOf env segment] = [] := by
    refine List.filter_cons_of_neg fun heq => ?_
    obtain ⟨file, hfile⟩ := initWriteOf_path env segment
    exact ne_masterPlaylistPath (hfile.symm.trans (of_decide_eq_true heq))
  rw [turnWrites, mastersOf_append, mastersOf_mediaWritesOf, List.append_nil]
  cases p.indexes.lookup segment.rendition with
  | some index => rfl
  | none =>
    rw [if_pos rfl, ← List.singleton_append, mastersOf_append, hinit, List.nil_append,
      mastersOf_masterWrite]

/-- It then lists the rendition with the others. -/
theorem renditionInfos_handleSegment (hopen : p.Open)
    (hturn : handleSegment env p segment now = .ok p') :
    p'.renditionInfos = p.renditionInfos ++
      if p.indexes.lookup segment.rendition = none then [renditionInfo segment] else [] := by
  unfold handleSegment at hturn
  cases hinit : p.initSegmentsWritten.lookup segment.rendition with
  | some written =>
    have hsome : p.indexes.lookup segment.rendition ≠ none := by
      rw [ne_eq, ← hopen.opened, hinit]
      exact Option.some_ne_none _
    simp only [hinit, Except.bind] at hturn
    rw [writeMediaSegment_open (by exact hopen.room)] at hturn
    obtain rfl := Except.ok.inj hturn
    rw [if_neg hsome, List.append_nil]
  | none =>
    simp only [hinit] at hturn
    rw [openRendition_open (by exact hopen.room) (by exact hopen.published)] at hturn
    simp only [Except.bind] at hturn
    rw [writeMediaSegment_open (by exact hopen.room)] at hturn
    obtain rfl := Except.ok.inj hturn
    rw [if_pos ((hopen.opened _).mp hinit)]

/-- The loop lists the renditions that its segments open, and publishes each of these lists. -/
theorem packagerLoop_masters {seen : List RenditionId} (hopen : p.Open)
    (hseen : ∀ r, p.indexes.lookup r = none ↔ r ∉ seen)
    (input : List (EncodedSegment × DateTime)) :
    let opened := openers seen (input.map Prod.fst)
    (packagerLoop env p input).Open ∧
      (packagerLoop env p input).renditionInfos = p.renditionInfos ++ opened.map renditionInfo ∧
      mastersOf env (packagerLoop env p input).writes = mastersOf env p.writes ++
        opened.inits.tail.map fun shown =>
          masterWrite env (p.renditionInfos ++ shown.map renditionInfo) := by
  induction input generalizing p seen with
  | nil => exact ⟨hopen, (List.append_nil _).symm, (List.append_nil _).symm⟩
  | cons x input ih =>
    obtain ⟨segment, now⟩ := x
    obtain ⟨p', hturn, hopen', hwrites, -, hself, hother⟩ :=
      handleSegment_open env segment now hopen
    have hinfos := renditionInfos_handleSegment hopen hturn
    rw [packagerLoop, hturn]
    dsimp only
    rw [List.map_cons, openers]
    have hsome : p'.indexes.lookup segment.rendition ≠ none := by
      rw [hself]
      exact Option.some_ne_none _
    by_cases hnew : segment.rendition ∈ seen
    · have hold : p.indexes.lookup segment.rendition ≠ none := fun hnone =>
        (hseen _).mp hnone hnew
      have hseen' : ∀ r, p'.indexes.lookup r = none ↔ r ∉ seen := by
        intro r
        by_cases hr : r = segment.rendition
        · subst hr
          exact iff_of_false hsome (not_not_intro hnew)
        · rw [hother r hr, hseen]
      obtain ⟨hopened, hlisted, hmasters⟩ := ih hopen' hseen'
      rw [if_neg hold, List.append_nil] at hinfos
      rw [if_pos hnew]
      refine ⟨hopened, by rw [hlisted, hinfos], ?_⟩
      rw [hmasters, hwrites, mastersOf_append, mastersOf_turnWrites, if_neg hold,
        List.append_nil, hinfos]
    · have hnone := (hseen _).mpr hnew
      have hseen' : ∀ r, p'.indexes.lookup r = none ↔ r ∉ segment.rendition :: seen := by
        intro r
        rw [List.mem_cons, not_or]
        by_cases hr : r = segment.rendition
        · subst hr
          exact iff_of_false hsome fun h => h.1 rfl
        · rw [hother r hr, hseen, and_iff_right hr]
      obtain ⟨hopened, hlisted, hmasters⟩ := ih hopen' hseen'
      rw [if_pos hnone] at hinfos
      rw [if_neg hnew]
      refine ⟨hopened, by rw [hlisted, hinfos, List.append_assoc]; rfl, ?_⟩
      rw [hmasters, hwrites, mastersOf_append, mastersOf_turnWrites, if_pos hnone, hinfos,
        List.append_assoc]
      refine congrArg _ ?_
      -- Every list of later renditions starts with this one.
      generalize openers (segment.rendition :: seen) (input.map Prod.fst) = later
      rw [List.inits_cons, List.tail_cons]
      cases later with
      | nil => rfl
      | cons next later =>
        simp [Function.comp_def]

end Published

/-! ### What is read -/

/-- The media playlist of a rendition that has a segment is written. -/
theorem exists_playlist_of_mem {env : PackagerEnv} {input : List (EncodedSegment × DateTime)}
    {s : EncodedSegment} (hs : s ∈ input.map Prod.fst) :
    ∃ w ∈ packagerTrace env input,
      w.path = mediaPlaylistPath env.streamId.toText s.rendition.asStr := by
  obtain ⟨x, hx, rfl⟩ := List.mem_map.mp hs
  have hown : x ∈ ownInput x.1.rendition input := List.mem_filter.mpr ⟨hx, decide_eq_true rfl⟩
  generalize hr : x.1.rendition = r at hown
  cases hinput : ownInput r input with
  | nil =>
    rw [hinput] at hown
    cases hown
  | cons first rest =>
    have hfirst : first.1.rendition = r :=
      rendition_of_mem_ownInput first (hinput ▸ List.mem_cons_self)
    have hpath : (playlistWrite env first.1.rendition ((nextIndex env none first.1
        first.2).generatePlaylist env.config.hlsVersion env.isVod first.1.isLast)).path =
          mediaPlaylistPath env.streamId.toText r.asStr := by
      rw [hfirst]
      rfl
    refine ⟨_, (@mem_packagerTrace_iff env input r _ ?_).mpr ?_, hpath⟩
    · exact (congrArg _ (hpath.trans (mediaPlaylistPath_eq _ _))).trans (isOfRendition_append _)
    · rw [hinput, renditionTrace]
      refine List.mem_append_left _ (List.mem_append_right _ ?_)
      exact List.mem_cons_of_mem _ List.mem_cons_self

/-- **What a player reads in the master playlists**: one after another it gets the lists of the
renditions opened so far, in their order and each as its first segment describes it, and the
complete list once more. No rendition is listed twice, and the playlist that a variant names is
written. -/
theorem master_playlists_read (env : PackagerEnv) (input : List (EncodedSegment × DateTime))
    (hrates : ∀ x ∈ input, 0 ≤ x.1.frameRate) :
    let opened := openers [] (input.map Prod.fst)
    (mastersOf env (packagerTrace env input)).map (fun w => readMasterPlaylist (playlistText w)) =
      (opened.inits.tail ++ if opened = [] then [] else [opened]).map (fun shown =>
        some ⟨env.config.hlsVersion.toNat, true,
          shown.map fun s => (renditionInfo s).variant⟩) ∧
    (opened.map (·.rendition)).Nodup ∧
    (∀ s, s ∈ opened ↔ ∃ before after, input.map Prod.fst = before ++ s :: after ∧
      s.rendition ∉ before.map (·.rendition)) ∧
    ∀ s ∈ opened, ∃ w ∈ packagerTrace env input,
      w.path = env.streamId.toText ++ '/' :: (renditionInfo s).variant.uri := by
  intro opened
  have hmem : ∀ s ∈ opened, s ∈ input.map Prod.fst := by
    intro s hs
    obtain ⟨-, before, after, hsplit, -⟩ := mem_openers_iff.mp hs
    rw [hsplit]
    exact List.mem_append_right _ List.mem_cons_self
  have hread : ∀ shown : List EncodedSegment, (∀ s ∈ shown, s ∈ opened) →
      readMasterPlaylist (playlistText (masterWrite env (shown.map renditionInfo))) =
        some ⟨env.config.hlsVersion.toNat, true, shown.map fun s => (renditionInfo s).variant⟩ := by
    intro shown hshown
    have htext : playlistText (masterWrite env (shown.map renditionInfo)) =
        generateMultivariantPlaylist (shown.map renditionInfo) env.config.hlsVersion :=
      fromUtf8Lossy_encodeUtf8 _
    rw [htext, readMasterPlaylist_generateMultivariantPlaylist, List.map_map]
    · rfl
    · intro info hinfo
      obtain ⟨s, hs, rfl⟩ := List.mem_map.mp hinfo
      obtain ⟨x, hx, rfl⟩ := List.mem_map.mp (hmem s (hshown s hs))
      exact hrates x hx
  obtain ⟨hopen, hlisted, hmasters⟩ := @packagerLoop_masters env _ [] Packager.open_start
    (fun r => by simp [Packager.start]) input
  have hstart : (Packager.start none).renditionInfos = [] := rfl
  have hnothing : mastersOf env (Packager.start none).writes = [] := rfl
  rw [hstart, List.nil_append] at hlisted
  rw [hnothing, hstart, List.nil_append] at hmasters
  have htrace : mastersOf env (packagerTrace env input) =
      (opened.inits.tail ++ if opened = [] then [] else [opened]).map fun shown =>
        masterWrite env (shown.map renditionInfo) := by
    rw [packagerTrace, runPackager]
    simp only [hlisted, List.map_append]
    by_cases hnone : opened = []
    · rw [if_pos (List.map_eq_nil_iff.mpr hnone), if_pos hnone, hmasters]
      exact (List.append_nil _).symm
    · rw [if_neg (mt List.map_eq_nil_iff.mp hnone), if_neg hnone, writeMasterPlaylist,
        Packager.send_of_open hopen.room, Option.getD_some, mastersOf_append, hmasters, hlisted,
        mastersOf_masterWrite]
      rfl
  refine ⟨?_, nodup_openers _ _, fun s => ?_, fun s hs => ?_⟩
  · rw [htrace, List.map_map]
    refine List.map_congr_left fun shown hshown => hread shown ?_
    rcases List.mem_append.mp hshown with hshown | hshown
    · exact ((List.mem_inits _ _).mp (List.mem_of_mem_tail hshown)).subset
    · split at hshown
      · cases hshown
      · obtain rfl := List.mem_singleton.mp hshown
        exact fun s hs => hs
  · rw [mem_openers_iff, and_iff_right List.not_mem_nil]
  · obtain ⟨w, hw, hpath⟩ := @exists_playlist_of_mem env input s (hmem s hs)
    exact ⟨w, hw, hpath.trans (by simp [mediaPlaylistPath, RenditionInfo.variant, renditionInfo])⟩

/-- Two renditions, interleaved. -/
theorem master_playlists_read_sample :
    (mastersOf (sampleEnv false) (packagerTrace (sampleEnv false) sampleInput)).map
      (fun w => (readMasterPlaylist (playlistText w)).map fun m => m.variants.map (·.uri)) =
    [some ["medium/media.m3u8".toList],
      some ["medium/media.m3u8".toList, "low/media.m3u8".toList],
      some ["medium/media.m3u8".toList, "low/media.m3u8".toList]] := by
  have hread := (master_playlists_read (sampleEnv false) sampleInput (by decide)).1
  have hvariants := congrArg
    (List.map (Option.map fun m : MasterPlaylist => m.variants.map (·.uri))) hread
  rw [List.map_map, List.map_map] at hvariants
  exact hvariants.trans (by decide)

end StreamInfa.Package
