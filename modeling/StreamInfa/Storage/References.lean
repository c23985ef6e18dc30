import StreamInfa.Package.Trace
import StreamInfa.Storage.Writer

/-!
What the stored playlists refer to.

The packager sends a segment before the playlist that lists it, and the init segment
before both. The writer runs the writes of a batch concurrently and drops a write
whose retries are exhausted, so a playlist can be stored before, or without, the
files it names (`playlist_stored_before_segment`). A playlist also names files by the
index's counter and not by the segment's number, so that it can name a file that is
never sent.

`ReferencesSettled` is the condition on a step: when a media playlist is put, each
file it refers to was sent before it in a write that has ended and was not given up.
**`no_dangling_references`**: in every run whose steps meet it, whatever the segments,
the batching, the schedule and the failures, every file a stored playlist refers to is
stored. The packager does its part for the numbering that the segment accumulator
produces (`exists_earlier_slot`).
-/

namespace StreamInfa.Storage

open Package

/-- The files a media playlist of `r` refers to: the init segment and the segments it
lists. -/
def referencedPaths (env : PackagerEnv) (r : RenditionId) (playlist : Text) : List Text :=
  initSegmentPath env.streamId.toText r.asStr ::
    (playlistUris playlist).map (renditionPrefix env.streamId.toText r.asStr ++ ·)

/-- Every file that a stored media playlist refers to is stored. -/
def NoDangling (env : PackagerEnv) (store : MediaStore) : Prop :=
  ∀ r object, store.lookup (mediaPlaylistPath env.streamId.toText r.asStr) = some object →
    ∀ path ∈ referencedPaths env r (fromUtf8Lossy object.data), (store.lookup path).isSome

/-- A step that does not put a media playlist before the files it refers to: for each
of them some write sent before the playlist is neither running nor given up. -/
def ReferencesSettled (env : PackagerEnv) (s : Writer) : WriterAction → Prop
  | .put i _ => ∀ t r, s.tasks[i]? = some t →
      t.write.path = mediaPlaylistPath env.streamId.toText r.asStr →
      ∀ path ∈ referencedPaths env r (playlistText t.write),
        ∃ j w, j < t.slot ∧ s.channel[j]? = some w ∧ w.path = path ∧
          ∀ t' ∈ s.tasks ++ s.failed, t'.slot ≠ j
  | .batch _ | .fail _ => True

theorem isManifest_mediaPlaylistPath (streamId rendition : Text) :
    isManifest (mediaPlaylistPath streamId rendition) = true :=
  List.isSuffixOf_iff_suffix.mpr (suffix_m3u8_mediaPlaylistPath streamId rendition)

/-- The text of a stored playlist is the text that was sent. -/
theorem fromUtf8Lossy_storedObject {write : StorageWrite} (h : isManifest write.path = true)
    (now : DateTime) : fromUtf8Lossy (storedObject write now).data = playlistText write := by
  rw [storedObject, if_pos h, fromUtf8Lossy_encodeUtf8]
  rfl

/-- What a playlist refers to was sent before it, when the segments carry the index's
numbers. -/
theorem exists_earlier_slot {env : PackagerEnv} {input : List (EncodedSegment × DateTime)}
    (hnum : Numbered input) {slot : ℕ} {write : StorageWrite} {r : RenditionId}
    (hget : (packagerTrace env input)[slot]? = some write)
    (hpath : write.path = mediaPlaylistPath env.streamId.toText r.asStr) {path : Text}
    (hmem : path ∈ referencedPaths env r (playlistText write)) :
    ∃ j w, j < slot ∧ (packagerTrace env input)[j]? = some w ∧ w.path = path := by
  obtain ⟨hlt, hwrite⟩ := List.getElem?_eq_some_iff.mp hget
  have hsplit : packagerTrace env input = (packagerTrace env input).take slot ++
      write :: (packagerTrace env input).drop (slot + 1) := by
    rw [← hwrite, List.cons_getElem_drop_succ, List.take_append_drop]
  have hearlier : ∃ w ∈ (packagerTrace env input).take slot, w.path = path := by
    rcases List.mem_cons.mp hmem with rfl | hmem
    · exact eachAfter_iff.mp (packagerTrace_initFirst env input r) _ _ _ hsplit hpath
    · obtain ⟨uri, huri, rfl⟩ := List.mem_map.mp hmem
      obtain ⟨n, rfl, w, hw, hwpath⟩ :=
        eachAfter_iff.mp (packagerTrace_listsWritten hnum r) _ _ _ hsplit hpath uri huri
      exact ⟨w, hw, hwpath.trans (segmentPath_eq _ _ _)⟩
  obtain ⟨w, hw, hwpath⟩ := hearlier
  obtain ⟨j, hj⟩ := List.mem_iff_getElem?.mp hw
  rw [List.getElem?_take] at hj
  split at hj
  · rename_i hjlt
    exact ⟨j, w, hjlt, hj, hwpath⟩
  · exact absurd hj (by simp)

section Step

variable {env : PackagerEnv} {s s' : Writer} {a : WriterAction}

/-- When a playlist is put under the condition, everything it refers to is stored. -/
theorem referenced_stored (hwf : WellFormed s) {i : ℕ} {now : DateTime} {t : PutTask}
    {r : RenditionId} (hok : ReferencesSettled env s (.put i now)) (hget : s.tasks[i]? = some t)
    (hpath : t.write.path = mediaPlaylistPath env.streamId.toText r.asStr) :
    ∀ path ∈ referencedPaths env r (playlistText t.write), (s.store.lookup path).isSome := by
  intro path hmem
  obtain ⟨hreceived, -⟩ := hwf.running t (List.mem_of_getElem? hget)
  obtain ⟨j, w, hj, hw, rfl, hended⟩ := hok t r hget hpath path hmem
  rcases hwf.tracked j w (by omega) hw with ⟨t', ht', hslot⟩ | ⟨t', ht', hslot, -⟩ | hstored
  · exact absurd hslot (hended t' (List.mem_append_left _ ht'))
  · exact absurd hslot (hended t' (List.mem_append_right _ ht'))
  · exact hstored

theorem NoDangling.step (hwf : WellFormed s) (hno : NoDangling env s.store)
    (hok : ReferencesSettled env s a) (h : writerStep s a = some s') :
    NoDangling env s'.store := by
  obtain ⟨n, rfl, -, -, rfl⟩ | ⟨i, now, t, rfl, hget, rfl⟩ | ⟨i, t, rfl, hget, rfl⟩ :=
    writerStep_cases h
  · exact hno
  · intro r object hobject path hmem
    refine isSome_lookup_putWrite t.write now ?_
    by_cases hpath : mediaPlaylistPath env.streamId.toText r.asStr = t.write.path
    · -- The playlist just put: its text is the text sent.
      have hself : (putWrite s.store t.write now).lookup
          (mediaPlaylistPath env.streamId.toText r.asStr) = some (storedObject t.write now) := by
        rw [hpath]
        exact lookup_putWrite_self s.store t.write now
      obtain rfl := Option.some.inj (hself.symm.trans hobject)
      rw [fromUtf8Lossy_storedObject (hpath ▸ isManifest_mediaPlaylistPath _ _)] at hmem
      exact referenced_stored hwf hok hget hpath.symm path hmem
    · have hsame := lookup_putWrite_ne s.store now hpath
      exact hno r object (hsame.symm.trans hobject) path hmem
  · have hstore : (s.failAttempt i t).store = s.store := by
      unfold Writer.failAttempt
      split <;> rfl
    rw [hstore]
    exact hno

end Step

/-- The packager feeding the writer over an initially empty stream prefix: in every
state reached by a run whose steps meet the condition, no stored playlist refers to a
file that is not stored. -/
theorem no_dangling_references (env : PackagerEnv) (input : List (EncodedSegment × DateTime))
    (store : MediaStore)
    (hempty : ∀ path, env.streamId.toText ++ "/".toList <+: path → store.lookup path = none)
    (actions : List WriterAction) (reached : Writer)
    (hmeets : Meets writerStep (ReferencesSettled env)
      (Writer.start (packagerTrace env input) store) actions)
    (hrun : run writerStep (Writer.start (packagerTrace env input) store) actions =
      some reached) :
    NoDangling env reached.store := by
  have hinv : WellFormed reached ∧ NoDangling env reached.store := by
    refine run_invariant_of_meets (I := fun s => WellFormed s ∧ NoDangling env s.store)
      (fun s a s' hs hok hstep => ⟨hs.1.step hstep, hs.2.step hs.1 hok hstep⟩) ?_ hmeets hrun
    refine ⟨wellFormed_start _ _, fun r object hobject => ?_⟩
    have hnone := hempty (mediaPlaylistPath env.streamId.toText r.asStr)
      ⟨r.asStr ++ "/media.m3u8".toList, by simp [mediaPlaylistPath]⟩
    exact absurd (hnone.symm.trans hobject) (by simp)
  exact hinv.2

/-- A playlist put into an empty store dangles as soon as it lists a segment. -/
theorem not_noDangling_of_listed (env : PackagerEnv) (r : RenditionId) {index : SegmentIndex}
    {entry : SegmentEntry} (hmem : entry ∈ index.segments) (isFinished : Bool) (now : DateTime) :
    ¬ NoDangling env (putWrite ∅ (playlistWrite env r
      (index.generatePlaylist env.config.hlsVersion env.isVod isFinished)) now) := by
  intro hno
  set playlist := playlistWrite env r
    (index.generatePlaylist env.config.hlsVersion env.isVod isFinished)
  set path := segmentPath env.streamId.toText r.asStr entry.sequence
  have hlisted : path ∈ referencedPaths env r (fromUtf8Lossy (storedObject playlist now).data) := by
    rw [fromUtf8Lossy_storedObject (isManifest_mediaPlaylistPath _ _), playlistText_playlistWrite,
      referencedPaths, SegmentIndex.playlistUris_generatePlaylist]
    refine List.mem_cons_of_mem _ (List.mem_map.mpr ⟨segmentFilename entry.sequence, ?_, ?_⟩)
    · exact List.mem_map.mpr ⟨entry, hmem, rfl⟩
    · exact (segmentPath_eq _ _ _).symm
  have hstored := hno r _ (lookup_putWrite_self ∅ playlist now) path hlisted
  have hnone : (putWrite ∅ playlist now).lookup path = none :=
    lookup_putWrite_ne ∅ now segmentPath_ne_mediaPlaylistPath
  rw [hnone] at hstored
  exact absurd hstored (by simp)

/-! ### One segment -/

section Sample

/-- `n` batches of one write, each put at once. -/
def oneByOne (n : ℕ) : List WriterAction :=
  (List.replicate n [WriterAction.batch 1, .put 0 ⟨0⟩]).flatten

/-- Writing one by one meets the condition for as long as there are writes, when every
playlist was sent behind what it refers to. -/
theorem meets_oneByOne (env : PackagerEnv) {s : Writer} {n : ℕ}
    (hsent : ∀ (slot : ℕ) (write : StorageWrite) (r : RenditionId),
      s.channel[slot]? = some write →
      write.path = mediaPlaylistPath env.streamId.toText r.asStr →
      ∀ path ∈ referencedPaths env r (playlistText write),
        ∃ j w, j < slot ∧ s.channel[j]? = some w ∧ StorageWrite.path w = path)
    (htasks : s.tasks = []) (hfailed : s.failed = [])
    (hlen : s.received + n ≤ s.channel.length) :
    Meets writerStep (ReferencesSettled env) s (oneByOne n) ∧
      ∃ reached, run writerStep s (oneByOne n) = some reached ∧
        reached.received = s.received + n := by
  induction n generalizing s with
  | zero => exact ⟨trivial, s, rfl, rfl⟩
  | succ n ih =>
    obtain ⟨write, hwrite⟩ : ∃ write, s.channel[s.received]? = some write :=
      ⟨_, List.getElem?_eq_getElem (by omega)⟩
    have hnew : s.newTasks 1 = [⟨s.received, write, 0⟩] := by
      have hdrop : (s.channel.drop s.received).take 1 = [write] := by
        rw [List.take_one, List.head?_drop, hwrite]
        rfl
      simp [Writer.newTasks, hdrop]
    have hbatch : writerStep s (.batch 1) =
        some { s with received := s.received + 1, tasks := [⟨s.received, write, 0⟩] } := by
      rw [writerStep, if_pos ⟨htasks, Nat.one_pos, by omega⟩, hnew]
    set s₁ : Writer := { s with received := s.received + 1, tasks := [⟨s.received, write, 0⟩] }
    have hput : writerStep s₁ (.put 0 ⟨0⟩) =
        some (s₁.complete 0 ⟨s.received, write, 0⟩ ⟨0⟩) := rfl
    obtain ⟨hmeets, reached, hrun, hreceived⟩ :=
      ih (s := s₁.complete 0 ⟨s.received, write, 0⟩ ⟨0⟩) hsent rfl hfailed
        (by simp only [Writer.complete, s₁]; omega)
    have hcons : oneByOne (n + 1) = .batch 1 :: .put 0 ⟨0⟩ :: oneByOne n := by
      simp [oneByOne, List.replicate_succ]
    rw [hcons]
    refine ⟨⟨trivial, fun s' h' => ?_⟩, reached, ?_, ?_⟩
    · obtain rfl := Option.some.inj (hbatch.symm.trans h')
      refine ⟨fun t r hget hpath path hmem => ?_, fun s'' h'' => ?_⟩
      · obtain rfl := Option.some.inj hget
        obtain ⟨j, w, hj, hw, hwpath⟩ := hsent s.received write r hwrite hpath path hmem
        refine ⟨j, w, hj, hw, hwpath, fun t' ht' => ?_⟩
        -- The only task is the playlist itself, and nothing was given up.
        have hone : t' = ⟨s.received, write, 0⟩ := by simpa [s₁, hfailed] using ht'
        rw [hone]
        exact Nat.ne_of_gt hj
      · obtain rfl := Option.some.inj (hput.symm.trans h'')
        exact hmeets
    · rw [run_cons_of_step hbatch, run_cons_of_step hput, hrun]
    · rw [hreceived]
      simp only [Writer.complete, s₁]
      omega

/-- The writes of one segment: init, master, segment, playlist and final master. -/
def oneSegment : List (EncodedSegment × DateTime) := [(sampleSegment .low 0 true, ⟨0⟩)]

theorem numbered_oneSegment : Numbered oneSegment :=
  ⟨fun r => by cases r <;> decide, fun r => by cases r <;> decide⟩

theorem no_dangling_one_by_one :
    ∃ reached, run writerStep
        (Writer.start (packagerTrace (sampleEnv false) oneSegment) ∅) (oneByOne 4) =
          some reached ∧
      reached.received = 4 ∧ NoDangling (sampleEnv false) reached.store := by
  obtain ⟨hmeets, reached, hrun, hreceived⟩ := meets_oneByOne (sampleEnv false) (n := 4)
    (s := Writer.start (packagerTrace (sampleEnv false) oneSegment) ∅)
    (fun _ _ _ hget hpath _ hmem => exists_earlier_slot numbered_oneSegment hget hpath hmem)
    rfl rfl (by decide +kernel)
  exact ⟨reached, hrun, hreceived, no_dangling_references (sampleEnv false) oneSegment
    ∅ (fun _ _ => rfl) (oneByOne 4) reached hmeets hrun⟩

/-- Drained as one batch, the playlist can be stored before the segment it lists. -/
theorem playlist_stored_before_segment :
    Numbered oneSegment ∧
    ∃ reached, run writerStep (Writer.start (packagerTrace (sampleEnv false) oneSegment) ∅)
        [.batch 4, .put 3 ⟨0⟩] = some reached ∧
      ¬ NoDangling (sampleEnv false) reached.store := by
  refine ⟨numbered_oneSegment, ?_⟩
  obtain ⟨rest, htrace⟩ := packagerTrace_cons (sampleEnv false) (sampleSegment .low 0 true) ⟨0⟩ []
  have hlen : 4 ≤ (packagerTrace (sampleEnv false) oneSegment).length := by
    rw [oneSegment, htrace]
    simp [mediaWritesOf]
  -- The fourth write is the playlist.
  have hfourth : (packagerTrace (sampleEnv false) oneSegment)[3]? =
      some (playlistWrite (sampleEnv false) .low
        ((nextIndex (sampleEnv false) none (sampleSegment .low 0 true) ⟨0⟩).generatePlaylist
          (sampleEnv false).config.hlsVersion (sampleEnv false).isVod true)) := by
    rw [oneSegment, htrace]
    rfl
  refine ⟨_, run_batch_put rfl ?_ (by decide) hfourth ⟨0⟩, ?_⟩
  · exact hlen
  · exact not_noDangling_of_listed (sampleEnv false) .low List.mem_cons_self true ⟨0⟩

end Sample

end StreamInfa.Storage
