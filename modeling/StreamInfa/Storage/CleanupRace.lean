import StreamInfa.Package.Window
import StreamInfa.Storage.References
import StreamInfa.Storage.Retention

/-!
The cleanup of a LIVE stream beside its packager.

A cycle lists the stream's objects, then reads the media playlists one by one, then
deletes one object at a time, and the packager's writes reach the store between any two
of these calls. The machine has three actions: time passes (`tick`), the packager's next
write is stored (`write`), and the cycle makes its next call (`cleanup`). A run is one
interleaving, over any number of cycles.

The listing, the reads and the deletions see different windows. What holds them together
is the age: a segment old enough to be deleted was old enough when the cycle began, so it
had been listed by then; if the later read of its playlist does not show it, its window
has passed and does not come back. **`deleted_never_referenced`** puts this together, for
packagers that list every segment within the retention after it is stored.
`run_cycle_alone` says that a cycle that nothing interrupts is `cleanupLiveStream`.
-/

namespace StreamInfa.Storage

open Package

/-! ### The machine -/

/-- A cycle between two calls of the store. -/
structure SegmentCleanup where
  now : DateTime
  retention : ℤ
  unread : List ObjectInfo
  referenced : List Text
  undecided : List ObjectInfo
deriving DecidableEq, Repr

inductive CleanupPhase where
  | idle
  /-- Called, with the clock reading the ages are measured from. -/
  | started (now : DateTime)
  | working (cycle : SegmentCleanup)
  /-- The retention is not a duration. -/
  | panicked
deriving DecidableEq, Repr

/-- The store with the packager's first `applied` writes, the cycle and the log of its
deletions. -/
structure CleanupRace where
  store : MediaStore
  clock : DateTime
  applied : ℕ
  phase : CleanupPhase
  deleted : List Text

def CleanupRace.start (store : MediaStore) (clock : DateTime) : CleanupRace where
  store := store
  clock := clock
  applied := 0
  phase := .idle
  deleted := []

inductive RaceAction where
  | tick (now : DateTime)
  | write
  | cleanup
deriving DecidableEq, Repr

/-- The delete loop at one object. -/
def decideObject (s : CleanupRace) (cycle : SegmentCleanup) (info : ObjectInfo) : CleanupRace :=
  if isUnneeded cycle.retention cycle.now cycle.referenced info then
    { s with
      store := s.store.deleteObject info.key
      deleted := s.deleted ++ [info.key] }
  else s

/-- The next call of the cycle on stream `id`. -/
def cycleStep (config : RetentionConfig) (id : StreamId) (s : CleanupRace) : Option CleanupRace :=
  match s.phase with
  | .idle => some { s with phase := .started s.clock }
  | .started now =>
    let objects := s.store.listObjects (streamPrefix id)
    match config.retention with
    | none => some { s with phase := .panicked }
    | some retention =>
      some { s with phase := .working ⟨now, retention, objects, [], objects⟩ }
  | .working cycle =>
    match cycle.unread, cycle.undecided with
    | info :: unread, _ =>
      some
        { s with
          phase := .working
            { cycle with
              unread := unread
              referenced := cycle.referenced ++ referencedSegments noFaults s.store [info] } }
    | [], info :: undecided =>
      some
        { decideObject s cycle info with
          phase := .working { cycle with undecided := undecided } }
    | [], [] => some { s with phase := .idle }
  | .panicked => none

def raceStep (env : PackagerEnv) (input : List (EncodedSegment × DateTime))
    (config : RetentionConfig) (s : CleanupRace) : RaceAction → Option CleanupRace
  | .tick now => if s.clock.nanos ≤ now.nanos then some { s with clock := now } else none
  | .write => ((packagerTrace env input)[s.applied]?).map fun w =>
      { s with store := putWrite s.store w s.clock, applied := s.applied + 1 }
  | .cleanup => cycleStep config env.streamId s

/-- Everything a call of the cycle can do. -/
inductive CycleOutcome (config : RetentionConfig) (id : StreamId) (s : CleanupRace) :
    CleanupRace → Prop where
  | started (hphase : s.phase = .idle) :
      CycleOutcome config id s { s with phase := .started s.clock }
  | panicked {now : DateTime} (hphase : s.phase = .started now) (hpanic : config.retention = none) :
      CycleOutcome config id s { s with phase := .panicked }
  | listed {now : DateTime} {retention : ℤ} (hphase : s.phase = .started now)
      (hretention : config.retention = some retention) :
      CycleOutcome config id s
        { s with
          phase := .working ⟨now, retention, s.store.listObjects (streamPrefix id), [],
            s.store.listObjects (streamPrefix id)⟩ }
  | read {cycle : SegmentCleanup} {info : ObjectInfo} {unread : List ObjectInfo}
      (hphase : s.phase = .working cycle) (hunread : cycle.unread = info :: unread) :
      CycleOutcome config id s
        { s with
          phase := .working
            { cycle with
              unread := unread
              referenced := cycle.referenced ++ referencedSegments noFaults s.store [info] } }
  | decided {cycle : SegmentCleanup} {info : ObjectInfo} {undecided : List ObjectInfo}
      (hphase : s.phase = .working cycle) (hunread : cycle.unread = [])
      (hundecided : cycle.undecided = info :: undecided) :
      CycleOutcome config id s
        { decideObject s cycle info with
          phase := .working { cycle with undecided := undecided } }
  | finished {cycle : SegmentCleanup} (hphase : s.phase = .working cycle) :
      CycleOutcome config id s { s with phase := .idle }

theorem cycleStep_outcome {config : RetentionConfig} {id : StreamId} {s s' : CleanupRace}
    (h : cycleStep config id s = some s') : CycleOutcome config id s s' := by
  unfold cycleStep at h
  split at h
  · rename_i hphase
    exact Option.some.inj h ▸ .started hphase
  · rename_i now hphase
    dsimp only at h
    split at h
    · rename_i hpanic
      exact Option.some.inj h ▸ .panicked hphase hpanic
    · rename_i retention hretention
      exact Option.some.inj h ▸ .listed hphase hretention
  · rename_i cycle hphase
    split at h
    · rename_i info unread _ hunread
      exact Option.some.inj h ▸ .read hphase hunread
    · rename_i info undecided hunread hundecided
      exact Option.some.inj h ▸ .decided hphase hunread hundecided
    · exact Option.some.inj h ▸ .finished hphase
  · exact absurd h (by simp)

/-- Everything a step can do. -/
theorem raceStep_cases {env : PackagerEnv} {input : List (EncodedSegment × DateTime)}
    {config : RetentionConfig} {s s' : CleanupRace} {a : RaceAction}
    (h : raceStep env input config s a = some s') :
    (∃ now, s.clock.nanos ≤ now.nanos ∧ s' = { s with clock := now }) ∨
    (∃ w, (packagerTrace env input)[s.applied]? = some w ∧
      s' = { s with store := putWrite s.store w s.clock, applied := s.applied + 1 }) ∨
    CycleOutcome config env.streamId s s' := by
  cases a with
  | tick now =>
    simp only [raceStep, Option.ite_none_right_eq_some, Option.some.injEq] at h
    exact Or.inl ⟨now, h.1, h.2.symm⟩
  | write =>
    obtain ⟨w, hw, rfl⟩ := Option.map_eq_some_iff.mp h
    exact Or.inr (Or.inl ⟨w, hw, rfl⟩)
  | cleanup => exact Or.inr (Or.inr (cycleStep_outcome h))

/-! ### What the stored playlists list -/

section Tracking

variable {env : PackagerEnv} {input : List (EncodedSegment × DateTime)} {config : RetentionConfig}
  {s s' : CleanupRace} {a : RaceAction} {r : RenditionId} {path : Text} {n : ℕ}

/-- The stored media playlists are the latest of the writes stored so far. -/
structure Tracks (env : PackagerEnv) (input : List (EncodedSegment × DateTime))
    (s : CleanupRace) : Prop where
  playlistPath : ∀ key, streamPrefix env.streamId <+: key → isMediaPlaylist key = true →
    (s.store.lookup key).isSome →
      ∃ r : RenditionId, key = mediaPlaylistPath env.streamId.toText r.asStr
  latest : ∀ r : RenditionId,
    (s.store.lookup (mediaPlaylistPath env.streamId.toText r.asStr)).map
        (fun object => fromUtf8Lossy object.data) =
      ((playlistsOf env r ((packagerTrace env input).take s.applied)).getLast?).map playlistText

theorem tracks_start {store : MediaStore}
    (hempty : ∀ path, streamPrefix env.streamId <+: path → store.lookup path = none)
    (clock : DateTime) : Tracks env input (.start store clock) where
  playlistPath := by
    intro key hkey _ hstored
    rw [show (CleanupRace.start store clock).store = store from rfl, hempty key hkey] at hstored
    exact absurd hstored (by simp)
  latest := by
    intro r
    rw [show (CleanupRace.start store clock).store = store from rfl,
      hempty _ (streamPrefix_mediaPlaylistPath _ _)]
    rfl

theorem Tracks.congr (h : Tracks env input s) (hstore : s'.store = s.store)
    (happlied : s'.applied = s.applied) : Tracks env input s' where
  playlistPath := by
    rw [hstore]
    exact h.playlistPath
  latest := by
    rw [hstore, happlied]
    exact h.latest

/-- Of what the packager writes, only the media playlists look like one. -/
theorem exists_rendition_of_isMediaPlaylist {w : StorageWrite} (hw : w ∈ packagerTrace env input)
    (hplaylist : isMediaPlaylist w.path = true) :
    ∃ r : RenditionId, w.path = mediaPlaylistPath env.streamId.toText r.asStr := by
  have hending : ∀ ending : Text, ending.length = 8 → ending <:+ w.path →
      ending <:+ "media.m3u8".toList := by
    intro ending hlen hsuffix
    refine List.suffix_of_suffix_length_le hsuffix (List.isSuffixOf_iff_suffix.mp hplaylist) ?_
    rw [hlen]
    decide
  rcases path_of_mem_packagerTrace hw with hpath | ⟨r, hpath | ⟨n, hpath⟩ | hpath⟩
  · refine absurd (hending "ter.m3u8".toList rfl ?_) (by decide)
    rw [hpath]
    exact ⟨env.streamId.toText ++ "/mas".toList, by simp [masterPlaylistPath]⟩
  · refine absurd (hending "init.mp4".toList rfl ?_) (by decide)
    rw [hpath, initSegmentPath_eq]
    exact List.suffix_append _ _
  · rw [hpath, isMediaPlaylist_segmentPath] at hplaylist
    exact absurd hplaylist (by decide)
  · exact ⟨r, hpath⟩

theorem Tracks.write (h : Tracks env input s) {w : StorageWrite}
    (hw : (packagerTrace env input)[s.applied]? = some w) :
    Tracks env input
      { s with store := putWrite s.store w s.clock, applied := s.applied + 1 } where
  playlistPath := by
    intro key hkey hplaylist hstored
    by_cases hpath : key = w.path
    · subst hpath
      exact exists_rendition_of_isMediaPlaylist (List.mem_of_getElem? hw) hplaylist
    · refine h.playlistPath key hkey hplaylist ?_
      rwa [lookup_putWrite_ne s.store s.clock hpath] at hstored
  latest := by
    intro r
    have htake : (packagerTrace env input).take (s.applied + 1) =
        (packagerTrace env input).take s.applied ++ [w] := by
      rw [List.take_add_one, hw]
      rfl
    dsimp only
    rw [htake, playlistsOf_append]
    by_cases hpath : mediaPlaylistPath env.streamId.toText r.asStr = w.path
    · -- The playlist just stored is the latest.
      have hown : playlistsOf env r [w] = [w] := List.filter_cons_of_pos (by simp [hpath])
      have hmanifest : isManifest w.path = true := hpath ▸ isManifest_mediaPlaylistPath _ _
      rw [hown, hpath, lookup_putWrite_self, List.getLast?_concat, Option.map_some,
        Option.map_some, fromUtf8Lossy_storedObject hmanifest]
    · have hother : playlistsOf env r [w] = [] :=
        List.filter_cons_of_neg (by simpa using Ne.symm hpath)
      rw [hother, List.append_nil, lookup_putWrite_ne s.store s.clock hpath]
      exact h.latest r

theorem Tracks.delete (h : Tracks env input s) {key : Text} (hkey : isSegmentFile key = true)
    (deleted : List Text) :
    Tracks env input { s with store := s.store.deleteObject key, deleted := deleted } where
  playlistPath := by
    intro key' hkey' hplaylist hstored
    obtain ⟨object, hobject⟩ := Option.isSome_iff_exists.mp hstored
    refine h.playlistPath key' hkey' hplaylist (Option.isSome_iff_exists.mpr ⟨object, ?_⟩)
    exact lookup_of_lookup_deleteObject hobject
  latest := by
    intro r
    have hsuffix := List.isSuffixOf_iff_suffix.mp (Bool.and_eq_true_iff.mp hkey).1
    have hne : mediaPlaylistPath env.streamId.toText r.asStr ≠ key := by
      rintro rfl
      have hplaylist := isMediaPlaylist_mediaPlaylistPath env.streamId.toText r.asStr
      rw [isMediaPlaylist_of_m4s hsuffix] at hplaylist
      exact absurd hplaylist (by decide)
    dsimp only
    rw [show (s.store.deleteObject key).lookup (mediaPlaylistPath env.streamId.toText r.asStr) =
      s.store.lookup (mediaPlaylistPath env.streamId.toText r.asStr) from AList.lookup_erase_ne hne]
    exact h.latest r

theorem Tracks.step (h : Tracks env input s) (hstep : raceStep env input config s a = some s') :
    Tracks env input s' := by
  rcases raceStep_cases hstep with ⟨now, -, rfl⟩ | ⟨w, hw, rfl⟩ | hcycle
  · exact h.congr rfl rfl
  · exact h.write hw
  · cases hcycle with
    | started | panicked | listed | read | finished => exact h.congr rfl rfl
    | decided =>
      rename_i cycle info undecided _ _ _
      have hdecide : Tracks env input (decideObject s cycle info) := by
        unfold decideObject
        split
        · rename_i hun
          have hsegment := (Bool.and_eq_true_iff.mp (Bool.and_eq_true_iff.mp hun).1).1
          exact h.delete hsegment _
        · exact h
      exact hdecide.congr rfl rfl

/-- What a stored playlist names are the segments its rendition's latest playlist lists. -/
theorem Tracks.mem_referencedIn (h : Tracks env input s) {object : StoredObject}
    (hlookup : s.store.lookup (mediaPlaylistPath env.streamId.toText r.asStr) = some object) :
    path ∈ referencedIn (mediaPlaylistPath env.streamId.toText r.asStr) object.data ↔
      ∃ n, ListsSegment env input s.applied r n ∧
        path = segmentPath env.streamId.toText r.asStr n := by
  have hlatest := h.latest r
  rw [hlookup, Option.map_some] at hlatest
  obtain ⟨w, hlast, htext⟩ := Option.map_eq_some_iff.mp hlatest.symm
  obtain ⟨index, isFinished, rfl, hlists⟩ := exists_index_of_getLast? hlast
  have hbody : referencedIn (mediaPlaylistPath env.streamId.toText r.asStr) object.data =
      index.segments.map fun entry => segmentPath env.streamId.toText r.asStr entry.sequence := by
    rw [← referencedIn_generatePlaylist _ _ _ env.config.hlsVersion env.isVod isFinished,
      referencedIn, ← htext, playlistText_playlistWrite, referencedIn, fromUtf8Lossy_encodeUtf8]
  rw [hbody, List.mem_map]
  constructor
  · rintro ⟨entry, hentry, rfl⟩
    exact ⟨entry.sequence, (hlists _).mp ⟨entry, hentry, rfl⟩, rfl⟩
  · rintro ⟨n, hn, rfl⟩
    obtain ⟨entry, hentry, rfl⟩ := (hlists n).mpr hn
    exact ⟨entry, hentry, rfl⟩

/-- A rendition that has written a playlist has it stored. -/
theorem Tracks.exists_playlist (h : Tracks env input s)
    (hcount : 0 < playlistCount env input r s.applied) :
    ∃ object, s.store.lookup (mediaPlaylistPath env.streamId.toText r.asStr) = some object := by
  have hne : playlistsOf env r ((packagerTrace env input).take s.applied) ≠ [] :=
    List.ne_nil_of_length_pos hcount
  have hlatest := h.latest r
  rw [List.getLast?_eq_some_getLast hne, Option.map_some] at hlatest
  obtain ⟨object, hobject, -⟩ := Option.map_eq_some_iff.mp hlatest
  exact ⟨object, hobject⟩

/-- What the stored playlists refer to are the segments listed by the latest playlists. -/
theorem Tracks.referenced_iff (h : Tracks env input s) :
    Referenced s.store env.streamId path ↔
      ∃ r n, ListsSegment env input s.applied r n ∧
        path = segmentPath env.streamId.toText (RenditionId.asStr r) n := by
  constructor
  · rintro ⟨key, object, hkey, hplaylist, hlookup, hmem⟩
    obtain ⟨r, rfl⟩ := h.playlistPath key hkey hplaylist (by simp [hlookup])
    exact ⟨r, (h.mem_referencedIn hlookup).mp hmem⟩
  · rintro ⟨r, n, hn, hpath⟩
    obtain ⟨object, hlookup⟩ := h.exists_playlist (Nat.zero_lt_of_lt hn.2)
    exact ⟨_, object, streamPrefix_mediaPlaylistPath _ _, isMediaPlaylist_mediaPlaylistPath _ _,
      hlookup, (h.mem_referencedIn hlookup).mpr ⟨n, hn, hpath⟩⟩

end Tracking

/-! ### The invariant of a cycle -/

/-- A playlist among the first `k` writes listed the path when it was the latest. -/
def WasListed (env : PackagerEnv) (input : List (EncodedSegment × DateTime)) (k : ℕ)
    (path : Text) : Prop :=
  ∃ k' ≤ k, ∃ (r : RenditionId) (n : ℕ), ListsSegment env input k' r n ∧
    path = segmentPath env.streamId.toText r.asStr n

/-- From the first `k` writes on, no latest playlist lists the path. -/
def NeverAgain (env : PackagerEnv) (input : List (EncodedSegment × DateTime)) (k : ℕ)
    (path : Text) : Prop :=
  ∀ k' ≥ k, ∀ (r : RenditionId) (n : ℕ), ListsSegment env input k' r n →
    path ≠ segmentPath env.streamId.toText r.asStr n

section Cycle

variable {env : PackagerEnv} {input : List (EncodedSegment × DateTime)} {config : RetentionConfig}
  {s s' : CleanupRace} {a : RaceAction} {r : RenditionId} {path : Text} {n k k' : ℕ}

theorem WasListed.mono (h : WasListed env input k path) (hk : k ≤ k') :
    WasListed env input k' path := by
  obtain ⟨k₀, hk₀, hlisted⟩ := h
  exact ⟨k₀, hk₀.trans hk, hlisted⟩

theorem NeverAgain.mono (h : NeverAgain env input k path) (hk : k ≤ k') :
    NeverAgain env input k' path :=
  fun k'' hk'' => h k'' (hk.trans hk'')

/-- The window has passed a segment that was listed and is not. -/
theorem neverAgain_of_not_listsSegment (hbefore : ListsSegment env input k r n) (hk : k ≤ k')
    (hnow : ¬ ListsSegment env input k' r n) :
    NeverAgain env input k' (segmentPath env.streamId.toText r.asStr n) := by
  intro k'' hk'' r' n' hlists hpath
  obtain ⟨-, rfl, rfl⟩ := segmentPath_injective hpath
  exact hbefore.not_again hk hnow hk'' hlists

/-- The segments stored for longer than the retention have been listed. -/
def InTime (env : PackagerEnv) (input : List (EncodedSegment × DateTime))
    (config : RetentionConfig) (s : CleanupRace) : Prop :=
  ∀ path object, streamPrefix env.streamId <+: path → ".m4s".toList <:+ path →
    s.store.lookup path = some object →
    config.nanos < s.clock.nanos - object.createdAt.nanos → WasListed env input s.applied path

/-- What a cycle may delete is not needed: it is among the references read, its window has
passed, or it has been listed by a playlist that is still to be read. -/
structure CycleSound (env : PackagerEnv) (input : List (EncodedSegment × DateTime))
    (config : RetentionConfig) (s : CleanupRace) : Prop where
  deleted : ∀ path ∈ s.deleted, NeverAgain env input s.applied path
  started : ∀ now, s.phase = .started now → now.nanos ≤ s.clock.nanos ∧
    ∀ path object, streamPrefix env.streamId <+: path → ".m4s".toList <:+ path →
      s.store.lookup path = some object →
      config.nanos < now.nanos - object.createdAt.nanos → WasListed env input s.applied path
  working : ∀ cycle, s.phase = .working cycle → ∀ info ∈ cycle.undecided,
    isSegmentFile info.key = true →
    olderThan cycle.retention cycle.now info.lastModified = true →
    info.key ∈ cycle.referenced ∨ NeverAgain env input s.applied info.key ∨
      ∃ (r : RenditionId) (n : ℕ), (∃ k ≤ s.applied, ListsSegment env input k r n) ∧
        info.key = segmentPath env.streamId.toText r.asStr n ∧
        mediaPlaylistPath env.streamId.toText r.asStr ∈ cycle.unread.map (·.key)

theorem cycleSound_start (store : MediaStore) (clock : DateTime) :
    CycleSound env input config (.start store clock) where
  deleted := fun _ hmem => absurd hmem List.not_mem_nil
  started := fun _ hphase => absurd hphase (by simp [CleanupRace.start])
  working := fun _ hphase => absurd hphase (by simp [CleanupRace.start])

theorem m4s_of_isSegmentFile {key : Text} (h : isSegmentFile key = true) :
    ".m4s".toList <:+ key :=
  List.isSuffixOf_iff_suffix.mp (Bool.and_eq_true_iff.mp h).1

theorem CycleSound.tick (h : CycleSound env input config s) {now : DateTime}
    (hclock : s.clock.nanos ≤ now.nanos) : CycleSound env input config { s with clock := now } where
  deleted := h.deleted
  started := fun began hphase =>
    ⟨(h.started began hphase).1.trans hclock, (h.started began hphase).2⟩
  working := h.working

theorem CycleSound.write (h : CycleSound env input config s) (w : StorageWrite) :
    CycleSound env input config
      { s with store := putWrite s.store w s.clock, applied := s.applied + 1 } where
  deleted := fun path hmem => (h.deleted path hmem).mono (Nat.le_succ _)
  started := by
    intro now hphase
    obtain ⟨hclock, hold⟩ := h.started now hphase
    refine ⟨hclock, fun path object hpath hsuffix hlookup hage => ?_⟩
    dsimp only at hlookup
    by_cases heq : path = w.path
    · -- What is stored now is younger than the cycle.
      subst heq
      rw [lookup_putWrite_self] at hlookup
      rw [← Option.some.inj hlookup, createdAt_storedObject] at hage
      have hnanos : 0 ≤ config.nanos := by
        unfold RetentionConfig.nanos
        omega
      omega
    · rw [lookup_putWrite_ne s.store s.clock heq] at hlookup
      exact (hold path object hpath hsuffix hlookup hage).mono (Nat.le_succ _)
  working := by
    intro cycle hphase info hinfo hsegment hold
    rcases h.working cycle hphase info hinfo hsegment hold with href | hnever | hunread
    · exact Or.inl href
    · exact Or.inr (Or.inl (hnever.mono (Nat.le_succ _)))
    · obtain ⟨r, n, ⟨k, hk, hlists⟩, hrest⟩ := hunread
      exact Or.inr (Or.inr ⟨r, n, ⟨k, Nat.le_succ_of_le hk, hlists⟩, hrest⟩)

/-- A cycle begins when every segment older than the retention has been listed. -/
theorem CycleSound.begin (h : CycleSound env input config s) (htime : InTime env input config s) :
    CycleSound env input config { s with phase := .started s.clock } where
  deleted := h.deleted
  started := by
    intro now hphase
    obtain rfl : s.clock = now := CleanupPhase.started.inj hphase
    exact ⟨le_rfl, htime⟩
  working := fun cycle hphase => absurd hphase (by simp)

theorem CycleSound.list (h : CycleSound env input config s) (htracks : Tracks env input s)
    {now : DateTime} {retention : ℤ} (hphase : s.phase = .started now)
    (hretention : config.retention = some retention) :
    CycleSound env input config
      { s with
        phase := .working ⟨now, retention, s.store.listObjects (streamPrefix env.streamId), [],
          s.store.listObjects (streamPrefix env.streamId)⟩ } where
  deleted := h.deleted
  started := fun _ hphase' => absurd hphase' (by simp)
  working := by
    intro cycle hcycle info hinfo hsegment hold
    obtain rfl := CleanupPhase.working.inj hcycle
    obtain ⟨hpath, object, hlookup, hobject⟩ := mem_listObjects.mp hinfo
    have hnanos : retention = config.nanos := by
      rw [retention_eq] at hretention
      split at hretention
      · exact (Option.some.inj hretention).symm
      · exact absurd hretention (by simp)
    have hage : config.nanos < now.nanos - object.createdAt.nanos := by
      have hdecided : retention < now.nanos - info.lastModified.nanos := of_decide_eq_true hold
      rw [hobject, hnanos] at hdecided
      exact hdecided
    obtain ⟨k, hk, r, n, hlists, hkey⟩ := (h.started now hphase).2 info.key object hpath
      (m4s_of_isSegmentFile hsegment) hlookup hage
    -- Its playlist has been stored since, so it is listed too.
    obtain ⟨playlist, hplaylist⟩ := htracks.exists_playlist (r := r)
      ((Nat.zero_lt_of_lt hlists.2).trans_le (playlistCount_mono hk))
    refine Or.inr (Or.inr ⟨r, n, ⟨k, hk, hlists⟩, hkey, List.mem_map.mpr
      ⟨objectInfo (mediaPlaylistPath env.streamId.toText r.asStr) playlist, ?_, rfl⟩⟩)
    exact mem_listObjects.mpr ⟨streamPrefix_mediaPlaylistPath _ _, playlist, hplaylist, rfl⟩

theorem mem_referencedSegments_singleton {store : MediaStore} {info : ObjectInfo}
    {object : StoredObject} (hplaylist : isMediaPlaylist info.key = true)
    (hlookup : store.lookup info.key = some object) :
    path ∈ referencedSegments noFaults store [info] ↔ path ∈ referencedIn info.key object.data := by
  simp [referencedSegments, hplaylist, tryGetObject, noFaults, MediaStore.getObject, objectOutput,
    hlookup]

theorem CycleSound.read (h : CycleSound env input config s) (htracks : Tracks env input s)
    {cycle : SegmentCleanup} {info : ObjectInfo} {unread : List ObjectInfo}
    (hphase : s.phase = .working cycle) (hunread : cycle.unread = info :: unread) :
    CycleSound env input config
      { s with
        phase := .working
          { cycle with
            unread := unread
            referenced := cycle.referenced ++ referencedSegments noFaults s.store [info] } } where
  deleted := h.deleted
  started := fun _ hphase' => absurd hphase' (by simp)
  working := by
    intro cycle' hcycle info' hinfo hsegment hold
    obtain rfl := CleanupPhase.working.inj hcycle
    rcases h.working cycle hphase info' hinfo hsegment hold with href | hnever | hlater
    · exact Or.inl (List.mem_append_left _ href)
    · exact Or.inr (Or.inl hnever)
    · obtain ⟨r, n, ⟨k, hk, hlists⟩, hkey, hmem⟩ := hlater
      rw [hunread, List.map_cons, List.mem_cons] at hmem
      rcases hmem with hread | hmem
      · -- The playlist read now shows the segment, or its window has passed.
        obtain ⟨playlist, hplaylist⟩ := htracks.exists_playlist (r := r)
          ((Nat.zero_lt_of_lt hlists.2).trans_le (playlistCount_mono hk))
        by_cases hnow : ListsSegment env input s.applied r n
        · refine Or.inl (List.mem_append_right _ ?_)
          have hkind : isMediaPlaylist info.key = true :=
            hread ▸ isMediaPlaylist_mediaPlaylistPath _ _
          rw [hread] at hplaylist
          rw [mem_referencedSegments_singleton hkind hplaylist, ← hread,
            htracks.mem_referencedIn (hread ▸ hplaylist)]
          exact ⟨n, hnow, hkey⟩
        · rw [hkey]
          exact Or.inr (Or.inl (neverAgain_of_not_listsSegment hlists hk hnow))
      · exact Or.inr (Or.inr ⟨r, n, ⟨k, hk, hlists⟩, hkey, hmem⟩)

/-- What is deleted after the last read has its window behind it. -/
theorem CycleSound.decide (h : CycleSound env input config s) {cycle : SegmentCleanup}
    {info : ObjectInfo} {undecided : List ObjectInfo} (hphase : s.phase = .working cycle)
    (hunread : cycle.unread = []) (hundecided : cycle.undecided = info :: undecided) :
    CycleSound env input config
      { decideObject s cycle info with
        phase := .working { cycle with undecided := undecided } } := by
  have happlied : (decideObject s cycle info).applied = s.applied := by
    unfold decideObject
    split <;> rfl
  refine ⟨fun path hmem => ?_, fun _ hphase' => absurd hphase' (by simp), ?_⟩
  · dsimp only at hmem ⊢
    rw [happlied]
    unfold decideObject at hmem
    split at hmem
    · rename_i hun
      rcases List.mem_append.mp hmem with hmem | hmem
      · exact h.deleted path hmem
      · obtain rfl := List.mem_singleton.mp hmem
        simp only [isUnneeded, Bool.and_eq_true, Bool.not_eq_true', List.contains_eq_mem,
          decide_eq_false_iff_not] at hun
        obtain ⟨⟨hsegment, hold⟩, hnotref⟩ := hun
        have hinfo : info ∈ cycle.undecided := hundecided ▸ List.mem_cons_self
        rcases h.working cycle hphase info hinfo hsegment hold with href | hnever | hlater
        · exact absurd href hnotref
        · exact hnever
        · obtain ⟨_, _, _, _, hmem'⟩ := hlater
          rw [hunread] at hmem'
          exact absurd hmem' List.not_mem_nil
    · exact h.deleted path hmem
  · intro cycle' hcycle info' hinfo hsegment hold
    obtain rfl := CleanupPhase.working.inj hcycle
    dsimp only
    rw [happlied]
    exact h.working cycle hphase info' (hundecided ▸ List.mem_cons_of_mem _ hinfo) hsegment hold

theorem CycleSound.step (h : CycleSound env input config s) (htracks : Tracks env input s)
    (htime : InTime env input config s) (hstep : raceStep env input config s a = some s') :
    CycleSound env input config s' := by
  rcases raceStep_cases hstep with ⟨now, hclock, rfl⟩ | ⟨w, -, rfl⟩ | hcycle
  · exact h.tick hclock
  · exact h.write w
  · cases hcycle with
    | started => exact h.begin htime
    | panicked =>
      exact ⟨h.deleted, fun _ hphase => absurd hphase (by simp),
        fun _ hphase => absurd hphase (by simp)⟩
    | listed hphase hretention => exact h.list htracks hphase hretention
    | read hphase hunread => exact h.read htracks hphase hunread
    | decided hphase hunread hundecided => exact h.decide hphase hunread hundecided
    | finished =>
      exact ⟨h.deleted, fun _ hphase => absurd hphase (by simp),
        fun _ hphase => absurd hphase (by simp)⟩

theorem applied_le_step (hstep : raceStep env input config s a = some s') :
    s.applied ≤ s'.applied := by
  rcases raceStep_cases hstep with ⟨now, -, rfl⟩ | ⟨w, -, rfl⟩ | hcycle
  · exact le_rfl
  · exact Nat.le_succ _
  · cases hcycle with
    | started | panicked | listed | read | finished => exact le_rfl
    | decided =>
      refine le_of_eq ?_
      dsimp only
      unfold decideObject
      split <;> rfl

end Cycle

/-! ### Runs -/

/-- Along the run, every segment stored for longer than the retention has been referenced
by a stored playlist at some moment before. -/
def ReferencedInTime (env : PackagerEnv) (input : List (EncodedSegment × DateTime))
    (config : RetentionConfig) (s : CleanupRace) (actions : List RaceAction) : Prop :=
  ∀ n t, run (raceStep env input config) s (actions.take n) = some t →
    ∀ path object, streamPrefix env.streamId <+: path → ".m4s".toList <:+ path →
      t.store.lookup path = some object →
      config.nanos < t.clock.nanos - object.createdAt.nanos →
      ∃ k ≤ n, ∃ u, run (raceStep env input config) s (actions.take k) = some u ∧
        Referenced u.store env.streamId path

/-- The cleanup of a live stream interleaved with its packager in any way: no segment that
a cycle has deleted is referenced by the stored media playlists, when it is deleted or at
any later moment. -/
theorem deleted_never_referenced (env : PackagerEnv) (input : List (EncodedSegment × DateTime))
    (config : RetentionConfig) (store : MediaStore)
    (hempty : ∀ path, streamPrefix env.streamId <+: path → store.lookup path = none)
    (clock : DateTime) (actions : List RaceAction)
    (htime : ReferencedInTime env input config (.start store clock) actions) (n : ℕ)
    (t : CleanupRace)
    (hrun : run (raceStep env input config) (.start store clock) (actions.take n) = some t) :
    ∀ path ∈ t.deleted, ¬ Referenced t.store env.streamId path := by
  have htracks : ∀ {m u}, run (raceStep env input config) (.start store clock) (actions.take m) =
      some u → Tracks env input u := fun hu =>
    run_invariant (fun _ _ _ hs hstep => hs.step hstep) (tracks_start hempty clock) hu
  -- A reference in an earlier state is a listing among the writes stored by now.
  have hintime : ∀ m u, run (raceStep env input config) (.start store clock) (actions.take m) =
      some u → InTime env input config u := by
    intro m u hu path object hpath hsuffix hlookup hage
    obtain ⟨k, hk, v, hv, href⟩ := htime m u hu path object hpath hsuffix hlookup hage
    obtain ⟨r, i, hlists, hpath'⟩ := (htracks hv).referenced_iff.mp href
    have hsplit : actions.take m = actions.take k ++ (actions.take m).drop k := by
      conv_lhs => rw [← List.take_append_drop k (actions.take m)]
      rw [List.take_take, Nat.min_eq_left hk]
    rw [hsplit, run_append hv] at hu
    have hle : v.applied ≤ u.applied :=
      run_invariant (I := fun s => v.applied ≤ s.applied)
        (fun _ _ _ hs hstep => hs.trans (applied_le_step hstep)) le_rfl hu
    exact ⟨v.applied, hle, r, i, hlists, hpath'⟩
  have hmeets : Meets (raceStep env input config) (fun s _ => InTime env input config s)
      (.start store clock) (actions.take n) := (meets_of_reached hintime).take n
  have hsound : Tracks env input t ∧ CycleSound env input config t := by
    refine run_invariant_of_meets
      (I := fun s => Tracks env input s ∧ CycleSound env input config s)
      (fun s a s' hs hok hstep => ?_) ?_ hmeets hrun
    · exact ⟨hs.1.step hstep, hs.2.step hs.1 hok hstep⟩
    · exact ⟨tracks_start hempty clock, cycleSound_start store clock⟩
  intro path hmem href
  obtain ⟨r, i, hlists, hpath⟩ := hsound.1.referenced_iff.mp href
  exact hsound.2.deleted path hmem _ le_rfl r i hlists hpath

/-! ### A cycle that nothing interrupts -/

section Alone

variable (env : PackagerEnv) (input : List (EncodedSegment × DateTime)) (config : RetentionConfig)
  {s : CleanupRace} {now : DateTime} {retention : ℤ} {unread undecided : List ObjectInfo}
  {referenced : List Text}

theorem referencedSegments_cons (faults : StoreFaults) (store : MediaStore) (info : ObjectInfo)
    (infos : List ObjectInfo) :
    referencedSegments faults store (info :: infos) =
      referencedSegments faults store [info] ++ referencedSegments faults store infos := by
  rw [← List.singleton_append]
  simp only [referencedSegments, List.filter_append, List.flatMap_append]

/-- The reads collect what `referencedSegments` does. -/
theorem run_reads
    (hphase : s.phase = .working ⟨now, retention, unread, referenced, undecided⟩) :
    run (raceStep env input config) s (List.replicate unread.length .cleanup) =
      some
        { s with
          phase := .working ⟨now, retention, [],
            referenced ++ referencedSegments noFaults s.store unread, undecided⟩ } := by
  induction unread generalizing s referenced with
  | nil =>
    obtain ⟨store, clock, applied, phase, deleted⟩ := s
    obtain rfl : phase = _ := hphase
    simp [referencedSegments]
  | cons info unread ih =>
    have hstep : raceStep env input config s .cleanup =
        some
          { s with
            phase := .working ⟨now, retention, unread,
              referenced ++ referencedSegments noFaults s.store [info], undecided⟩ } := by
      rw [raceStep, cycleStep, hphase]
    rw [List.length_cons, List.replicate_succ, run_cons_of_step hstep, ih rfl,
      referencedSegments_cons _ _ info unread, List.append_assoc]

/-- The delete loop deletes what the filter keeps. -/
theorem run_decides (hphase : s.phase = .working ⟨now, retention, [], referenced, undecided⟩) :
    run (raceStep env input config) s (List.replicate undecided.length .cleanup) =
      some
        { s with
          store := (undecided.filter (isUnneeded retention now referenced)).foldl
            (tryDeleteObject noFaults) s.store
          deleted := s.deleted ++
            (undecided.filter (isUnneeded retention now referenced)).map (·.key)
          phase := .working ⟨now, retention, [], referenced, []⟩ } := by
  induction undecided generalizing s with
  | nil =>
    obtain ⟨store, clock, applied, phase, deleted⟩ := s
    obtain rfl : phase = _ := hphase
    simp
  | cons info undecided ih =>
    have hstep : raceStep env input config s .cleanup =
        some
          { decideObject s ⟨now, retention, [], referenced, info :: undecided⟩ info with
            phase := .working ⟨now, retention, [], referenced, undecided⟩ } := by
      rw [raceStep, cycleStep, hphase]
    rw [List.length_cons, List.replicate_succ, run_cons_of_step hstep, ih rfl]
    unfold decideObject
    by_cases hun : isUnneeded retention now referenced info = true
    · simp [hun, tryDeleteObject, noFaults]
    · simp [hun]

/-- Without a write in between, the calls of a cycle do what phase 1 does in one go, and
log what it deletes. -/
theorem run_cycle_alone (hphase : s.phase = .started now) :
    ∃ n t, run (raceStep env input config) s (List.replicate n .cleanup) = some t ∧
      t.store = storeAfter (cleanupLiveStream config now noFaults s.store env.streamId) ∧
      ∀ path, streamPrefix env.streamId <+: path →
        Deletes config now noFaults s.store env.streamId path → path ∈ t.deleted := by
  cases hretention : config.retention with
  | none =>
    refine ⟨1, { s with phase := .panicked }, ?_, ?_, ?_⟩
    · simp [run_cons, raceStep, cycleStep, hphase, hretention]
    · simp [cleanupLiveStream, noFaults, hretention, storeAfter]
    · intro path _ hdeletes
      obtain ⟨_, _, _, hsome, _⟩ := hdeletes.expired
      exact absurd (hretention.symm.trans hsome) (by simp)
  | some retention =>
    set objects := s.store.listObjects (streamPrefix env.streamId) with hobjects
    have hlist : raceStep env input config s .cleanup =
        some { s with phase := .working ⟨now, retention, objects, [], objects⟩ } := by
      simp only [raceStep, cycleStep, hphase, hretention]
      rfl
    have hreads := run_reads env input config
      (s := { s with phase := .working ⟨now, retention, objects, [], objects⟩ }) rfl
    rw [List.nil_append] at hreads
    have hdecides := run_decides env input config
      (s := { s with phase := .working ⟨now, retention, [],
        referencedSegments noFaults s.store objects, objects⟩ }) rfl
    have hsplit : List.replicate (1 + objects.length + objects.length) RaceAction.cleanup =
        .cleanup :: (List.replicate objects.length .cleanup ++
          List.replicate objects.length .cleanup) := by
      rw [List.replicate_append_replicate, ← List.replicate_succ]
      congr 1
      omega
    have hrun := (run_cons_of_step hlist _).trans ((run_append hreads _).trans hdecides)
    rw [← hsplit] at hrun
    refine ⟨_, _, hrun, ?_, ?_⟩
    · simp only [cleanupLiveStream, noFaults, hretention, storeAfter, Bool.false_eq_true, if_false]
      rfl
    · intro path hpath hdeletes
      obtain ⟨object, retention', hlookup, hretention', hold⟩ := hdeletes.expired
      obtain rfl := Option.some.inj (hretention.symm.trans hretention')
      refine List.mem_append_right _ ((mem_unneeded retention).mpr ?_)
      exact ⟨hpath, hdeletes.segment, ⟨object, hlookup, hold⟩, hdeletes.unreferenced⟩

end Alone

/-! ### A window of one segment -/

section Sample

/-- A live stream with a window of one segment. -/
def narrowEnv : PackagerEnv where
  streamId := ⟨1⟩
  config := { liveWindowSegments := 1, hlsVersion := 7 }
  isVod := false

def twoSegments : List (EncodedSegment × DateTime) :=
  [(sampleSegment .low 0 false, ⟨0⟩), (sampleSegment .low 1 false, ⟨0⟩)]

def narrowPath (n : ℕ) : Text := segmentPath narrowEnv.streamId.toText RenditionId.low.asStr n

def narrowStep : CleanupRace → RaceAction → Option CleanupRace :=
  raceStep narrowEnv twoSegments oneHour

/-- Six writes, two hours, then cycles. -/
def narrowRun (n : ℕ) : List RaceAction :=
  List.replicate 6 .write ++ .tick twoHoursLater :: List.replicate n .cleanup

theorem narrow_paths : (packagerTrace narrowEnv twoSegments).map (·.path) =
    [initSegmentPath narrowEnv.streamId.toText RenditionId.low.asStr,
      masterPlaylistPath narrowEnv.streamId.toText, narrowPath 0,
      mediaPlaylistPath narrowEnv.streamId.toText RenditionId.low.asStr, narrowPath 1,
      mediaPlaylistPath narrowEnv.streamId.toText RenditionId.low.asStr,
      masterPlaylistPath narrowEnv.streamId.toText] := by
  decide +kernel

/-- Everything stored for the stream was written by the packager, at time zero. -/
def WrittenAtZero (s : CleanupRace) : Prop :=
  ∀ path object, streamPrefix narrowEnv.streamId <+: path → s.store.lookup path = some object →
    object.createdAt = ⟨0⟩ ∧ path ∈ (packagerTrace narrowEnv twoSegments).map (·.path)

/-- The first writes: they are stored, and time stands still. -/
theorem run_narrow_writes {n : ℕ} (hn : n ≤ 7) :
    ∃ t, run narrowStep (.start ∅ ⟨0⟩) (List.replicate n .write) = some t ∧
      t.clock = ⟨0⟩ ∧ t.applied = n ∧ t.phase = .idle ∧ WrittenAtZero t ∧
      ∀ path ∈ ((packagerTrace narrowEnv twoSegments).map (·.path)).take n,
        (t.store.lookup path).isSome := by
  induction n with
  | zero =>
    refine ⟨_, rfl, rfl, rfl, rfl, ?_, fun path hmem => absurd hmem List.not_mem_nil⟩
    exact fun path object _ hlookup => absurd hlookup (by simp [CleanupRace.start])
  | succ n ih =>
    obtain ⟨t, hrun, hclock, happlied, hphase, hwritten, hstored⟩ := ih (by omega)
    have hlen : n < (packagerTrace narrowEnv twoSegments).length := by
      have hlen := congrArg List.length narrow_paths
      rw [List.length_map] at hlen
      rw [hlen]
      exact hn
    obtain ⟨w, hw⟩ : ∃ w, (packagerTrace narrowEnv twoSegments)[n]? = some w :=
      ⟨_, List.getElem?_eq_getElem hlen⟩
    have hstep : narrowStep t .write =
        some { t with store := putWrite t.store w t.clock, applied := t.applied + 1 } := by
      rw [narrowStep, raceStep, happlied, hw, Option.map_some]
    have hrun' : run narrowStep (.start ∅ ⟨0⟩) (List.replicate (n + 1) .write) =
        some { t with store := putWrite t.store w t.clock, applied := t.applied + 1 } := by
      rw [List.replicate_succ', run_append hrun, run_cons_of_step hstep, run_nil]
    refine ⟨_, hrun', hclock, congrArg (· + 1) happlied, hphase, ?_, ?_⟩
    · intro path object hpath hlookup
      dsimp only at hlookup
      by_cases heq : path = w.path
      · subst heq
        rw [lookup_putWrite_self] at hlookup
        refine ⟨?_, List.mem_map.mpr ⟨w, List.mem_of_getElem? hw, rfl⟩⟩
        rw [← Option.some.inj hlookup, createdAt_storedObject, hclock]
      · rw [lookup_putWrite_ne _ _ heq] at hlookup
        exact hwritten path object hpath hlookup
    · intro path hmem
      rw [← List.map_take, List.take_add_one, hw, List.map_append] at hmem
      rcases List.mem_append.mp hmem with hmem | hmem
      · exact isSome_lookup_putWrite w _ (hstored path (List.map_take ▸ hmem))
      · obtain rfl := List.mem_singleton.mp hmem
        exact Option.isSome_iff_exists.mpr ⟨_, lookup_putWrite_self _ _ _⟩

/-- Time and the cycles store nothing. -/
theorem WrittenAtZero.step {s s' : CleanupRace} {a : RaceAction} (h : WrittenAtZero s)
    (ha : a ≠ .write) (hstep : narrowStep s a = some s') : WrittenAtZero s' := by
  cases a with
  | write => exact absurd rfl ha
  | tick now =>
    simp only [narrowStep, raceStep, Option.ite_none_right_eq_some, Option.some.injEq] at hstep
    exact hstep.2 ▸ h
  | cleanup =>
    have houtcome : CycleOutcome oneHour narrowEnv.streamId s s' := cycleStep_outcome hstep
    cases houtcome with
    | started | panicked | listed | read | finished => exact h
    | decided =>
      intro path object hpath hlookup
      dsimp only at hlookup
      unfold decideObject at hlookup
      split at hlookup
      · exact h path object hpath (lookup_of_lookup_deleteObject hlookup)
      · exact h path object hpath hlookup

/-- Each of the two segments is listed by the playlist written after it. -/
theorem referenced_narrowPath {k n : ℕ} (hk : k ≤ 7)
    (hlists : ListsSegment narrowEnv twoSegments k .low n) :
    ∃ u, run narrowStep (.start ∅ ⟨0⟩) (List.replicate k .write) = some u ∧
      Referenced u.store narrowEnv.streamId (narrowPath n) := by
  obtain ⟨u, hrun, -, happlied, -⟩ := run_narrow_writes hk
  have htracks : Tracks narrowEnv twoSegments u :=
    run_invariant (fun _ _ _ hs hstep => hs.step hstep) (tracks_start (fun _ _ => rfl) ⟨0⟩) hrun
  refine ⟨u, hrun, htracks.referenced_iff.mpr ⟨.low, n, ?_, rfl⟩⟩
  rwa [happlied]

theorem listsSegment_zero : ListsSegment narrowEnv twoSegments 4 .low 0 := by
  unfold ListsSegment
  decide +kernel

theorem listsSegment_one : ListsSegment narrowEnv twoSegments 6 .low 1 := by
  unfold ListsSegment
  decide +kernel

theorem not_listsSegment_zero : ¬ ListsSegment narrowEnv twoSegments 6 .low 0 := by
  unfold ListsSegment
  decide +kernel

theorem referencedInTime_narrow (m : ℕ) :
    ReferencedInTime narrowEnv twoSegments oneHour (.start ∅ ⟨0⟩) (narrowRun m) := by
  intro n t hrun path object hpath hsuffix hlookup hage
  have hearlier : ∀ k ≤ 6, (narrowRun m).take k = List.replicate k .write := by
    intro k hk
    rw [narrowRun, List.take_append_of_le_length (by simpa using hk), List.take_replicate,
      Nat.min_eq_left hk]
  by_cases hn : n ≤ 6
  · -- Until the clock is set, nothing is older than zero.
    obtain ⟨u, hu, hclock, -, -, hwritten, -⟩ := run_narrow_writes (n := n) (by omega)
    rw [hearlier n hn] at hrun
    obtain rfl := Option.some.inj (hu.symm.trans hrun)
    rw [hclock, (hwritten path object hpath hlookup).1] at hage
    exact absurd hage (by decide)
  · obtain ⟨u, hu, -, -, -, hwritten, -⟩ := run_narrow_writes (n := 6) (by decide)
    have htake : (narrowRun m).take n = List.replicate 6 .write ++
        (RaceAction.tick twoHoursLater :: List.replicate m .cleanup).take (n - 6) := by
      rw [narrowRun, List.take_append, List.take_of_length_le (by simp; omega)]
      rfl
    rw [htake] at hrun
    have hrest : run narrowStep u
        ((RaceAction.tick twoHoursLater :: List.replicate m .cleanup).take (n - 6)) = some t :=
      (run_append hu _).symm.trans hrun
    have hquiet : ∀ a ∈ (RaceAction.tick twoHoursLater :: List.replicate m .cleanup).take (n - 6),
        a ≠ .write := by
      intro a ha
      rcases List.mem_cons.mp (List.mem_of_mem_take ha) with rfl | ha
      · exact RaceAction.noConfusion
      · rw [List.eq_of_mem_replicate ha]
        exact RaceAction.noConfusion
    have hwritten' : WrittenAtZero t :=
      run_invariant_of_meets (fun _ _ _ hs ha hstep => hs.step ha hstep) hwritten
        (meets_of_forall fun a ha _ => hquiet a ha) hrest
    have hmem := (hwritten' path object hpath hlookup).2
    simp only [narrow_paths, List.mem_cons, List.not_mem_nil, or_false] at hmem
    rcases hmem with rfl | rfl | rfl | rfl | rfl | rfl | rfl
    · exact absurd hsuffix (by decide +kernel)
    · exact absurd hsuffix (by decide +kernel)
    · refine ⟨4, by omega, ?_⟩
      rw [hearlier 4 (by decide)]
      exact referenced_narrowPath (by decide) listsSegment_zero
    · exact absurd hsuffix (by decide +kernel)
    · refine ⟨6, by omega, ?_⟩
      rw [hearlier 6 le_rfl]
      exact referenced_narrowPath (by decide) listsSegment_one
    · exact absurd hsuffix (by decide +kernel)
    · exact absurd hsuffix (by decide +kernel)

/-- The first segment, which the second playlist no longer lists, is deleted. -/
theorem deleted_never_referenced_narrow :
    ∃ n t, run narrowStep (.start ∅ ⟨0⟩) (narrowRun n) = some t ∧ narrowPath 0 ∈ t.deleted ∧
      ∀ path ∈ t.deleted, ¬ Referenced t.store narrowEnv.streamId path := by
  obtain ⟨u, hu, hclock, happlied, hphase, hwritten, hstored⟩ :=
    run_narrow_writes (n := 6) (by decide)
  set v : CleanupRace := { u with clock := twoHoursLater, phase := .started twoHoursLater }
  have hbegin : run narrowStep u [.tick twoHoursLater, .cleanup] = some v := by
    have htick : narrowStep u (.tick twoHoursLater) = some { u with clock := twoHoursLater } := by
      rw [narrowStep, raceStep, hclock, if_pos (by decide)]
    have hstart : narrowStep { u with clock := twoHoursLater } .cleanup = some v := by
      simp only [narrowStep, raceStep, cycleStep, hphase]
      rfl
    rw [run_cons_of_step htick, run_cons_of_step hstart, run_nil]
  obtain ⟨n, t, hcycle, -, hlog⟩ := run_cycle_alone narrowEnv twoSegments oneHour (s := v) rfl
  have hrun : run narrowStep (.start ∅ ⟨0⟩) (narrowRun (n + 1)) = some t := by
    have hsplit : narrowRun (n + 1) = List.replicate 6 .write ++
        ([.tick twoHoursLater, .cleanup] ++ List.replicate n .cleanup) := rfl
    rw [hsplit, run_append hu, run_append hbegin]
    exact hcycle
  have htracks : Tracks narrowEnv twoSegments u :=
    run_invariant (fun _ _ _ hs hstep => hs.step hstep) (tracks_start (fun _ _ => rfl) ⟨0⟩) hu
  refine ⟨n + 1, t, hrun, hlog _ (streamPrefix_segmentPath _ _ _) ⟨rfl, rfl, ?_, ?_, ?_⟩, ?_⟩
  · exact isSegmentFile_segmentPath _ _ _
  · have hmem : narrowPath 0 ∈ ((packagerTrace narrowEnv twoSegments).map (·.path)).take 6 := by
      rw [narrow_paths]
      simp
    obtain ⟨object, hobject⟩ := Option.isSome_iff_exists.mp (hstored _ hmem)
    have hcreated := (hwritten _ object (streamPrefix_segmentPath _ _ _) hobject).1
    refine ⟨object, oneHour.nanos, hobject, rfl, ?_⟩
    rw [hcreated]
    decide
  · rintro ⟨key, object, hkey, hplaylist, hlookup, -, hmem⟩
    obtain ⟨r, i, hlists, hpath⟩ := htracks.referenced_iff.mp
      ⟨key, object, hkey, hplaylist, hlookup, hmem⟩
    obtain ⟨-, rfl, rfl⟩ := segmentPath_injective hpath
    rw [happlied] at hlists
    exact not_listsSegment_zero hlists
  · refine deleted_never_referenced narrowEnv twoSegments oneHour ∅ (fun _ _ => rfl) ⟨0⟩
      (narrowRun (n + 1)) (referencedInTime_narrow (n + 1)) (narrowRun (n + 1)).length t ?_
    rw [List.take_length]
    exact hrun

end Sample

end StreamInfa.Storage
