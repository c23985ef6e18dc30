import StreamInfa.Package.Paths
import StreamInfa.Storage.LiveCleanup

/-!
What a cleanup cycle may delete of a LIVE stream.

**`cleanup_removes_exactly`**: over the playlists the packager writes, a cycle without
failures removes the segments that are older than the retention and in no rendition's
window, and nothing else. The reading of a playlist gives back the paths its segments were
stored under, so the set of references is the union of the windows.

A playlist that cannot be read is skipped, and the deletions go on without its references
(`skipped_playlist_loses_segment`). **`referenced_kept_iff`**: the segments that the stored
playlists name are kept exactly if every expired one of them is also named by a playlist
that was read.
-/

namespace StreamInfa.Storage

open Control Package

/-! ### The objects of a packaged stream -/

/-- What is stored for a LIVE stream: under the media playlist paths, playlists generated
from the segment indexes `windows`, and segments under their segment paths. -/
structure Packaged (store : MediaStore) (id : StreamId)
    (windows : RenditionId → Option SegmentIndex) : Prop where
  playlistPath : ∀ key, streamPrefix id <+: key → isMediaPlaylist key = true →
    (store.lookup key).isSome → ∃ r : RenditionId, key = mediaPlaylistPath id.toText r.asStr
  playlist : ∀ r object, store.lookup (mediaPlaylistPath id.toText r.asStr) = some object →
    ∃ index hlsVersion isVod isFinished, windows r = some index ∧
      object.data = encodeUtf8 (index.generatePlaylist hlsVersion isVod isFinished)
  window : ∀ r, (windows r).isSome →
    (store.lookup (mediaPlaylistPath id.toText r.asStr)).isSome
  segment : ∀ key, streamPrefix id <+: key → ".m4s".toList <:+ key →
    (store.lookup key).isSome → ∃ (r : RenditionId) (n : ℕ), key = segmentPath id.toText r.asStr n

/-- The path of a segment in the window of some rendition. -/
def InSomeWindow (id : StreamId) (windows : RenditionId → Option SegmentIndex) (path : Text) :
    Prop :=
  ∃ r index, windows r = some index ∧ ∃ entry ∈ index.segments,
    path = segmentPath id.toText r.asStr entry.sequence

theorem streamPrefix_mediaPlaylistPath (id : StreamId) (rendition : Text) :
    streamPrefix id <+: mediaPlaylistPath id.toText rendition :=
  ⟨rendition ++ "/media.m3u8".toList, by simp [streamPrefix, mediaPlaylistPath]⟩

theorem streamPrefix_segmentPath (id : StreamId) (rendition : Text) (n : ℕ) :
    streamPrefix id <+: segmentPath id.toText rendition n :=
  ⟨rendition ++ "/".toList ++ segmentFilename n, by
    simp [streamPrefix, segmentPath, segmentFilename]⟩

theorem isMediaPlaylist_mediaPlaylistPath (streamId rendition : Text) :
    isMediaPlaylist (mediaPlaylistPath streamId rendition) = true := by
  rw [isMediaPlaylist, mediaPlaylistPath_eq]
  exact List.isSuffixOf_iff_suffix.mpr (List.suffix_append _ _)

/-- No segment path holds the name of an init segment: it has no `p`. -/
theorem isSegmentFile_segmentPath (id : StreamId) (r : RenditionId) (n : ℕ) :
    isSegmentFile (segmentPath id.toText r.asStr n) = true := by
  have hsuffix : ".m4s".toList.isSuffixOf (segmentPath id.toText r.asStr n) = true := by
    rw [segmentPath]
    exact List.isSuffixOf_iff_suffix.mpr (List.suffix_append _ _)
  have hp : 'p' ∉ segmentPath id.toText r.asStr n := by
    simp only [segmentPath, List.mem_append, not_or]
    refine ⟨⟨⟨⟨⟨fun h => ?_, by decide⟩, ?_⟩, by decide⟩, ?_⟩, by decide⟩
    · exact absurd (StreamId.mem_toText h) (by decide)
    · cases r <;> decide
    · exact notMem_of_digits (fun _ h => isDigit_of_mem_decimalPad h) (by decide)
  have hinit : ¬ "init.mp4".toList <:+: segmentPath id.toText r.asStr n :=
    fun h => hp (h.subset (by decide))
  rw [isSegmentFile, hsuffix, decide_eq_false hinit]
  rfl

/-- A segment file is not a playlist: one ends in `s`, the other in `8`. -/
theorem isMediaPlaylist_of_m4s {key : Text} (h : ".m4s".toList <:+ key) :
    isMediaPlaylist key = false := by
  rw [← Bool.not_eq_true, isMediaPlaylist, List.isSuffixOf_iff_suffix]
  rintro ⟨rest, hrest⟩
  obtain ⟨rest', hrest'⟩ := h
  have hlast := congrArg List.getLast? (hrest.trans hrest'.symm)
  rw [List.getLast?_append, List.getLast?_append] at hlast
  exact absurd hlast (by simp)

theorem isMediaPlaylist_segmentPath (streamId rendition : Text) (n : ℕ) :
    isMediaPlaylist (segmentPath streamId rendition n) = false :=
  isMediaPlaylist_of_m4s (List.suffix_append _ _)

section Exact

variable {config : RetentionConfig} {now : DateTime} {store : MediaStore} {id : StreamId}
  {windows : RenditionId → Option SegmentIndex} {path : Text}

/-- The references read are the paths of the windows. -/
theorem Packaged.readReference_iff (hpack : Packaged store id windows) :
    ReadReference noFaults store id path ↔ InSomeWindow id windows path := by
  constructor
  · rintro ⟨key, object, hkey, hplaylist, hlookup, -, hmem⟩
    obtain ⟨r, rfl⟩ := hpack.playlistPath key hkey hplaylist (by simp [hlookup])
    obtain ⟨index, hlsVersion, isVod, isFinished, hindex, hdata⟩ := hpack.playlist r object hlookup
    rw [hdata, referencedIn_generatePlaylist] at hmem
    obtain ⟨entry, hentry, rfl⟩ := List.mem_map.mp hmem
    exact ⟨r, index, hindex, entry, hentry, rfl⟩
  · rintro ⟨r, index, hindex, entry, hentry, rfl⟩
    obtain ⟨object, hlookup⟩ := Option.isSome_iff_exists.mp (hpack.window r (by simp [hindex]))
    obtain ⟨index', hlsVersion, isVod, isFinished, hindex', hdata⟩ :=
      hpack.playlist r object hlookup
    obtain rfl := Option.some.inj (hindex.symm.trans hindex')
    refine ⟨_, object, streamPrefix_mediaPlaylistPath id r.asStr,
      isMediaPlaylist_mediaPlaylistPath _ _, hlookup, rfl, ?_⟩
    rw [hdata, referencedIn_generatePlaylist]
    exact List.mem_map.mpr ⟨entry, hentry, rfl⟩

/-- The age a cycle compares with is the configured one; no instant is as old as a retention
on which the cycle panics. -/
theorem expired_iff (hnow : InCalendar now)
    (htimes : ∀ path object, store.lookup path = some object → InCalendar object.createdAt) :
    Expired config now store path ↔ ∃ object, store.lookup path = some object ∧
      config.nanos < now.nanos - object.createdAt.nanos := by
  rw [Expired, retention_eq]
  refine exists_congr fun object => ?_
  constructor
  · rintro ⟨retention, hlookup, hretention, hold⟩
    split at hretention
    · obtain rfl := Option.some.inj hretention
      exact ⟨hlookup, of_decide_eq_true hold⟩
    · exact absurd hretention (by simp)
  · rintro ⟨hlookup, hold⟩
    have hcreated := htimes path object hlookup
    simp only [InCalendar, RetentionConfig.nanos] at hnow hcreated hold
    refine ⟨config.nanos, hlookup, if_pos (by omega), decide_eq_true ?_⟩
    exact hold

/-- The segments a cycle has to remove: older than the retention and in no window. -/
def Obsolete (config : RetentionConfig) (now : DateTime) (store : MediaStore) (id : StreamId)
    (windows : RenditionId → Option SegmentIndex) (path : Text) : Prop :=
  ".m4s".toList <:+ path ∧
    (∃ object, store.lookup path = some object ∧
      config.nanos < now.nanos - object.createdAt.nanos) ∧
    ¬ InSomeWindow id windows path

theorem Packaged.deletes_iff (hpack : Packaged store id windows) (hnow : InCalendar now)
    (htimes : ∀ path object, store.lookup path = some object → InCalendar object.createdAt)
    (hpath : streamPrefix id <+: path) :
    Deletes config now noFaults store id path ↔ Obsolete config now store id windows path := by
  rw [Obsolete, ← hpack.readReference_iff, ← expired_iff hnow htimes]
  constructor
  · rintro ⟨-, -, hsegment, hexpired, hun⟩
    exact ⟨List.isSuffixOf_iff_suffix.mp (Bool.and_eq_true_iff.mp hsegment).1, hexpired, hun⟩
  · rintro ⟨hsuffix, hexpired, hun⟩
    obtain ⟨object, retention, hlookup, hretention⟩ := hexpired
    obtain ⟨r, n, rfl⟩ := hpack.segment path hpath hsuffix (by simp [hlookup])
    exact ⟨rfl, rfl, isSegmentFile_segmentPath id r n, ⟨object, retention, hlookup, hretention⟩,
      hun⟩

end Exact

/-- A cycle without failures over a LIVE stream that the packager stored: the references it
reads are the paths of the windows, and of the stream's objects it removes the obsolete
segments and leaves the others as they are. -/
theorem cleanup_removes_exactly (m : StreamStateManager) (config : RetentionConfig)
    (now : DateTime) (store : MediaStore) (id : StreamId)
    (windows : RenditionId → Option SegmentIndex) (hlive : id ∈ liveStreams m)
    (hpack : Packaged store id windows) (hnow : InCalendar now)
    (htimes : ∀ path object, store.lookup path = some object → InCalendar object.createdAt) :
    (∀ path, path ∈ referencedSegments noFaults store (store.listObjects (streamPrefix id)) ↔
      InSomeWindow id windows path) ∧
    ∀ path, streamPrefix id <+: path →
      (Obsolete config now store id windows path →
        (storeAfter (runCleanupCycle m config now noFaults store)).lookup path = none) ∧
      (¬ Obsolete config now store id windows path →
        (storeAfter (runCleanupCycle m config now noFaults store)).lookup path =
          store.lookup path) := by
  refine ⟨fun path => mem_referencedSegments.trans hpack.readReference_iff, fun path hpath => ?_⟩
  rw [← hpack.deletes_iff hnow htimes hpath]
  exact leaves_runCleanupCycle config now noFaults store hlive path hpath

/-! ### When reads fail -/

/-- A media playlist stored for the stream names the path. -/
def Referenced (store : MediaStore) (id : StreamId) (path : Text) : Prop :=
  ∃ key object, streamPrefix id <+: key ∧ isMediaPlaylist key = true ∧
    store.lookup key = some object ∧ path ∈ referencedIn key object.data

/-- What a playlist that cannot be read names and the cycle would delete is named by a
playlist that can. -/
def ReadsCover (config : RetentionConfig) (now : DateTime) (faults : StoreFaults)
    (store : MediaStore) (id : StreamId) : Prop :=
  ∀ key object, streamPrefix id <+: key → isMediaPlaylist key = true →
    store.lookup key = some object → faults.get key = true →
    ∀ path ∈ referencedIn key object.data, streamPrefix id <+: path →
      isSegmentFile path = true → Expired config now store path → faults.delete path = false →
      ReadReference faults store id path

/-- A cycle deletes no segment that the stream's playlists name exactly if it cannot list
the stream's objects or the reads cover those that fail. -/
theorem referenced_kept_iff (m : StreamStateManager) (config : RetentionConfig) (now : DateTime)
    (faults : StoreFaults) (store : MediaStore) (id : StreamId) (hlive : id ∈ liveStreams m) :
    (∀ path, streamPrefix id <+: path → Referenced store id path →
      (storeAfter (runCleanupCycle m config now faults store)).lookup path = store.lookup path) ↔
    faults.list id = true ∨ ReadsCover config now faults store id := by
  have hcycle := leaves_runCleanupCycle config now faults store hlive
  constructor
  · intro hkept
    cases hlist : faults.list id with
    | true => exact Or.inl rfl
    | false =>
      refine Or.inr fun key object hkey hplaylist hlookup _ path hmem hpath hsegment hexpired
        hdelete => ?_
      by_contra hun
      have hgone := (hcycle path hpath).1 ⟨hlist, hdelete, hsegment, hexpired, hun⟩
      rw [hkept path hpath ⟨key, object, hkey, hplaylist, hlookup, hmem⟩] at hgone
      obtain ⟨_, _, hstored, _⟩ := hexpired
      exact absurd (hgone.symm.trans hstored) (by simp)
  · rintro hcover path hpath ⟨key, object, hkey, hplaylist, hlookup, hmem⟩
    refine (hcycle path hpath).2 fun hdeletes => ?_
    rcases hcover with hlist | hcover
    · rw [hdeletes.listed] at hlist
      exact absurd hlist (by decide)
    · refine hdeletes.unreferenced ?_
      cases hfault : faults.get key with
      | false => exact ⟨key, object, hkey, hplaylist, hlookup, hfault, hmem⟩
      | true =>
        exact hcover key object hkey hplaylist hlookup hfault path hmem hpath hdeletes.segment
          hdeletes.expired hdeletes.deletable

/-! ### A stream with a window of one segment -/

section Sample

def watchedStream : StreamId := ⟨1⟩

/-- The stream has been created and is LIVE. -/
def watchedManager : StreamStateManager :=
  let m := (StreamStateManager.new.createStream watchedStream .live ⟨0⟩).2
  orUnchanged m (m.transition watchedStream .live ⟨1⟩)

def oneHour : RetentionConfig := ⟨60, by decide⟩

def twoHoursLater : DateTime := ⟨7200000000000⟩

def watchedPath (n : ℕ) : Text := segmentPath watchedStream.toText RenditionId.low.asStr n

/-- The index of a rendition after two segments. -/
def watchedIndex : SegmentIndex :=
  let index := (SegmentIndex.new watchedStream .low (some 1)).addSegment 2 (watchedPath 0) 1 ⟨0⟩
  (index.1.addSegment 2 (watchedPath 1) 1 ⟨0⟩).1

def watchedWindows : RenditionId → Option SegmentIndex
  | .low => some watchedIndex
  | _ => none

def watchedPlaylist : Text := mediaPlaylistPath watchedStream.toText RenditionId.low.asStr

/-- Two segments and the playlist that lists the second. -/
def watchedStore : MediaStore :=
  (((∅ : MediaStore).putSegment (watchedPath 0) [0x00] "video/mp4".toList ⟨0⟩).putSegment
    (watchedPath 1) [0x01] "video/mp4".toList ⟨0⟩).putManifest watchedPlaylist
      (watchedIndex.generatePlaylist 7 false false) ⟨0⟩

theorem watchedPath_ne (n : ℕ) : watchedPath n ≠ watchedPlaylist :=
  segmentPath_ne_mediaPlaylistPath

theorem watchedPath_injective {m n : ℕ} (h : watchedPath m = watchedPath n) : m = n := by
  rw [watchedPath, watchedPath, segmentPath_eq, segmentPath_eq] at h
  exact segmentFilename_injective (List.append_cancel_left h)

theorem lookup_watchedPlaylist : watchedStore.lookup watchedPlaylist =
    some ⟨encodeUtf8 (watchedIndex.generatePlaylist 7 false false),
      "application/vnd.apple.mpegurl".toList, ⟨0⟩⟩ :=
  AList.lookup_insert _

theorem lookup_watchedPath_one :
    watchedStore.lookup (watchedPath 1) = some ⟨[0x01], "video/mp4".toList, ⟨0⟩⟩ := by
  refine (AList.lookup_insert_ne (watchedPath_ne 1)).trans ?_
  exact AList.lookup_insert _

theorem lookup_watchedPath_zero :
    watchedStore.lookup (watchedPath 0) = some ⟨[0x00], "video/mp4".toList, ⟨0⟩⟩ := by
  refine (AList.lookup_insert_ne (watchedPath_ne 0)).trans ?_
  refine (AList.lookup_insert_ne fun h => absurd (watchedPath_injective h) (by decide)).trans ?_
  exact AList.lookup_insert _

/-- What is stored, and when. -/
theorem watchedStore_cases {key : Text} {object : StoredObject}
    (h : watchedStore.lookup key = some object) :
    object.createdAt = ⟨0⟩ ∧ (key = watchedPlaylist ∨ ∃ n, key = watchedPath n) := by
  by_cases hplaylist : key = watchedPlaylist
  · subst hplaylist
    obtain rfl := Option.some.inj (h.symm.trans lookup_watchedPlaylist)
    exact ⟨rfl, Or.inl rfl⟩
  by_cases hone : key = watchedPath 1
  · subst hone
    obtain rfl := Option.some.inj (h.symm.trans lookup_watchedPath_one)
    exact ⟨rfl, Or.inr ⟨1, rfl⟩⟩
  by_cases hzero : key = watchedPath 0
  · subst hzero
    obtain rfl := Option.some.inj (h.symm.trans lookup_watchedPath_zero)
    exact ⟨rfl, Or.inr ⟨0, rfl⟩⟩
  · have hnone : watchedStore.lookup key = none :=
      (AList.lookup_insert_ne hplaylist).trans <| (AList.lookup_insert_ne hone).trans <|
        AList.lookup_insert_ne hzero
    exact absurd (hnone.symm.trans h) (by simp)

theorem packaged_watchedStore : Packaged watchedStore watchedStream watchedWindows where
  playlistPath := by
    intro key _ hplaylist hstored
    obtain ⟨object, hobject⟩ := Option.isSome_iff_exists.mp hstored
    rcases (watchedStore_cases hobject).2 with rfl | ⟨n, rfl⟩
    · exact ⟨.low, rfl⟩
    · rw [watchedPath, isMediaPlaylist_segmentPath] at hplaylist
      exact absurd hplaylist (by decide)
  playlist := by
    intro r object hobject
    rcases (watchedStore_cases hobject).2 with heq | ⟨n, heq⟩
    · obtain rfl : r = .low := (mediaPlaylistPath_injective heq).2
      obtain rfl := Option.some.inj (hobject.symm.trans lookup_watchedPlaylist)
      exact ⟨watchedIndex, 7, false, false, rfl, rfl⟩
    · have hplaylist := isMediaPlaylist_mediaPlaylistPath watchedStream.toText r.asStr
      rw [heq, watchedPath, isMediaPlaylist_segmentPath] at hplaylist
      exact absurd hplaylist (by decide)
  window := by
    intro r hr
    cases r with
    | low => exact Option.isSome_iff_exists.mpr ⟨_, lookup_watchedPlaylist⟩
    | high | medium | source => exact absurd hr (by decide)
  segment := by
    intro key _ hsuffix hstored
    obtain ⟨object, hobject⟩ := Option.isSome_iff_exists.mp hstored
    rcases (watchedStore_cases hobject).2 with rfl | ⟨n, rfl⟩
    · exact absurd hsuffix (by decide)
    · exact ⟨.low, n, rfl⟩

theorem live_watchedStream : watchedStream ∈ liveStreams watchedManager := by decide

theorem inCalendar_twoHoursLater : InCalendar twoHoursLater := by
  simp [InCalendar, twoHoursLater]

theorem inCalendar_watchedStore : ∀ path object,
    watchedStore.lookup path = some object → InCalendar object.createdAt := by
  intro path object h
  rw [(watchedStore_cases h).1]
  simp [InCalendar]

/-- The second segment is in the window and the first is not. -/
theorem inSomeWindow_watched (n : ℕ) :
    InSomeWindow watchedStream watchedWindows (watchedPath n) ↔ n = 1 := by
  constructor
  · rintro ⟨r, index, hindex, entry, hentry, hpath⟩
    cases r with
    | low =>
      obtain rfl := Option.some.inj hindex
      obtain rfl : entry = ⟨1, 2, watchedPath 1, ⟨0⟩, 1⟩ := List.mem_singleton.mp hentry
      exact watchedPath_injective hpath
    | high | medium | source => exact absurd hindex (by simp [watchedWindows])
  · rintro rfl
    exact ⟨.low, watchedIndex, rfl, _, List.mem_cons_self, rfl⟩

theorem cleanup_removes_exactly_watched :
    (watchedPath 1 ∈ referencedSegments noFaults watchedStore
      (watchedStore.listObjects (streamPrefix watchedStream))) ∧
    (storeAfter (runCleanupCycle watchedManager oneHour twoHoursLater noFaults
      watchedStore)).lookup (watchedPath 0) = none ∧
    (storeAfter (runCleanupCycle watchedManager oneHour twoHoursLater noFaults
      watchedStore)).lookup (watchedPath 1) = some ⟨[0x01], "video/mp4".toList, ⟨0⟩⟩ := by
  have hexact := cleanup_removes_exactly watchedManager oneHour twoHoursLater watchedStore
    watchedStream watchedWindows live_watchedStream packaged_watchedStore inCalendar_twoHoursLater
    inCalendar_watchedStore
  refine ⟨(hexact.1 _).mpr ((inSomeWindow_watched 1).mpr rfl), ?_, ?_⟩
  · refine (hexact.2 _ (streamPrefix_segmentPath _ _ _)).1
      ⟨?_, ⟨_, lookup_watchedPath_zero, ?_⟩, ?_⟩
    · exact ⟨_, rfl⟩
    · decide
    · exact fun h => absurd ((inSomeWindow_watched 0).mp h) (by decide)
  · refine ((hexact.2 _ (streamPrefix_segmentPath _ _ _)).2 ?_).trans lookup_watchedPath_one
    exact fun h => h.2.2 ((inSomeWindow_watched 1).mpr rfl)

/-- Reads fail, everything else succeeds. -/
def unreadable : StoreFaults := { noFaults with get := fun _ => true }

theorem referenced_watched : Referenced watchedStore watchedStream (watchedPath 1) := by
  refine ⟨watchedPlaylist, _, streamPrefix_mediaPlaylistPath _ _,
    isMediaPlaylist_mediaPlaylistPath _ _, lookup_watchedPlaylist, ?_⟩
  rw [watchedPlaylist, referencedIn_generatePlaylist]
  exact List.mem_map.mpr ⟨_, List.mem_cons_self, rfl⟩

/-- The playlist cannot be read, and the segment it lists is deleted. -/
theorem skipped_playlist_loses_segment :
    watchedStream ∈ liveStreams watchedManager ∧
    Referenced watchedStore watchedStream (watchedPath 1) ∧
    watchedStore.lookup (watchedPath 1) = some ⟨[0x01], "video/mp4".toList, ⟨0⟩⟩ ∧
    (storeAfter (runCleanupCycle watchedManager oneHour twoHoursLater unreadable
      watchedStore)).lookup (watchedPath 1) = none := by
  refine ⟨live_watchedStream, referenced_watched, lookup_watchedPath_one, ?_⟩
  have hcycle := leaves_runCleanupCycle oneHour twoHoursLater unreadable watchedStore
    live_watchedStream
  refine (hcycle _ (streamPrefix_segmentPath _ _ _)).1
    ⟨rfl, rfl, isSegmentFile_segmentPath _ _ _, ⟨_, _, lookup_watchedPath_one, rfl, ?_⟩, ?_⟩
  · decide
  · rintro ⟨_, _, _, _, _, hread, _⟩
    exact absurd hread (by simp [unreadable])

theorem referenced_kept_iff_watched :
    watchedStream ∈ liveStreams watchedManager ∧
    ∀ path, streamPrefix watchedStream <+: path → Referenced watchedStore watchedStream path →
      (storeAfter (runCleanupCycle watchedManager oneHour twoHoursLater noFaults
        watchedStore)).lookup path = watchedStore.lookup path := by
  refine ⟨live_watchedStream, (referenced_kept_iff watchedManager oneHour twoHoursLater noFaults
    watchedStore watchedStream live_watchedStream).mpr (Or.inr ?_)⟩
  intro key object _ _ _ hfault
  exact absurd hfault (by simp [noFaults])

end Sample

end StreamInfa.Storage
