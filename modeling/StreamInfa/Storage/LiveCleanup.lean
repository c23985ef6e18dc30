import StreamInfa.Package.SegmentIndex
import StreamInfa.Storage.Cleanup
import StreamInfa.Storage.Media
import Mathlib.Data.List.Sort

/-!
Segment retention for LIVE streams (`run_cleanup_cycle` in `src/storage/cleanup.rs`).

For every LIVE stream a cycle lists the stream's objects, collects the segments that its
media playlists name and deletes the older segments that are not among them. Then it
deletes what streams in ERROR for a day have stored. The store's calls may fail:
`StoreFaults` is one pattern of failures, by the object a call is about.

`mem_referencedSegments` is what the cycle reads out of the playlists, and
`lookup_runCleanupCycle` what it leaves of a LIVE stream's objects, both in terms of the
store it began with.
-/

namespace StreamInfa.Storage

open Control Package

/-! ### Listing -/

/-- What a listing says of an object. -/
structure ObjectInfo where
  key : Text
  size : ℕ
  lastModified : DateTime
deriving DecidableEq, Repr

def objectInfo (key : Text) (object : StoredObject) : ObjectInfo where
  key := key
  size := object.data.length
  lastModified := object.createdAt

/-- The objects whose path starts with `start`, sorted by path. -/
def MediaStore.listObjects (store : MediaStore) (start : Text) : List ObjectInfo :=
  ((store.entries.filter fun e => start.isPrefixOf e.1).map fun e =>
    objectInfo e.1 e.2).insertionSort fun a b => textLe a.key b.key = true

theorem mem_listObjects {store : MediaStore} {start : Text} {info : ObjectInfo} :
    info ∈ store.listObjects start ↔ start <+: info.key ∧
      ∃ object, store.lookup info.key = some object ∧ info = objectInfo info.key object := by
  rw [MediaStore.listObjects, (List.perm_insertionSort _ _).mem_iff, List.mem_map]
  constructor
  · rintro ⟨⟨key, object⟩, hmem, rfl⟩
    obtain ⟨hentry, hstart⟩ := List.mem_filter.mp hmem
    exact ⟨List.isPrefixOf_iff_prefix.mp hstart, object, AList.mem_lookup_iff.mpr hentry, rfl⟩
  · rintro ⟨hstart, object, hlookup, hinfo⟩
    refine ⟨⟨info.key, object⟩, List.mem_filter.mpr ⟨AList.mem_lookup_iff.mp hlookup, ?_⟩,
      hinfo.symm⟩
    exact List.isPrefixOf_iff_prefix.mpr hstart

/-! ### Retention -/

/-- The retention of the packaging configuration. It is read from a TOML file, whose
integers are signed. -/
structure RetentionConfig where
  segmentRetentionMinutes : UInt64
  fromToml : segmentRetentionMinutes.toNat < 2 ^ 63

/-- A duration in nanoseconds, of at most `i64::MAX` milliseconds. -/
def durationMinutes (minutes : Int64) : Option ℤ :=
  let secs := minutes.toInt * 60
  if |secs| ≤ 9223372036854775 then some (secs * 1000000000) else none

/-- The retention a cycle computes; `none` when it panics. -/
def RetentionConfig.retention (config : RetentionConfig) : Option ℤ :=
  durationMinutes config.segmentRetentionMinutes.toInt64

/-- The configured retention, in nanoseconds. -/
def RetentionConfig.nanos (config : RetentionConfig) : ℤ :=
  config.segmentRetentionMinutes.toNat * 60 * 1000000000

def olderThan (retention : ℤ) (now lastModified : DateTime) : Bool :=
  decide (retention < now.nanos - lastModified.nanos)

/-- The instants of the calendar, from the year -262143 to the year 262142. -/
def InCalendar (t : DateTime) : Prop :=
  -8334601228800 * 1000000000 ≤ t.nanos ∧ t.nanos < 8210266876800 * 1000000000

/-- The cast and the conversion keep a retention that a duration can hold. -/
theorem retention_eq (config : RetentionConfig) :
    config.retention = if config.segmentRetentionMinutes.toNat ≤ 153722867280912 then
      some config.nanos else none := by
  have hint : config.segmentRetentionMinutes.toInt64.toInt =
      (config.segmentRetentionMinutes.toNat : ℤ) := by
    have := config.fromToml
    rw [← Int64.toInt_toBitVec]
    exact BitVec.toInt_eq_toNat_of_lt (by simpa using by omega)
  rw [RetentionConfig.retention, durationMinutes, hint, RetentionConfig.nanos]
  have habs : |(config.segmentRetentionMinutes.toNat : ℤ) * 60| =
      config.segmentRetentionMinutes.toNat * 60 := abs_of_nonneg (by omega)
  rw [habs]
  split
  · rw [if_pos (by omega)]
  · rw [if_neg (by omega)]

/-! ### What the playlists name -/

/-- The text before the last slash, empty if there is none. -/
def parentOf (key : Text) : Text := (key.reverse.dropWhile (· ≠ '/')).tail.reverse

/-- The segments a stored playlist names, as paths. -/
def referencedIn (key : Text) (body : Bytes) : List Text :=
  (((lines (fromUtf8Lossy body)).map trim).filter fun line =>
    isUri line && ".m4s".toList.isSuffixOf line).map fun line =>
      if line.contains '/' || (parentOf key).isEmpty then line else parentOf key ++ '/' :: line

def isMediaPlaylist (key : Text) : Bool := "media.m3u8".toList.isSuffixOf key

/-- A segment file; init segments are skipped. -/
def isSegmentFile (key : Text) : Bool :=
  ".m4s".toList.isSuffixOf key && !decide ("init.mp4".toList <:+: key)

/-! ### A cycle -/

/-- The calls of the store that fail, by the object they are about. -/
structure StoreFaults where
  list : StreamId → Bool
  get : Text → Bool
  delete : Text → Bool
  /-- What a deletion by prefix leaves behind. -/
  kept : List Text

/-- No call fails. -/
def noFaults : StoreFaults := ⟨fun _ => false, fun _ => false, fun _ => false, []⟩

def streamPrefix (id : StreamId) : Text := id.toText ++ "/".toList

/-- A read of an object that may fail. -/
def tryGetObject (faults : StoreFaults) (store : MediaStore) (key : Text) :
    Except StorageError GetObjectOutput :=
  if faults.get key then .error (.s3GetFailed key "request failed".toList)
  else store.getObject key

/-- The segments still referenced by the media playlists that can be read. -/
def referencedSegments (faults : StoreFaults) (store : MediaStore) (objects : List ObjectInfo) :
    List Text :=
  (objects.filter fun info => isMediaPlaylist info.key).flatMap fun info =>
    match tryGetObject faults store info.key with
    | .ok playlist => referencedIn info.key playlist.body
    | .error _ => []

/-- Whether the delete loop asks for the deletion of an object. -/
def isUnneeded (retention : ℤ) (now : DateTime) (referenced : List Text) (info : ObjectInfo) :
    Bool :=
  isSegmentFile info.key && olderThan retention now info.lastModified &&
    !referenced.contains info.key

def tryDeleteObject (faults : StoreFaults) (store : MediaStore) (info : ObjectInfo) : MediaStore :=
  if faults.delete info.key then store else store.deleteObject info.key

/-- Phase 1 for one stream. An error is the store when the cycle panicked. -/
def cleanupLiveStream (config : RetentionConfig) (now : DateTime) (faults : StoreFaults)
    (store : MediaStore) (id : StreamId) : Except MediaStore MediaStore :=
  if faults.list id then .ok store
  else
    let objects := store.listObjects (streamPrefix id)
    match config.retention with
    | none => .error store
    | some retention =>
      let referenced := referencedSegments faults store objects
      .ok ((objects.filter (isUnneeded retention now referenced)).foldl (tryDeleteObject faults)
        store)

def liveStreams (m : StreamStateManager) : List StreamId :=
  m.streams.keysWhere fun entry => decide (entry.state = .live)

/-- The store after a cycle: phase 1 for the LIVE streams, then phase 2. -/
def runCleanupCycle (m : StreamStateManager) (config : RetentionConfig) (now : DateTime)
    (faults : StoreFaults) (store : MediaStore) : Except MediaStore MediaStore := do
  let store ← (liveStreams m).foldlM (cleanupLiveStream config now faults) store
  return (m.streams.keysWhere (errorExpired now)).foldl
    (fun store id => store.deletePrefix (streamPrefix id) faults.kept) store

/-- The store when the cycle has ended or panicked. -/
def storeAfter : Except MediaStore MediaStore → MediaStore
  | .ok store => store
  | .error store => store

theorem parentOf_append {dir file : Text} (hfile : '/' ∉ file) :
    parentOf (dir ++ '/' :: file) = dir := by
  have hall : ∀ c ∈ file.reverse, decide (c ≠ '/') = true := by
    intro c hc
    rw [List.mem_reverse] at hc
    exact decide_eq_true fun h => hfile (h ▸ hc)
  rw [parentOf, List.reverse_append, List.reverse_cons, List.append_assoc,
    List.dropWhile_append_of_pos hall, List.singleton_append, List.dropWhile_cons_of_neg (by simp),
    List.tail_cons, List.reverse_reverse]

/-! ### Reading a generated playlist -/

/-- Trimming makes no file name of a blank line or a tag. -/
theorem isUri_trim_of_not {l : Text} (h : isUri l = false) : isUri (trim l) = false := by
  cases l with
  | nil => rfl
  | cons c l =>
    obtain rfl : c = '#' := by simpa [isUri] using h
    rw [trim_cons (by decide)]
    rfl

theorem trim_segmentFilename (n : ℕ) : trim (segmentFilename n) = segmentFilename n := by
  obtain ⟨c, digits, hdigits⟩ := List.exists_cons_of_ne_nil (decimalPad_ne_nil 6 n)
  have hc : c.isDigit := isDigit_of_mem_decimalPad (hdigits ▸ List.mem_cons_self)
  have hname : segmentFilename n = c :: ((digits ++ ".m4".toList) ++ ['s']) := by
    rw [segmentFilename, hdigits]
    simp
  rw [hname, trim_eq_self (isWhitespace_of_isDigit hc) (by decide)]

theorem isSuffixOf_segmentFilename (n : ℕ) : ".m4s".toList.isSuffixOf (segmentFilename n) = true :=
  List.isSuffixOf_iff_suffix.mpr (List.suffix_append _ _)

theorem parentOf_mediaPlaylistPath (streamId rendition : Text) :
    parentOf (mediaPlaylistPath streamId rendition) = streamId ++ '/' :: rendition := by
  have hpath : mediaPlaylistPath streamId rendition =
      (streamId ++ '/' :: rendition) ++ '/' :: "media.m3u8".toList := by
    simp [mediaPlaylistPath]
  rw [hpath, parentOf_append (by decide)]

/-- The lines that the reading keeps are the files the playlist names. -/
theorem referencedIn_eq {key : Text} {t : Text} (hnames : ∀ l ∈ playlistUris t, trim l = l ∧
      ".m4s".toList.isSuffixOf l = true ∧ '/' ∉ l) (hparent : parentOf key ≠ []) :
    referencedIn key (encodeUtf8 t) = (playlistUris t).map (parentOf key ++ '/' :: ·) := by
  have hkept : ((lines t).map trim).filter
      (fun line => isUri line && ".m4s".toList.isSuffixOf line) = playlistUris t := by
    have hcongr : ∀ l ∈ lines t,
        ((fun line => isUri line && ".m4s".toList.isSuffixOf line) ∘ trim) l = isUri l := by
      intro l hl
      cases huri : isUri l with
      | false => rw [Function.comp_apply, isUri_trim_of_not huri, Bool.false_and]
      | true =>
        obtain ⟨htrim, hsuffix, -⟩ := hnames l (List.mem_filter.mpr ⟨hl, huri⟩)
        rw [Function.comp_apply, htrim, huri, hsuffix, Bool.true_and]
    rw [List.filter_map, List.filter_congr hcongr, ← playlistUris]
    conv_rhs => rw [← List.map_id (playlistUris t)]
    exact List.map_congr_left fun l hl => (hnames l hl).1
  rw [referencedIn, fromUtf8Lossy_encodeUtf8, hkept]
  refine List.map_congr_left fun l hl => ?_
  have hslash : l.contains '/' = false := by simpa using (hnames l hl).2.2
  have hempty : (parentOf key).isEmpty = false := by simpa using hparent
  rw [hslash, hempty]
  rfl

/-- What the cycle reads out of a generated playlist: the paths of the entries in the window. -/
theorem referencedIn_generatePlaylist (streamId rendition : Text) (index : SegmentIndex)
    (hlsVersion : UInt32) (isVod isFinished : Bool) :
    referencedIn (mediaPlaylistPath streamId rendition)
        (encodeUtf8 (index.generatePlaylist hlsVersion isVod isFinished)) =
      index.segments.map fun entry => segmentPath streamId rendition entry.sequence := by
  rw [referencedIn_eq, SegmentIndex.playlistUris_generatePlaylist, List.map_map,
    parentOf_mediaPlaylistPath]
  · refine List.map_congr_left fun entry _ => ?_
    rw [segmentPath_eq]
    simp [renditionPrefix]
  · intro l hl
    rw [SegmentIndex.playlistUris_generatePlaylist] at hl
    obtain ⟨entry, -, rfl⟩ := List.mem_map.mp hl
    exact ⟨trim_segmentFilename _, isSuffixOf_segmentFilename _, slash_notMem_segmentFilename _⟩
  · rw [parentOf_mediaPlaylistPath]
    simp

/-! ### What a cycle deletes -/

/-- A media playlist stored for the stream that can be read names the path. -/
def ReadReference (faults : StoreFaults) (store : MediaStore) (id : StreamId) (path : Text) :
    Prop :=
  ∃ key object, streamPrefix id <+: key ∧ isMediaPlaylist key = true ∧
    store.lookup key = some object ∧ faults.get key = false ∧ path ∈ referencedIn key object.data

theorem mem_referencedSegments {faults : StoreFaults} {store : MediaStore} {id : StreamId}
    {path : Text} :
    path ∈ referencedSegments faults store (store.listObjects (streamPrefix id)) ↔
      ReadReference faults store id path := by
  rw [referencedSegments, List.mem_flatMap]
  constructor
  · rintro ⟨info, hinfo, hmem⟩
    obtain ⟨hlisted, hplaylist⟩ := List.mem_filter.mp hinfo
    obtain ⟨hstart, object, hlookup, -⟩ := mem_listObjects.mp hlisted
    rw [tryGetObject, MediaStore.getObject, hlookup] at hmem
    cases hfault : faults.get info.key with
    | true =>
      rw [hfault] at hmem
      exact absurd hmem List.not_mem_nil
    | false =>
      rw [hfault] at hmem
      exact ⟨info.key, object, hstart, hplaylist, hlookup, hfault, hmem⟩
  · rintro ⟨key, object, hstart, hplaylist, hlookup, hfault, hmem⟩
    refine ⟨objectInfo key object, List.mem_filter.mpr ⟨?_, hplaylist⟩, ?_⟩
    · exact mem_listObjects.mpr ⟨hstart, object, hlookup, rfl⟩
    · rw [tryGetObject, MediaStore.getObject, show (objectInfo key object).key = key from rfl,
        hlookup, hfault]
      exact hmem

theorem lookup_foldl_tryDeleteObject (faults : StoreFaults) (store : MediaStore)
    (infos : List ObjectInfo) (path : Text) :
    (infos.foldl (tryDeleteObject faults) store).lookup path =
      if path ∈ infos.map (·.key) ∧ faults.delete path = false then none
      else store.lookup path := by
  induction infos generalizing store with
  | nil => simp
  | cons info infos ih =>
    rw [List.foldl_cons, ih]
    by_cases hpath : path = info.key
    · subst hpath
      cases hfault : faults.delete info.key with
      | true => simp [tryDeleteObject, hfault]
      | false => simp [tryDeleteObject, hfault, MediaStore.deleteObject]
    · have hsame : (tryDeleteObject faults store info).lookup path = store.lookup path := by
        unfold tryDeleteObject
        split
        · rfl
        · exact AList.lookup_erase_ne hpath
      rw [hsame]
      simp [hpath]

/-- The text before the first slash of a path. -/
theorem takeWhile_of_slash {word path : Text} (hword : '/' ∉ word) (h : word ++ ['/'] <+: path) :
    path.takeWhile (· ≠ '/') = word := by
  obtain ⟨rest, rfl⟩ := h
  rw [List.append_assoc]
  exact takeWhile_slash hword rest

/-- Every path belongs to at most one stream. -/
theorem eq_of_streamPrefix {id id' : StreamId} {path : Text} (h : streamPrefix id <+: path)
    (h' : streamPrefix id' <+: path) : id = id' := by
  have hid : id.toText = id'.toText :=
    (takeWhile_of_slash id.slash_notMem_toText h).symm.trans
      (takeWhile_of_slash id'.slash_notMem_toText h')
  exact StreamId.toText_injective hid

section Cycle

variable {m : StreamStateManager} {config : RetentionConfig} {now : DateTime}
  {faults : StoreFaults} {store store' : MediaStore} {id : StreamId} {path : Text}

/-- An object is older than the retention a cycle computes. -/
def Expired (config : RetentionConfig) (now : DateTime) (store : MediaStore) (path : Text) :
    Prop :=
  ∃ object retention, store.lookup path = some object ∧ config.retention = some retention ∧
    olderThan retention now object.createdAt = true

/-- What a cycle that begins with `store` deletes for a LIVE stream. -/
structure Deletes (config : RetentionConfig) (now : DateTime) (faults : StoreFaults)
    (store : MediaStore) (id : StreamId) (path : Text) : Prop where
  listed : faults.list id = false
  deletable : faults.delete path = false
  segment : isSegmentFile path = true
  expired : Expired config now store path
  unreferenced : ¬ ReadReference faults store id path

/-- What a cycle leaves of the stream's objects. -/
def Leaves (config : RetentionConfig) (now : DateTime) (faults : StoreFaults)
    (store store' : MediaStore) (id : StreamId) : Prop :=
  ∀ path, streamPrefix id <+: path →
    (Deletes config now faults store id path → store'.lookup path = none) ∧
    (¬ Deletes config now faults store id path → store'.lookup path = store.lookup path)

/-- Two stores hold the same for a stream. -/
def AgreeOn (id : StreamId) (store store' : MediaStore) : Prop :=
  ∀ path, streamPrefix id <+: path → store'.lookup path = store.lookup path

theorem ReadReference.congr (h : AgreeOn id store store') :
    ReadReference faults store' id path ↔ ReadReference faults store id path := by
  refine exists_congr fun key => exists_congr fun object => and_congr_right fun hkey => ?_
  rw [h key hkey]

theorem Deletes.congr (h : AgreeOn id store store') (hpath : streamPrefix id <+: path) :
    Deletes config now faults store' id path ↔ Deletes config now faults store id path := by
  have hread : ReadReference faults store' id path ↔ ReadReference faults store id path :=
    ReadReference.congr h
  constructor
  · rintro ⟨hlist, hdelete, hseg, hexpired, hun⟩
    rw [Expired, h path hpath] at hexpired
    exact ⟨hlist, hdelete, hseg, hexpired, fun hr => hun (hread.mpr hr)⟩
  · rintro ⟨hlist, hdelete, hseg, hexpired, hun⟩
    rw [Expired, ← h path hpath] at hexpired
    exact ⟨hlist, hdelete, hseg, hexpired, fun hr => hun (hread.mp hr)⟩

theorem mem_unneeded (retention : ℤ) :
    path ∈ ((store.listObjects (streamPrefix id)).filter
        (isUnneeded retention now
          (referencedSegments faults store (store.listObjects (streamPrefix id))))).map (·.key) ↔
      streamPrefix id <+: path ∧ isSegmentFile path = true ∧
        (∃ object, store.lookup path = some object ∧
          olderThan retention now object.createdAt = true) ∧
        ¬ ReadReference faults store id path := by
  rw [← mem_referencedSegments, List.mem_map]
  constructor
  · rintro ⟨info, hinfo, rfl⟩
    obtain ⟨hlisted, hun⟩ := List.mem_filter.mp hinfo
    obtain ⟨hstart, object, hlookup, hobject⟩ := mem_listObjects.mp hlisted
    simp only [isUnneeded, Bool.and_eq_true, Bool.not_eq_true', List.contains_eq_mem,
      decide_eq_false_iff_not] at hun
    obtain ⟨⟨hseg, hold⟩, href⟩ := hun
    rw [hobject] at hold
    exact ⟨hstart, hseg, ⟨object, hlookup, hold⟩, href⟩
  · rintro ⟨hstart, hseg, ⟨object, hlookup, hold⟩, href⟩
    refine ⟨objectInfo path object, List.mem_filter.mpr ⟨?_, ?_⟩, rfl⟩
    · exact mem_listObjects.mpr ⟨hstart, object, hlookup, rfl⟩
    · simp only [isUnneeded, Bool.and_eq_true, Bool.not_eq_true', List.contains_eq_mem,
        decide_eq_false_iff_not]
      exact ⟨⟨hseg, hold⟩, href⟩

/-- Phase 1 for a stream. -/
theorem leaves_cleanupLiveStream (config : RetentionConfig) (now : DateTime) (faults : StoreFaults)
    (store : MediaStore) (id : StreamId) :
    Leaves config now faults store
      (storeAfter (cleanupLiveStream config now faults store id)) id := by
  intro path hpath
  unfold cleanupLiveStream
  split
  · rename_i hlist
    exact ⟨fun h => absurd h.listed (by simp [hlist]), fun _ => rfl⟩
  · rename_i hlist
    dsimp only
    split
    · rename_i hpanic
      refine ⟨fun h => ?_, fun _ => rfl⟩
      obtain ⟨_, retention, _, hretention, _⟩ := h.expired
      exact absurd (hpanic.symm.trans hretention) (by simp)
    · rename_i retention hretention
      rw [storeAfter, lookup_foldl_tryDeleteObject]
      constructor
      · intro h
        obtain ⟨object, retention', hlookup, hretention', hold⟩ := h.expired
        obtain rfl := Option.some.inj (hretention.symm.trans hretention')
        refine if_pos ⟨(mem_unneeded retention).mpr ?_, h.deletable⟩
        exact ⟨hpath, h.segment, ⟨object, hlookup, hold⟩, h.unreferenced⟩
      · intro h
        refine if_neg ?_
        rintro ⟨hmem, hdelete⟩
        obtain ⟨-, hseg, ⟨object, hlookup, hold⟩, hun⟩ := (mem_unneeded retention).mp hmem
        exact h ⟨by simpa using hlist, hdelete, hseg,
          ⟨object, retention, hlookup, hretention, hold⟩, hun⟩

/-- Phase 1 for a stream does not touch the others. -/
theorem agreeOn_cleanupLiveStream {other : StreamId} (hne : other ≠ id) (config : RetentionConfig)
    (now : DateTime) (faults : StoreFaults) (store : MediaStore) :
    AgreeOn id store (storeAfter (cleanupLiveStream config now faults store other)) := by
  intro path hpath
  unfold cleanupLiveStream
  split
  · rfl
  · dsimp only
    split
    · rfl
    · rename_i retention _
      rw [storeAfter, lookup_foldl_tryDeleteObject]
      refine if_neg ?_
      rintro ⟨hmem, -⟩
      exact hne (eq_of_streamPrefix ((mem_unneeded retention).mp hmem).1 hpath)

/-- A panic deletes nothing, here or later. -/
theorem cleanupLiveStream_error
    (h : cleanupLiveStream config now faults store id = .error store') :
    config.retention = none ∧ store' = store := by
  unfold cleanupLiveStream at h
  split at h
  · exact absurd h (by simp)
  · dsimp only at h
    split at h
    · rename_i hpanic
      exact ⟨hpanic, (Except.error.inj h).symm⟩
    · exact absurd h (by simp)

theorem leaves_of_panic (hpanic : config.retention = none) (h : AgreeOn id store store') :
    Leaves config now faults store store' id := by
  refine fun path hpath => ⟨fun hd => ?_, fun _ => h path hpath⟩
  obtain ⟨_, retention, _, hretention, _⟩ := hd.expired
  exact absurd (hpanic.symm.trans hretention) (by simp)

theorem agreeOn_foldlM (config : RetentionConfig) (now : DateTime) (faults : StoreFaults)
    (store : MediaStore) {ids : List StreamId} (hid : id ∉ ids) :
    AgreeOn id store (storeAfter (ids.foldlM (cleanupLiveStream config now faults) store)) := by
  induction ids generalizing store with
  | nil => exact fun _ _ => rfl
  | cons other ids ih =>
    rw [List.mem_cons, not_or] at hid
    have hfirst := agreeOn_cleanupLiveStream (Ne.symm hid.1) config now faults store
    rw [List.foldlM_cons]
    cases hstep : cleanupLiveStream config now faults store other with
    | error s =>
      rw [hstep] at hfirst
      exact hfirst
    | ok s =>
      rw [hstep] at hfirst
      exact fun path hpath => (ih s hid.2 path hpath).trans (hfirst path hpath)

/-- Phase 1 over all LIVE streams does to a stream what it does to it alone. -/
theorem leaves_foldlM (config : RetentionConfig) (now : DateTime) (faults : StoreFaults)
    (store : MediaStore) {ids : List StreamId} (hnodup : ids.Nodup) (hid : id ∈ ids) :
    Leaves config now faults store
      (storeAfter (ids.foldlM (cleanupLiveStream config now faults) store)) id := by
  induction ids generalizing store with
  | nil => exact absurd hid List.not_mem_nil
  | cons other ids ih =>
    obtain ⟨hother, hnodup⟩ := List.nodup_cons.mp hnodup
    rw [List.foldlM_cons]
    by_cases heq : other = id
    · subst heq
      have hown := leaves_cleanupLiveStream config now faults store other
      cases hstep : cleanupLiveStream config now faults store other with
      | error s =>
        rw [hstep] at hown
        exact hown
      | ok s =>
        rw [hstep] at hown
        have hrest := agreeOn_foldlM config now faults s hother
        refine fun path hpath => ⟨fun hd => ?_, fun hd => ?_⟩
        · exact (hrest path hpath).trans ((hown path hpath).1 hd)
        · exact (hrest path hpath).trans ((hown path hpath).2 hd)
    · have hfirst := agreeOn_cleanupLiveStream heq config now faults store
      cases hstep : cleanupLiveStream config now faults store other with
      | error s =>
        rw [hstep] at hfirst
        exact leaves_of_panic (cleanupLiveStream_error hstep).1 hfirst
      | ok s =>
        rw [hstep] at hfirst
        have hmem : id ∈ ids := (List.mem_cons.mp hid).resolve_left (Ne.symm heq)
        refine fun path hpath => ?_
        rw [← hfirst path hpath, ← Deletes.congr hfirst hpath]
        exact ih s hnodup hmem path hpath

/-- Phase 2 does not touch a stream that is not in ERROR. -/
theorem agreeOn_deletePrefix {ids : List StreamId} (hid : id ∉ ids) (kept : List Text)
    (store : MediaStore) :
    AgreeOn id store (ids.foldl
      (fun store id => store.deletePrefix (streamPrefix id) kept) store) := by
  induction ids generalizing store with
  | nil => exact fun _ _ => rfl
  | cons other ids ih =>
    rw [List.mem_cons, not_or] at hid
    refine fun path hpath => (ih hid.2 _ path hpath).trans ?_
    rw [lookup_deletePrefix]
    exact if_neg fun hother => hid.1 (eq_of_streamPrefix hpath hother.1)

/-- What a whole cycle leaves of a LIVE stream's objects. -/
theorem leaves_runCleanupCycle (config : RetentionConfig) (now : DateTime) (faults : StoreFaults)
    (store : MediaStore) (hlive : id ∈ liveStreams m) :
    Leaves config now faults store
      (storeAfter (runCleanupCycle m config now faults store)) id := by
  have hphase1 := leaves_foldlM config now faults store (Map.nodup_keysWhere _ _) hlive
  have hphase2 : id ∉ m.streams.keysWhere (errorExpired now) := by
    intro hmem
    obtain ⟨entry, hentry, herror⟩ := Map.mem_keysWhere.mp hmem
    obtain ⟨entry', hentry', hstate⟩ := Map.mem_keysWhere.mp hlive
    obtain rfl := Option.some.inj (hentry.symm.trans hentry')
    have herror := (of_decide_eq_true herror).1
    rw [of_decide_eq_true hstate] at herror
    exact absurd herror (by decide)
  unfold runCleanupCycle
  unfold liveStreams at hphase1 ⊢
  cases hfold : (m.streams.keysWhere fun entry => decide (entry.state = .live)).foldlM
      (cleanupLiveStream config now faults) store with
  | error s =>
    rw [hfold] at hphase1
    exact hphase1
  | ok s =>
    rw [hfold] at hphase1
    have hrest := agreeOn_deletePrefix hphase2 faults.kept s
    refine fun path hpath => ⟨fun hd => ?_, fun hd => ?_⟩
    · exact (hrest path hpath).trans ((hphase1 path hpath).1 hd)
    · exact (hrest path hpath).trans ((hphase1 path hpath).2 hd)

end Cycle

end StreamInfa.Storage
