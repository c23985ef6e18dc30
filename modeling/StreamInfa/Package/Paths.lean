import StreamInfa.Package.Manifest
import Mathlib.Order.Interval.Set.Defs
import Mathlib.Order.Monotone.Defs

/-!
The scheme of the storage paths (the path helpers of `src/package/manifest.rs`).

An `ObjectName` says which object of which stream is meant, and `ObjectName.path` is where the
helpers put it. A path is the components of its name joined by slashes, and as none of them
holds a slash it is split into them again (`splitOn_path`): different objects never share a
path (`path_injective`). The names of the segments are numerals of one width up to 999999, so
that a listing in the order of the paths has them in the order of their numbers.
-/

namespace StreamInfa.Package

/-- A text that can stand between two slashes. -/
abbrev PathComponent := {t : Text // '/' ∉ t}

/-- The spelling of a stream identifier as a component. -/
def streamComponent (id : StreamId) : PathComponent := ⟨id.toText, id.slash_notMem_toText⟩

def renditionComponent (r : RenditionId) : PathComponent := ⟨r.asStr, r.slash_notMem_asStr⟩

/-- The objects that the path helpers name. -/
inductive ObjectName where
  | segment (streamId rendition : PathComponent) (sequence : ℕ)
  | initSegment (streamId rendition : PathComponent)
  | mediaPlaylist (streamId rendition : PathComponent)
  | masterPlaylist (streamId : PathComponent)
deriving DecidableEq

def ObjectName.path : ObjectName → Text
  | .segment streamId rendition sequence => segmentPath streamId rendition sequence
  | .initSegment streamId rendition => initSegmentPath streamId rendition
  | .mediaPlaylist streamId rendition => mediaPlaylistPath streamId rendition
  | .masterPlaylist streamId => masterPlaylistPath streamId

def ObjectName.components : ObjectName → List Text
  | .segment streamId rendition sequence => [streamId, rendition, segmentFilename sequence]
  | .initSegment streamId rendition => [streamId, rendition, "init.mp4".toList]
  | .mediaPlaylist streamId rendition => [streamId, rendition, "media.m3u8".toList]
  | .masterPlaylist streamId => [streamId, "master.m3u8".toList]

def ObjectName.streamId : ObjectName → PathComponent
  | .segment streamId _ _ | .initSegment streamId _ | .mediaPlaylist streamId _
  | .masterPlaylist streamId => streamId

namespace ObjectName

theorem path_eq_intercalate (o : ObjectName) : o.path = List.intercalate ['/'] o.components := by
  cases o with
  | segment s r n => simp [path, components, segmentPath, segmentFilename]
  | initSegment s r => simp [path, components, initSegmentPath]
  | mediaPlaylist s r => simp [path, components, mediaPlaylistPath]
  | masterPlaylist s => simp [path, components, masterPlaylistPath]

theorem slash_notMem_components (o : ObjectName) : ∀ t ∈ o.components, '/' ∉ t := by
  cases o with
  | segment s r n =>
    simp only [components, List.forall_mem_cons]
    exact ⟨s.2, r.2, slash_notMem_segmentFilename n, List.forall_mem_nil _⟩
  | initSegment s r | mediaPlaylist s r =>
    simp only [components, List.forall_mem_cons]
    exact ⟨s.2, r.2, by decide, List.forall_mem_nil _⟩
  | masterPlaylist s =>
    simp only [components, List.forall_mem_cons]
    exact ⟨s.2, by decide, List.forall_mem_nil _⟩

/-- The components are read back from the path. -/
theorem splitOn_path (o : ObjectName) : o.path.splitOn '/' = o.components := by
  have hne : o.components ≠ [] := by
    cases o with
    | segment | initSegment | mediaPlaylist | masterPlaylist => exact List.cons_ne_nil _ _
  rw [path_eq_intercalate, List.splitOn_intercalate _ o.slash_notMem_components hne]

/-- A segment's file has none of the fixed names. -/
theorem components_segment_ne {s r s' r' : PathComponent} {n : ℕ} :
    components (.segment s r n) ≠ components (.initSegment s' r') ∧
      components (.segment s r n) ≠ components (.mediaPlaylist s' r') := by
  simp only [components, ne_eq, List.cons.injEq, and_true, not_and]
  constructor
  · exact fun _ _ => segmentFilename_ne (c := 'i') rfl rfl n
  · exact fun _ _ => segmentFilename_ne (c := 'm') rfl rfl n

/-- The files of a rendition are told apart by their names, and the master playlist is one
component short of them. -/
theorem components_injective : Function.Injective components := by
  intro o o' h
  cases o with
  | segment s r n =>
    cases o' with
    | segment s' r' n' =>
      simp only [components, List.cons.injEq, and_true] at h
      obtain ⟨hs, hr, hfile⟩ := h
      rw [Subtype.ext hs, Subtype.ext hr, segmentFilename_injective hfile]
    | initSegment s' r' => exact absurd h components_segment_ne.1
    | mediaPlaylist s' r' => exact absurd h components_segment_ne.2
    | masterPlaylist s' => simp [components] at h
  | initSegment s r =>
    cases o' with
    | segment s' r' n' => exact absurd h.symm components_segment_ne.1
    | initSegment s' r' =>
      simp only [components, List.cons.injEq, and_true] at h
      rw [Subtype.ext h.1, Subtype.ext h.2]
    | mediaPlaylist s' r' => simp [components] at h
    | masterPlaylist s' => simp [components] at h
  | mediaPlaylist s r =>
    cases o' with
    | segment s' r' n' => exact absurd h.symm components_segment_ne.2
    | initSegment s' r' => simp [components] at h
    | mediaPlaylist s' r' =>
      simp only [components, List.cons.injEq, and_true] at h
      rw [Subtype.ext h.1, Subtype.ext h.2]
    | masterPlaylist s' => simp [components] at h
  | masterPlaylist s =>
    cases o' with
    | segment | initSegment | mediaPlaylist => simp [components] at h
    | masterPlaylist s' =>
      simp only [components, List.cons.injEq, and_true] at h
      rw [Subtype.ext h]

theorem path_injective : Function.Injective path := by
  intro o o' h
  apply components_injective
  rw [← splitOn_path, h, splitOn_path]

/-- Everything under the prefix of a stream is the stream's own. -/
theorem prefix_path_iff (streamId : PathComponent) (o : ObjectName) :
    streamId.1 ++ ['/'] <+: o.path ↔ o.streamId = streamId := by
  obtain ⟨rest, hpath⟩ : ∃ rest, o.path = o.streamId.1 ++ '/' :: rest := by
    cases o with
    | segment s r n =>
      exact ⟨r.1 ++ '/' :: segmentFilename n, by
        simp [path, ObjectName.streamId, segmentPath, segmentFilename]⟩
    | initSegment s r =>
      exact ⟨r.1 ++ "/init.mp4".toList, by simp [path, ObjectName.streamId, initSegmentPath]⟩
    | mediaPlaylist s r =>
      exact ⟨r.1 ++ "/media.m3u8".toList, by simp [path, ObjectName.streamId, mediaPlaylistPath]⟩
    | masterPlaylist s =>
      exact ⟨"master.m3u8".toList, by simp [path, ObjectName.streamId, masterPlaylistPath]⟩
  constructor
  · rintro ⟨tail, htail⟩
    rw [hpath, List.append_assoc, List.singleton_append] at htail
    exact Subtype.ext (first_unique streamId.2 o.streamId.2 htail).1.symm
  · rintro rfl
    exact ⟨rest, by rw [hpath, List.append_assoc, List.singleton_append]⟩

end ObjectName

section Stored

variable {id id' : StreamId} {r r' : RenditionId} {n n' : ℕ}

theorem segmentPath_injective
    (h : segmentPath id.toText r.asStr n = segmentPath id'.toText r'.asStr n') :
    id = id' ∧ r = r' ∧ n = n' := by
  have hname := @ObjectName.path_injective (.segment (streamComponent id) (renditionComponent r) n)
    (.segment (streamComponent id') (renditionComponent r') n') h
  obtain ⟨hid, hr, hn⟩ := ObjectName.segment.inj hname
  exact ⟨StreamId.toText_injective (congrArg Subtype.val hid),
    RenditionId.asStr_injective (congrArg Subtype.val hr), hn⟩

theorem mediaPlaylistPath_injective
    (h : mediaPlaylistPath id.toText r.asStr = mediaPlaylistPath id'.toText r'.asStr) :
    id = id' ∧ r = r' := by
  have hname := @ObjectName.path_injective
    (.mediaPlaylist (streamComponent id) (renditionComponent r))
    (.mediaPlaylist (streamComponent id') (renditionComponent r')) h
  obtain ⟨hid, hr⟩ := ObjectName.mediaPlaylist.inj hname
  exact ⟨StreamId.toText_injective (congrArg Subtype.val hid),
    RenditionId.asStr_injective (congrArg Subtype.val hr)⟩

theorem initSegmentPath_ne_masterPlaylistPath :
    initSegmentPath id.toText r.asStr ≠ masterPlaylistPath id'.toText := by
  intro h
  have hname := @ObjectName.path_injective
    (.initSegment (streamComponent id) (renditionComponent r))
    (.masterPlaylist (streamComponent id')) h
  cases hname

end Stored

/-! ### Order -/

theorem segmentFilename_strictMonoOn : StrictMonoOn segmentFilename (Set.Iio (10 ^ 6)) :=
  fun _ _ _ hn hlt => decimalPad_append_lt hn hlt _ _

theorem segmentPath_strictMonoOn (streamId rendition : Text) :
    StrictMonoOn (segmentPath streamId rendition) (Set.Iio (10 ^ 6)) := by
  intro m hm n hn hlt
  rw [segmentPath_eq, segmentPath_eq]
  exact List.append_left_lt (segmentFilename_strictMonoOn hm hn hlt)

/-- **The scheme of the storage paths**: objects share a path only if they are the same, a
segment is stored under its file name, and up to 999999 the file names are ordered as the
numbers of the segments. -/
theorem path_scheme :
    Function.Injective ObjectName.path ∧
    (∀ streamId rendition sequence, segmentPath streamId rendition sequence =
      streamId ++ "/".toList ++ rendition ++ "/".toList ++ segmentFilename sequence) ∧
    ∀ m n, m < 10 ^ 6 → n < 10 ^ 6 → (segmentFilename m < segmentFilename n ↔ m < n) := by
  refine ⟨ObjectName.path_injective, fun streamId rendition sequence => ?_, fun m n hm hn => ?_⟩
  · rw [segmentPath_eq, renditionPrefix]
  · exact segmentFilename_strictMonoOn.lt_iff_lt hm hn

theorem path_scheme_nine : segmentFilename 9 < segmentFilename 10 :=
  (path_scheme.2.2 9 10 (by decide) (by decide)).mpr (by decide)

/-- A seventh digit breaks the order. -/
example : segmentFilename 1000000 < segmentFilename 999999 := by decide +kernel

end StreamInfa.Package
