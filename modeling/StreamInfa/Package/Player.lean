import StreamInfa.Package.Fragment
import StreamInfa.Package.Trace
import StreamInfa.Transcode.Conservation

/-!
What a player gets back of a VOD rendition.

`playVod` reads the media playlist up to its end, fetches the files that it names and puts their
media together. `HoldsLast` is what it needs of the storage: at each path the
last write to it. **`playVod_packagerTrace`** says that it then gets the video of the rendition's
segments, in full and in their order.
-/

namespace StreamInfa.Package

open Transcode

/-- The media of a rendition, as `fetch` gives its objects: that of the files its playlist names, if
this has an end. -/
def playVod (fetch : Text → Option Bytes) (streamId rendition : Text) : Option Bytes :=
  (fetch (mediaPlaylistPath streamId rendition)).bind fun playlist =>
    if (lines (fromUtf8Lossy playlist)).getLast? = some endlistTag then
      ((playlistUris (fromUtf8Lossy playlist)).mapM fun uri =>
        ((fetch (renditionPrefix streamId rendition ++ uri)).bind decodeFragment).map
          (·.mediaData)).map List.flatten
    else none

/-- At each path that is written to there is the last write to it. -/
def HoldsLast (writes : List StorageWrite) (fetch : Text → Option Bytes) : Prop :=
  ∀ path write, (writes.filter fun w => w.path = path).getLast? = some write →
    fetch path = some write.data

section Fetching

variable {writes : List StorageWrite} {fetch : Text → Option Bytes} {write : StorageWrite}

/-- A write that no other write to its path differs from is fetched. -/
theorem HoldsLast.fetch_of_unique (h : HoldsLast writes fetch) (hmem : write ∈ writes)
    (hunique : ∀ w ∈ writes, w.path = write.path → w = write) :
    fetch write.path = some write.data := by
  have hown : write ∈ writes.filter fun w => w.path = write.path :=
    List.mem_filter.mpr ⟨hmem, decide_eq_true rfl⟩
  have hlast := List.getLast?_eq_some_getLast (List.ne_nil_of_mem hown)
  obtain ⟨hin, hpath⟩ := List.mem_filter.mp (List.getLast_mem (List.ne_nil_of_mem hown))
  rw [h write.path _ hlast, hunique _ hin (of_decide_eq_true hpath)]

/-- The files of a list are fetched one after another. -/
theorem mapM_eq_some_of_forall {α β : Type*} {f : α → Option β} {g : α → β} {xs : List α}
    (h : ∀ x ∈ xs, f x = some (g x)) : xs.mapM f = some (xs.map g) := by
  induction xs with
  | nil => rfl
  | cons x xs ih =>
    obtain ⟨hx, hxs⟩ := List.forall_mem_cons.mp h
    rw [List.mapM_cons, hx, ih hxs]
    rfl

end Fetching

section Vod

variable {env : PackagerEnv} {input : List (EncodedSegment × DateTime)} {r : RenditionId}
  {fetch : Text → Option Bytes}

/-- Once it is written, the file of a segment holds the segment's media. -/
theorem fetch_segment {writes : List StorageWrite} (hnum : Numbered input)
    (hsub : writes ⊆ packagerTrace env input) (hfetch : HoldsLast writes fetch)
    {x : EncodedSegment × DateTime} (hx : x ∈ ownInput r input)
    (hmem : segmentWrite env x.1 (encoded (generateMediaSegment (mediaSegmentParams x.1))) ∈ writes)
    (hsize : x.1.videoData.length + 8 < 2 ^ 32) :
    ((fetch (renditionPrefix env.streamId.toText r.asStr ++ segmentFilename x.1.sequence)).bind
      decodeFragment).map (·.mediaData) = some x.1.videoData := by
  obtain rfl := rendition_of_mem_ownInput x hx
  set write := segmentWrite env x.1 (encoded (generateMediaSegment (mediaSegmentParams x.1)))
  have hpath : write.path = renditionPrefix env.streamId.toText x.1.rendition.asStr ++
      segmentFilename x.1.sequence :=
    segmentWrite_path env x.1 _
  rw [← hpath, hfetch.fetch_of_unique hmem fun w hw heq =>
    eq_segmentWrite_of_path hnum (List.mem_filter.mp hx).1 (hsub hw) heq, Option.bind_some]
  have hdata : write.data =
      (segmentBoxes (mediaSegmentParams x.1)).flatMap fun b => writeBox b.1 b.2 := by
    simp only [write, generateMediaSegment_eq_boxes]
    rfl
  rw [hdata, decodeFragment_segmentBoxes _ (by simp [mediaSegmentParams]) hsize]
  rfl

/-- The segments of a rendition are its input, by position. -/
theorem map_sequence_ownInput (hnum : Numbered input) :
    (List.range (ownInput r input).length).map segmentFilename =
      (ownInput r input).map fun x => segmentFilename x.1.sequence := by
  rw [← hnum.sequence r, List.map_map]
  rfl

/-- **What is packaged is played.** Where each path holds the last write to it, a player gets the
video of the segments of a VOD rendition that has received its last one. -/
theorem playVod_packagerTrace (hvod : env.isVod = true) (hnum : Numbered input)
    (hlast : ∃ x, (ownInput r input).getLast? = some x ∧ x.1.isLast = true)
    (hsize : ∀ x ∈ ownInput r input, x.1.videoData.length + 8 < 2 ^ 32)
    (hfetch : HoldsLast (packagerTrace env input) fetch) :
    playVod fetch env.streamId.toText r.asStr =
      some (segmentsVideo ((ownInput r input).map Prod.fst)) := by
  obtain ⟨earlier, last, hplaylists, huris, hend, -⟩ :=
    renditionTrace_vod hvod rendition_of_mem_ownInput (hnum.isLast r) hlast
  have hplaylist : fetch (mediaPlaylistPath env.streamId.toText r.asStr) = some last.data := by
    refine hfetch _ last ?_
    rw [← playlistsOf, playlistsOf_packagerTrace, hplaylists, List.getLast?_concat]
  have huris' : playlistUris (fromUtf8Lossy last.data) =
      (ownInput r input).map fun x => segmentFilename x.1.sequence :=
    huris.trans (map_sequence_ownInput hnum)
  have hend' : (lines (fromUtf8Lossy last.data)).getLast? = some endlistTag := hend
  have hmedia : ((ownInput r input).map fun x => segmentFilename x.1.sequence).mapM (fun uri =>
      ((fetch (renditionPrefix env.streamId.toText r.asStr ++ uri)).bind decodeFragment).map
        (·.mediaData)) = some ((ownInput r input).map fun x => x.1.videoData) := by
    rw [List.mapM_map]
    exact mapM_eq_some_of_forall fun x hx =>
      fetch_segment hnum (List.Subset.refl _) hfetch hx
        (segmentWrite_mem_packagerTrace (List.mem_filter.mp hx).1)
        (hsize x hx)
  rw [playVod, hplaylist, Option.bind_some, if_pos hend', huris', hmedia, Option.map_some,
    segmentsVideo, List.flatMap_map, List.flatMap_def]

end Vod

end StreamInfa.Package
