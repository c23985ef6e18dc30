import StreamInfa.Transcode.Profile

/-!
HLS manifests and storage paths (`src/package/manifest.rs`).

A playlist is written line by line, so it is the `unlines` of a list of lines.
`playlistUris` is what a player takes from a playlist: the lines that are neither
blank nor tags. `playlistUris_generateMediaPlaylist` says that a media playlist
names exactly the files of its segments, and `map_erasePdt_mediaPlaylistLines` that the
values of the PROGRAM-DATE-TIME tags are the only place where the clock shows.

Everything of one rendition is stored under `renditionPrefix`; the four path
functions never collide.
-/

namespace StreamInfa.Package

/-- Information about a rendition for the multivariant playlist. -/
structure RenditionInfo where
  id : RenditionId
  width : UInt32
  height : UInt32
  videoBitrateKbps : UInt32
  audioBitrateKbps : UInt32
  profile : Text
  level : Text
  frameRate : ℚ
  hasAudio : Bool
deriving DecidableEq, Repr

/-- A segment entry for the media playlist. -/
structure PlaylistSegment where
  sequence : ℕ
  durationSecs : ℚ
  filename : Text
  programDateTime : Option DateTime
deriving DecidableEq, Repr

/-! ### Multivariant playlist -/

/-- The lines of one rendition: its stream information, its playlist and a blank. -/
def variantLines (rendition : RenditionInfo) : List Text :=
  let bandwidth :=
    Transcode.bandwidth rendition.videoBitrateKbps rendition.audioBitrateKbps
  let codecs :=
    Transcode.codecsAttribute rendition.profile rendition.level rendition.hasAudio
  ["#EXT-X-STREAM-INF:BANDWIDTH=".toList ++ decimal bandwidth.toNat ++
      ",RESOLUTION=".toList ++ decimal rendition.width.toNat ++ "x".toList ++
      decimal rendition.height.toNat ++ ",CODECS=\"".toList ++ codecs ++
      "\",FRAME-RATE=".toList ++ fixed3 rendition.frameRate,
    rendition.id.asStr ++ "/media.m3u8".toList, []]

/-- Generate a multivariant (master) playlist. -/
def generateMultivariantPlaylist (renditions : List RenditionInfo) (hlsVersion : UInt32) : Text :=
  unlines (["#EXTM3U".toList, "#EXT-X-VERSION:".toList ++ decimal hlsVersion.toNat,
    "#EXT-X-INDEPENDENT-SEGMENTS".toList, []] ++ renditions.flatMap variantLines)

/-! ### Media playlist -/

/-- EXT-X-TARGETDURATION: the rounded-up maximum segment duration, at least 1. -/
def targetDuration (segments : List PlaylistSegment) : UInt32 :=
  let longest := segments.foldl (fun d s => max d s.durationSecs) 0
  max (truncU32 longest.ceil) 1

def pdtTag : Text := "#EXT-X-PROGRAM-DATE-TIME:".toList

def endlistTag : Text := "#EXT-X-ENDLIST".toList

/-- The lines before the first segment. -/
def headerLines (segments : List PlaylistSegment) (hlsVersion : UInt32) (isVod : Bool) :
    List Text :=
  ["#EXTM3U".toList, "#EXT-X-VERSION:".toList ++ decimal hlsVersion.toNat,
    "#EXT-X-TARGETDURATION:".toList ++ decimal (targetDuration segments).toNat] ++
  (if isVod then ["#EXT-X-PLAYLIST-TYPE:VOD".toList] else []) ++
  ["#EXT-X-MEDIA-SEQUENCE:".toList ++ decimal ((segments.head?.map (·.sequence)).getD 0),
    "#EXT-X-MAP:URI=\"init.mp4\"".toList, []]

def pdtLines (segment : PlaylistSegment) : List Text :=
  match segment.programDateTime with
  | some pdt => [pdtTag ++ pdt.format]
  | none => []

def segmentLines (segment : PlaylistSegment) : List Text :=
  pdtLines segment ++
    ["#EXTINF:".toList ++ fixed3 segment.durationSecs ++ ",".toList, segment.filename]

def mediaPlaylistLines (segments : List PlaylistSegment) (hlsVersion : UInt32)
    (isVod isFinished : Bool) : List Text :=
  headerLines segments hlsVersion isVod ++ segments.flatMap segmentLines ++
    if isFinished then [endlistTag] else []

/-- Generate a media playlist for a single rendition. ENDLIST is emitted only when
the rendition is finished. -/
def generateMediaPlaylist (segments : List PlaylistSegment) (hlsVersion : UInt32)
    (isVod isFinished : Bool) : Text :=
  unlines (mediaPlaylistLines segments hlsVersion isVod isFinished)

/-! ### Storage path helpers -/

def segmentPath (streamId rendition : Text) (sequence : ℕ) : Text :=
  streamId ++ "/".toList ++ rendition ++ "/".toList ++ decimalPad 6 sequence ++ ".m4s".toList

def initSegmentPath (streamId rendition : Text) : Text :=
  streamId ++ "/".toList ++ rendition ++ "/init.mp4".toList

def mediaPlaylistPath (streamId rendition : Text) : Text :=
  streamId ++ "/".toList ++ rendition ++ "/media.m3u8".toList

def masterPlaylistPath (streamId : Text) : Text :=
  streamId ++ "/master.m3u8".toList

/-- Segment filename, without path prefix. -/
def segmentFilename (sequence : ℕ) : Text := decimalPad 6 sequence ++ ".m4s".toList

/-- Where the objects of a rendition are stored. -/
def renditionPrefix (streamId rendition : Text) : Text :=
  streamId ++ "/".toList ++ rendition ++ "/".toList

section Paths

variable {streamId r r' : Text} {m n : ℕ}

theorem segmentPath_eq (streamId rendition : Text) (sequence : ℕ) :
    segmentPath streamId rendition sequence =
      renditionPrefix streamId rendition ++ segmentFilename sequence := by
  simp only [segmentPath, renditionPrefix, segmentFilename, List.append_assoc]

theorem initSegmentPath_eq (streamId rendition : Text) :
    initSegmentPath streamId rendition =
      renditionPrefix streamId rendition ++ "init.mp4".toList := by
  simp [initSegmentPath, renditionPrefix]

theorem mediaPlaylistPath_eq (streamId rendition : Text) :
    mediaPlaylistPath streamId rendition =
      renditionPrefix streamId rendition ++ "media.m3u8".toList := by
  simp [mediaPlaylistPath, renditionPrefix]

/-- A segment's name starts with a digit. -/
theorem segmentFilename_eq_cons (n : ℕ) :
    ∃ c rest, segmentFilename n = c :: rest ∧ c.isDigit := by
  cases h : decimalPad 6 n with
  | nil => exact absurd h (decimalPad_ne_nil 6 n)
  | cons c rest =>
    refine ⟨c, rest ++ ".m4s".toList, by rw [segmentFilename, h, List.cons_append], ?_⟩
    exact isDigit_of_mem_decimalPad (h ▸ List.mem_cons_self)

theorem segmentFilename_ne {t : Text} {c : Char} (ht : t.head? = some c)
    (hc : c.isDigit = false) (n : ℕ) : segmentFilename n ≠ t := by
  rintro rfl
  obtain ⟨d, rest, hd, hdigit⟩ := segmentFilename_eq_cons n
  rw [hd, List.head?_cons] at ht
  rw [Option.some.inj ht, hc] at hdigit
  exact absurd hdigit (by decide)

theorem segmentFilename_injective (h : segmentFilename m = segmentFilename n) : m = n :=
  decimalPad_injective (List.append_cancel_right h)

theorem slash_notMem_segmentFilename (n : ℕ) : '/' ∉ segmentFilename n := by
  rw [segmentFilename, List.mem_append, not_or]
  exact ⟨notMem_of_digits (fun _ h => isDigit_of_mem_decimalPad h) (by decide), by decide⟩

theorem segmentPath_ne_initSegmentPath : segmentPath streamId r n ≠ initSegmentPath streamId r := by
  rw [segmentPath_eq, initSegmentPath_eq]
  intro h
  exact segmentFilename_ne (c := 'i') rfl rfl n (List.append_cancel_left h)

theorem segmentPath_ne_mediaPlaylistPath :
    segmentPath streamId r n ≠ mediaPlaylistPath streamId r := by
  rw [segmentPath_eq, mediaPlaylistPath_eq]
  intro h
  exact segmentFilename_ne (c := 'm') rfl rfl n (List.append_cancel_left h)

theorem initSegmentPath_ne_mediaPlaylistPath :
    initSegmentPath streamId r ≠ mediaPlaylistPath streamId r := by
  rw [initSegmentPath_eq, mediaPlaylistPath_eq]
  intro h
  exact absurd (List.append_cancel_left h) (by decide)

theorem suffix_m3u8_masterPlaylistPath (streamId : Text) :
    ".m3u8".toList <:+ masterPlaylistPath streamId :=
  ⟨streamId ++ "/master".toList, by simp [masterPlaylistPath]⟩

theorem suffix_m3u8_mediaPlaylistPath (streamId rendition : Text) :
    ".m3u8".toList <:+ mediaPlaylistPath streamId rendition :=
  ⟨streamId ++ "/".toList ++ rendition ++ "/media".toList, by simp [mediaPlaylistPath]⟩

/-- Whether an object belongs to a rendition. -/
def isOfRendition (streamId rendition path : Text) : Bool :=
  (renditionPrefix streamId rendition).isPrefixOf path

theorem isOfRendition_append (file : Text) :
    isOfRendition streamId r (renditionPrefix streamId r ++ file) = true :=
  List.isPrefixOf_iff_prefix.mpr (List.prefix_append _ _)

/-- The text before the first slash of `a ++ '/' :: t` is `a`. -/
theorem takeWhile_slash {a : Text} (ha : '/' ∉ a) (t : Text) :
    (a ++ '/' :: t).takeWhile (· ≠ '/') = a := by
  rw [List.takeWhile_append_of_pos]
  · simp
  · intro c hc
    exact decide_eq_true fun h => ha (h ▸ hc)

/-- A text is in one way a text without slashes, a slash and the rest. -/
theorem first_unique {a b t u : Text} (ha : '/' ∉ a) (hb : '/' ∉ b)
    (h : a ++ '/' :: t = b ++ '/' :: u) : a = b ∧ t = u := by
  have hfirst := congrArg (List.takeWhile (· ≠ '/')) h
  rw [takeWhile_slash ha, takeWhile_slash hb] at hfirst
  subst hfirst
  exact ⟨rfl, (List.cons.inj (List.append_cancel_left h)).2⟩

/-- An object of another rendition is not one of this. -/
theorem isOfRendition_append_ne (hr : '/' ∉ r) (hr' : '/' ∉ r') (hne : r ≠ r') (file : Text) :
    isOfRendition streamId r (renditionPrefix streamId r' ++ file) = false := by
  rw [← Bool.not_eq_true, isOfRendition, List.isPrefixOf_iff_prefix]
  rintro ⟨t, ht⟩
  have htail : r ++ '/' :: t = r' ++ '/' :: file := by
    simpa [renditionPrefix] using ht
  exact hne (first_unique hr hr' htail).1

theorem isOfRendition_master :
    isOfRendition streamId r (masterPlaylistPath streamId) = false := by
  rw [← Bool.not_eq_true, isOfRendition, List.isPrefixOf_iff_prefix]
  rintro ⟨t, ht⟩
  have htail : r ++ '/' :: t = "master.m3u8".toList := by
    simpa [renditionPrefix, masterPlaylistPath] using ht
  have hmem : '/' ∈ "master.m3u8".toList := by
    rw [← htail]
    simp
  exact absurd hmem (by decide)

end Paths

/-! ### Reading a media playlist -/

/-- A line that names a file: not blank, not a tag or comment. -/
def isUri (l : Text) : Bool := l ≠ [] && l.head? ≠ some '#'

/-- The files a playlist names. -/
def playlistUris (playlist : Text) : List Text := (lines playlist).filter isUri

/-- Forget the value of a PROGRAM-DATE-TIME tag. -/
def erasePdt (l : Text) : Text := if pdtTag.isPrefixOf l then pdtTag else l

section Reading

variable {segments : List PlaylistSegment} {hlsVersion : UInt32} {isVod isFinished : Bool}

theorem singleLine_headerLines : ∀ l ∈ headerLines segments hlsVersion isVod, SingleLine l := by
  intro l hl
  have hdec : ∀ (tag : Text) (n : ℕ), SingleLine tag → SingleLine (tag ++ decimal n) :=
    fun tag n htag => htag.append (singleLine_decimal n)
  simp only [headerLines, List.mem_append, List.mem_cons, List.not_mem_nil, or_false] at hl
  rcases hl with ((rfl | rfl | rfl) | hl) | rfl | rfl | rfl
  · decide
  · exact hdec _ _ (by decide)
  · exact hdec _ _ (by decide)
  · split at hl
    · rw [List.mem_singleton.mp hl]
      decide
    · exact absurd hl List.not_mem_nil
  · exact hdec _ _ (by decide)
  · decide
  · decide

theorem getLast?_headerLines : (headerLines segments hlsVersion isVod).getLast? = some [] := by
  rw [headerLines, List.getLast?_append]
  rfl

theorem singleLine_segmentLines {s : PlaylistSegment} (hs : SingleLine s.filename) :
    ∀ l ∈ segmentLines s, SingleLine l := by
  intro l hl
  simp only [segmentLines, pdtLines, List.mem_append, List.mem_cons, List.not_mem_nil,
    or_false] at hl
  rcases hl with hl | rfl | rfl
  · split at hl
    · rw [List.mem_singleton.mp hl]
      exact SingleLine.append (by decide) (DateTime.singleLine_format _)
    · exact absurd hl List.not_mem_nil
  · exact SingleLine.append (SingleLine.append (by decide) (singleLine_fixed3 _)) (by decide)
  · exact hs

theorem singleLine_mediaPlaylistLines (hs : ∀ s ∈ segments, SingleLine s.filename) :
    ∀ l ∈ mediaPlaylistLines segments hlsVersion isVod isFinished, SingleLine l := by
  intro l hl
  simp only [mediaPlaylistLines, List.mem_append, List.mem_flatMap] at hl
  rcases hl with (hl | ⟨s, hmem, hl⟩) | hl
  · exact singleLine_headerLines l hl
  · exact singleLine_segmentLines (hs s hmem) l hl
  · split at hl
    · rw [List.mem_singleton.mp hl]
      decide
    · exact absurd hl List.not_mem_nil

/-- The lines of a generated playlist are the lines it was written from. -/
theorem lines_generateMediaPlaylist (hs : ∀ s ∈ segments, SingleLine s.filename) :
    lines (generateMediaPlaylist segments hlsVersion isVod isFinished) =
      mediaPlaylistLines segments hlsVersion isVod isFinished :=
  lines_unlines (singleLine_mediaPlaylistLines hs)

/-- A line that starts with a tag names no file. -/
theorem isUri_append_of_tag {tag : Text} (htag : tag.head? = some '#') (t : Text) :
    isUri (tag ++ t) = false := by
  cases tag with
  | nil => simp at htag
  | cons c tag =>
    obtain rfl := Option.some.inj htag
    simp [isUri]

theorem isUri_of_mem_headerLines {l : Text} (hl : l ∈ headerLines segments hlsVersion isVod) :
    isUri l = false := by
  simp only [headerLines, List.mem_append, List.mem_cons, List.not_mem_nil, or_false] at hl
  rcases hl with ((rfl | rfl | rfl) | hl) | rfl | rfl | rfl
  · decide
  · exact isUri_append_of_tag (by decide) _
  · exact isUri_append_of_tag (by decide) _
  · split at hl
    · rw [List.mem_singleton.mp hl]
      decide
    · exact absurd hl List.not_mem_nil
  · exact isUri_append_of_tag (by decide) _
  · decide
  · decide

theorem isUri_of_mem_pdtLines {s : PlaylistSegment} {l : Text} (hl : l ∈ pdtLines s) :
    isUri l = false := by
  unfold pdtLines at hl
  split at hl
  · rw [List.mem_singleton.mp hl]
    exact isUri_append_of_tag (by decide) _
  · exact absurd hl List.not_mem_nil

theorem filter_isUri_segmentLines {s : PlaylistSegment} (hs : isUri s.filename = true) :
    (segmentLines s).filter isUri = [s.filename] := by
  have hpdt : (pdtLines s).filter isUri = [] := by
    rw [List.filter_eq_nil_iff]
    intro l hl
    rw [isUri_of_mem_pdtLines hl]
    exact Bool.false_ne_true
  have hinf : isUri ("#EXTINF:".toList ++ fixed3 s.durationSecs ++ ",".toList) = false := by
    rw [List.append_assoc]
    exact isUri_append_of_tag (by decide) _
  rw [segmentLines, List.filter_append, hpdt, List.nil_append,
    List.filter_cons_of_neg (by rw [hinf]; exact Bool.false_ne_true),
    List.filter_cons_of_pos hs, List.filter_nil]

/-- A media playlist names the files of its segments, in order. -/
theorem playlistUris_generateMediaPlaylist
    (hs : ∀ s ∈ segments, SingleLine s.filename ∧ isUri s.filename = true) :
    playlistUris (generateMediaPlaylist segments hlsVersion isVod isFinished) =
      segments.map (·.filename) := by
  have hbody : (segments.flatMap segmentLines).filter isUri = segments.map (·.filename) := by
    rw [List.filter_flatMap, ← List.flatMap_pure_eq_map]
    refine List.flatMap_congr fun s hmem => ?_
    exact filter_isUri_segmentLines (hs s hmem).2
  have hheader : (headerLines segments hlsVersion isVod).filter isUri = [] := by
    rw [List.filter_eq_nil_iff]
    intro l hl
    rw [isUri_of_mem_headerLines hl]
    exact Bool.false_ne_true
  have hend : (if isFinished then [endlistTag] else []).filter isUri = [] := by
    cases isFinished <;> decide
  rw [playlistUris, lines_generateMediaPlaylist fun s hmem => (hs s hmem).1, mediaPlaylistLines,
    List.filter_append, List.filter_append, hheader, hbody, hend, List.nil_append,
    List.append_nil]

theorem singleLine_segmentFilename (n : ℕ) : SingleLine (segmentFilename n) :=
  (singleLine_decimalPad 6 n).append (by decide)

theorem isUri_segmentFilename (n : ℕ) : isUri (segmentFilename n) = true := by
  obtain ⟨c, rest, hc, hdigit⟩ := segmentFilename_eq_cons n
  have hne : c ≠ '#' := by
    rintro rfl
    exact absurd hdigit (by decide)
  simp [isUri, hc, hne]

theorem erasePdt_pdtTag_append (t : Text) : erasePdt (pdtTag ++ t) = pdtTag := by
  rw [erasePdt, if_pos (List.isPrefixOf_iff_prefix.mpr (List.prefix_append _ _))]

/-- A playlist segment at a fixed instant. -/
def PlaylistSegment.timeless (s : PlaylistSegment) : PlaylistSegment :=
  { s with programDateTime := s.programDateTime.map fun _ => ⟨0⟩ }

theorem headerLines_timeless :
    headerLines (segments.map PlaylistSegment.timeless) hlsVersion isVod =
      headerLines segments hlsVersion isVod := by
  have htarget : targetDuration (segments.map PlaylistSegment.timeless) =
      targetDuration segments := by
    rw [targetDuration, List.foldl_map]
    rfl
  have hfirst : (segments.map PlaylistSegment.timeless).head?.map (·.sequence) =
      segments.head?.map (·.sequence) := by
    cases segments <;> rfl
  rw [headerLines, htarget, hfirst]
  rfl

theorem map_erasePdt_segmentLines (s : PlaylistSegment) :
    (segmentLines s.timeless).map erasePdt = (segmentLines s).map erasePdt := by
  have hpdt : (pdtLines s.timeless).map erasePdt = (pdtLines s).map erasePdt := by
    unfold pdtLines PlaylistSegment.timeless
    cases s.programDateTime with
    | none => rfl
    | some t => simp only [Option.map_some, List.map_cons, erasePdt_pdtTag_append]
  rw [segmentLines, segmentLines, List.map_append, List.map_append, hpdt]
  rfl

/-- The clock shows in the values of the PROGRAM-DATE-TIME tags only. -/
theorem map_erasePdt_mediaPlaylistLines :
    (mediaPlaylistLines (segments.map PlaylistSegment.timeless) hlsVersion isVod isFinished).map
        erasePdt =
      (mediaPlaylistLines segments hlsVersion isVod isFinished).map erasePdt := by
  rw [mediaPlaylistLines, headerLines_timeless, List.flatMap_map]
  simp only [mediaPlaylistLines, List.map_append, List.map_flatMap, map_erasePdt_segmentLines]

end Reading

end StreamInfa.Package
