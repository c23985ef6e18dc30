import StreamInfa.Package.SlidingWindow

/-!
What a player reads in a media playlist.

`readMediaPlaylist` takes a playlist line by line: a tag says something of the playlist or of the
next segment, and a line that is no tag names a segment. It numbers the segments from the
playlist's EXT-X-MEDIA-SEQUENCE on. **`readMediaPlaylist_generateMediaPlaylist`**: of a playlist
that was written, it gets back all that was written, the durations to a thousandth of a second.
-/

namespace StreamInfa.Package

/-! ### Numbers -/

def readDecimal (t : Text) : Option ℕ :=
  if t ≠ [] ∧ t.all Char.isDigit then some (Nat.ofDigitChars 10 t 0) else none

/-- A number with or without decimals. -/
def readFraction (t : Text) : Option ℚ :=
  match t.dropWhile (· ≠ '.') with
  | [] => (readDecimal (t.takeWhile (· ≠ '.'))).map fun n => (n : ℚ)
  | _ :: decimals => do
    let whole ← readDecimal (t.takeWhile (· ≠ '.'))
    let part ← readDecimal decimals
    return whole + part / 10 ^ decimals.length

/-- The nearest thousandth. -/
def thousandths (q : ℚ) : ℚ := (roundHalfEven (|q| * 1000)).toNat / 1000

theorem readDecimal_decimalPad (w n : ℕ) : readDecimal (decimalPad w n) = some n := by
  have hdigits : (decimalPad w n).all Char.isDigit = true :=
    List.all_eq_true.mpr fun _ hc => isDigit_of_mem_decimalPad hc
  rw [readDecimal, if_pos ⟨decimalPad_ne_nil w n, hdigits⟩, ofDigitChars_decimalPad]

theorem readDecimal_decimal (n : ℕ) : readDecimal (decimal n) = some n := by
  have hpad : decimal n = decimalPad 0 n := by simp [decimal, decimalPad]
  rw [hpad, readDecimal_decimalPad]

theorem readFraction_fixed3 {q : ℚ} (hq : 0 ≤ q) :
    readFraction (fixed3 q) = some (thousandths q) := by
  generalize hn : (roundHalfEven (|q| * 1000)).toNat = n
  have hfixed : fixed3 q = decimal (n / 1000) ++ '.' :: decimalPad 3 (n % 1000) := by
    simp [fixed3, hn, not_lt.mpr hq]
  have hdigits : ∀ c ∈ decimal (n / 1000), decide (c ≠ '.') = true := by
    intro c hc
    refine decide_eq_true fun hdot => ?_
    rw [hdot] at hc
    exact absurd (isDigit_of_mem_decimal hc) (by decide)
  have htake : (fixed3 q).takeWhile (· ≠ '.') = decimal (n / 1000) := by
    rw [hfixed, List.takeWhile_append_of_pos hdigits]
    simp
  have hdrop : (fixed3 q).dropWhile (· ≠ '.') = '.' :: decimalPad 3 (n % 1000) := by
    rw [hfixed, List.dropWhile_append_of_pos hdigits]
    simp
  have hlength : (decimalPad 3 (n % 1000)).length = 3 :=
    length_decimalPad (by decide) (Nat.mod_lt n (by decide))
  have hvalue : ((n / 1000 : ℕ) : ℚ) + ((n % 1000 : ℕ) : ℚ) / 10 ^ 3 = n / 1000 := by
    have hsplit : ((1000 * (n / 1000) + n % 1000 : ℕ) : ℚ) = n := by rw [Nat.div_add_mod]
    push_cast at hsplit
    linarith
  rw [readFraction, htake, hdrop]
  simp only [readDecimal_decimal, readDecimal_decimalPad, hlength, Option.bind_eq_bind,
    Option.bind_some, hvalue, thousandths, hn, Option.pure_def]

/-- What is written is at most half a thousandth off. -/
theorem abs_thousandths_sub_le {q : ℚ} (hq : 0 ≤ q) : |thousandths q - q| ≤ 1 / 2000 := by
  have hround : ∀ x : ℚ, |(roundHalfEven x : ℚ) - x| ≤ 1 / 2 := by
    intro x
    have hle := Int.floor_le x
    have hlt := Int.lt_floor_add_one x
    have hfloor : x.floor = ⌊x⌋ := rfl
    rw [abs_le, roundHalfEven, hfloor]
    split_ifs <;> push_cast <;> constructor <;> linarith
  have hnonneg : 0 ≤ roundHalfEven (|q| * 1000) := by
    have hle := (abs_le.mp (hround (|q| * 1000))).1
    have hpos : (0 : ℚ) ≤ |q| * 1000 := by positivity
    have hcast : (-1 : ℚ) < roundHalfEven (|q| * 1000) := by linarith
    have hint : (-1 : ℤ) < roundHalfEven (|q| * 1000) := by exact_mod_cast hcast
    omega
  have hcast : (((roundHalfEven (|q| * 1000)).toNat : ℕ) : ℚ) = roundHalfEven (|q| * 1000) := by
    exact_mod_cast Int.toNat_of_nonneg hnonneg
  have hclose := hround (|q| * 1000)
  rw [thousandths, hcast]
  rw [abs_of_nonneg hq, abs_le] at *
  constructor <;> linarith

theorem comma_notMem_fixed3 (q : ℚ) : ',' ∉ fixed3 q := by
  simp only [fixed3, List.mem_append, not_or]
  refine ⟨⟨⟨?_, ?_⟩, by decide⟩, ?_⟩
  · split <;> decide
  · exact notMem_of_digits (fun _ h => isDigit_of_mem_decimal h) (by decide)
  · exact notMem_of_digits (fun _ h => isDigit_of_mem_decimalPad h) (by decide)

/-! ### Reading -/

/-- A segment, as a playlist lists it. -/
structure MediaSegment where
  sequence : ℕ
  duration : ℚ
  dateTime : Option Text
  uri : Text
deriving DecidableEq, Repr

structure MediaPlaylist where
  version : ℕ
  targetDuration : ℕ
  isVod : Bool
  mediaSequence : ℕ
  map : Option Text
  segments : List MediaSegment
  ended : Bool
deriving DecidableEq, Repr

/-- A playlist read in part, with what its tags say of the next segment. -/
structure Reading where
  playlist : MediaPlaylist
  duration : Option ℚ
  dateTime : Option Text

def Reading.start : Reading := ⟨⟨1, 0, false, 0, none, [], false⟩, none, none⟩

/-- The value of the attribute `URI`, when there is no other. -/
def readUri (value : Text) : Option Text :=
  if "URI=\"".toList.isPrefixOf value then some ((value.drop 5).takeWhile (· ≠ '"')) else none

/-- The tags a player of a media playlist knows. -/
inductive Tag
  | version
  | targetDuration
  | playlistType
  | mediaSequence
  | map
  | programDateTime
  | extinf
  | endlist
deriving DecidableEq, Repr

def Tag.all : List Tag :=
  [.version, .targetDuration, .playlistType, .mediaSequence, .map, .programDateTime, .extinf,
    .endlist]

def Tag.name : Tag → Text
  | version => "#EXT-X-VERSION".toList
  | targetDuration => "#EXT-X-TARGETDURATION".toList
  | playlistType => "#EXT-X-PLAYLIST-TYPE".toList
  | mediaSequence => "#EXT-X-MEDIA-SEQUENCE".toList
  | map => "#EXT-X-MAP".toList
  | programDateTime => "#EXT-X-PROGRAM-DATE-TIME".toList
  | extinf => "#EXTINF".toList
  | endlist => "#EXT-X-ENDLIST".toList

/-- What a tag says. -/
def Reading.tag (r : Reading) (tag : Tag) (value : Text) : Option Reading :=
  match tag with
  | .version =>
    (readDecimal value).map fun n => { r with playlist := { r.playlist with version := n } }
  | .targetDuration =>
    (readDecimal value).map fun n => { r with playlist := { r.playlist with targetDuration := n } }
  | .playlistType => some { r with playlist := { r.playlist with isVod := value = "VOD".toList } }
  | .mediaSequence =>
    (readDecimal value).map fun n => { r with playlist := { r.playlist with mediaSequence := n } }
  | .map => some { r with playlist := { r.playlist with map := readUri value } }
  | .programDateTime => some { r with dateTime := some value }
  | .extinf =>
    (readFraction (value.takeWhile (· ≠ ','))).map fun d => { r with duration := some d }
  | .endlist => some { r with playlist := { r.playlist with ended := true } }

/-- A line that names a segment stands behind its duration. -/
def Reading.uri (r : Reading) (uri : Text) : Option Reading :=
  r.duration.map fun d =>
    { playlist := { r.playlist with
        segments := r.playlist.segments ++
          [⟨r.playlist.mediaSequence + r.playlist.segments.length, d, r.dateTime, uri⟩] }
      duration := none
      dateTime := none }

/-- A player skips the tags it does not know. -/
def Reading.line (r : Reading) (l : Text) : Option Reading :=
  if l = [] then some r
  else if l.head? = some '#' then
    match Tag.all.find? fun tag => tag.name = l.takeWhile (· ≠ ':') with
    | some tag => r.tag tag (l.dropWhile (· ≠ ':')).tail
    | none => some r
  else r.uri l

def readMediaPlaylist (playlist : Text) : Option MediaPlaylist :=
  match lines playlist with
  | [] => none
  | first :: rest =>
    if first = "#EXTM3U".toList then
      (rest.foldlM Reading.line Reading.start).map Reading.playlist
    else none

theorem Reading.line_tag (r : Reading) (tag : Tag) (value : Text) :
    r.line (tag.name ++ ':' :: value) = r.tag tag value := by
  have hchars : ∀ c ∈ tag.name, decide (c ≠ ':') = true :=
    List.all_eq_true.mp (by cases tag <;> rfl)
  have htake : (tag.name ++ ':' :: value).takeWhile (· ≠ ':') = tag.name := by
    rw [List.takeWhile_append_of_pos hchars]
    simp
  have hdrop : (tag.name ++ ':' :: value).dropWhile (· ≠ ':') = ':' :: value := by
    rw [List.dropWhile_append_of_pos hchars]
    simp
  have hhead : (tag.name ++ ':' :: value).head? = some '#' := by
    have hhash : tag.name.head? = some '#' := by cases tag <;> decide
    rw [List.head?_append, hhash]
    rfl
  have hfind : Tag.all.find? (fun t => t.name = tag.name) = some tag := by cases tag <;> decide
  rw [Reading.line, if_neg (by simp), if_pos hhead, htake, hdrop, hfind]
  rfl

theorem Reading.line_uri {uri : Text} (r : Reading) (huri : isUri uri = true) :
    r.line uri = r.uri uri := by
  simp only [isUri, Bool.and_eq_true, decide_eq_true_eq] at huri
  rw [Reading.line, if_neg huri.1, if_neg huri.2]

/-! ### Reading what was written -/

/-- What is written of a segment. -/
def PlaylistSegment.listed (s : PlaylistSegment) (sequence : ℕ) : MediaSegment where
  sequence := sequence
  duration := thousandths s.durationSecs
  dateTime := s.programDateTime.map DateTime.format
  uri := s.filename

section Written

variable {segments : List PlaylistSegment} {hlsVersion : UInt32} {isVod isFinished : Bool}

/-- The head of a playlist. -/
def headOf (segments : List PlaylistSegment) (hlsVersion : UInt32) (isVod : Bool) :
    MediaPlaylist where
  version := hlsVersion.toNat
  targetDuration := (targetDuration segments).toNat
  isVod := isVod
  mediaSequence := (segments.head?.map (·.sequence)).getD 0
  map := some "init.mp4".toList
  segments := []
  ended := false

theorem Reading.line_version (r : Reading) (n : ℕ) :
    r.line ("#EXT-X-VERSION:".toList ++ decimal n) =
      some { r with playlist := { r.playlist with version := n } } := by
  have hline : "#EXT-X-VERSION:".toList = Tag.version.name ++ [':'] := by decide
  rw [hline, List.append_assoc, List.singleton_append, Reading.line_tag, Reading.tag,
    readDecimal_decimal, Option.map_some]

theorem Reading.line_targetDuration (r : Reading) (n : ℕ) :
    r.line ("#EXT-X-TARGETDURATION:".toList ++ decimal n) =
      some { r with playlist := { r.playlist with targetDuration := n } } := by
  have hline : "#EXT-X-TARGETDURATION:".toList = Tag.targetDuration.name ++ [':'] := by decide
  rw [hline, List.append_assoc, List.singleton_append, Reading.line_tag, Reading.tag,
    readDecimal_decimal, Option.map_some]

theorem Reading.line_mediaSequence (r : Reading) (n : ℕ) :
    r.line ("#EXT-X-MEDIA-SEQUENCE:".toList ++ decimal n) =
      some { r with playlist := { r.playlist with mediaSequence := n } } := by
  have hline : "#EXT-X-MEDIA-SEQUENCE:".toList = Tag.mediaSequence.name ++ [':'] := by decide
  rw [hline, List.append_assoc, List.singleton_append, Reading.line_tag, Reading.tag,
    readDecimal_decimal, Option.map_some]

theorem Reading.line_playlistType (r : Reading) :
    r.line "#EXT-X-PLAYLIST-TYPE:VOD".toList =
      some { r with playlist := { r.playlist with isVod := true } } := by
  have hline : "#EXT-X-PLAYLIST-TYPE:VOD".toList =
      Tag.playlistType.name ++ ':' :: "VOD".toList := by decide
  rw [hline, Reading.line_tag]
  rfl

theorem Reading.line_map (r : Reading) :
    r.line "#EXT-X-MAP:URI=\"init.mp4\"".toList =
      some { r with playlist := { r.playlist with map := some "init.mp4".toList } } := by
  have hline : "#EXT-X-MAP:URI=\"init.mp4\"".toList =
      Tag.map.name ++ ':' :: "URI=\"init.mp4\"".toList := by decide
  have huri : readUri "URI=\"init.mp4\"".toList = some "init.mp4".toList := by decide
  rw [hline, Reading.line_tag, Reading.tag, huri]

theorem foldlM_headerLines :
    (headerLines segments hlsVersion isVod).tail.foldlM Reading.line Reading.start =
      some ⟨headOf segments hlsVersion isVod, none, none⟩ := by
  have hblank : ∀ r : Reading, r.line [] = some r := fun _ => rfl
  cases isVod with
  | false =>
    simp only [headerLines, Bool.false_eq_true, if_false, List.append_nil, List.cons_append,
      List.nil_append, List.tail_cons, List.foldlM_cons, List.foldlM_nil, Reading.line_version,
      Reading.line_targetDuration, Reading.line_mediaSequence, Reading.line_map, hblank,
      Option.bind_eq_bind, Option.bind_some]
    rfl
  | true =>
    simp only [headerLines, if_true, List.cons_append, List.nil_append, List.tail_cons,
      List.foldlM_cons, List.foldlM_nil, Reading.line_version, Reading.line_targetDuration,
      Reading.line_mediaSequence, Reading.line_playlistType, Reading.line_map, hblank,
      Option.bind_eq_bind, Option.bind_some]
    rfl

theorem Reading.line_pdt (r : Reading) (value : Text) :
    r.line (pdtTag ++ value) = some { r with dateTime := some value } := by
  have hline : pdtTag = Tag.programDateTime.name ++ [':'] := by decide
  rw [hline, List.append_assoc, List.singleton_append, Reading.line_tag, Reading.tag]

theorem Reading.line_extinf (r : Reading) {q : ℚ} (hq : 0 ≤ q) :
    r.line ("#EXTINF:".toList ++ fixed3 q ++ ",".toList) =
      some { r with duration := some (thousandths q) } := by
  have hline : "#EXTINF:".toList = Tag.extinf.name ++ [':'] := by decide
  have htake : (fixed3 q ++ ",".toList).takeWhile (· ≠ ',') = fixed3 q := by
    rw [List.takeWhile_append_of_pos]
    · simp
    · intro c hc
      exact decide_eq_true fun heq => comma_notMem_fixed3 q (heq ▸ hc)
  rw [hline, List.append_assoc, List.append_assoc, List.singleton_append, Reading.line_tag,
    Reading.tag, htake, readFraction_fixed3 hq, Option.map_some]

/-- A segment is read with what is written of it, and nothing is left for the next one. -/
theorem foldlM_segmentLines {s : PlaylistSegment} (hduration : 0 ≤ s.durationSecs)
    (huri : isUri s.filename = true) (playlist : MediaPlaylist) :
    (segmentLines s).foldlM Reading.line ⟨playlist, none, none⟩ =
      some ⟨{ playlist with
        segments := playlist.segments ++
          [s.listed (playlist.mediaSequence + playlist.segments.length)] }, none, none⟩ := by
  unfold segmentLines pdtLines
  cases hpdt : s.programDateTime with
  | none =>
    simp only [List.nil_append, List.foldlM_cons, List.foldlM_nil, Reading.line_extinf _ hduration,
      Reading.line_uri _ huri, Option.bind_eq_bind, Option.bind_some]
    simp [Reading.uri, PlaylistSegment.listed, hpdt]
  | some pdt =>
    simp only [List.cons_append, List.nil_append, List.foldlM_cons, List.foldlM_nil,
      Reading.line_pdt, Reading.line_extinf _ hduration, Reading.line_uri _ huri,
      Option.bind_eq_bind, Option.bind_some]
    simp [Reading.uri, PlaylistSegment.listed, hpdt]

/-- Segments are listed under consecutive numbers. -/
theorem foldlM_segments (playlist : MediaPlaylist) (hduration : ∀ s ∈ segments, 0 ≤ s.durationSecs)
    (huri : ∀ s ∈ segments, isUri s.filename = true) :
    (segments.flatMap segmentLines).foldlM Reading.line ⟨playlist, none, none⟩ =
      some ⟨{ playlist with
        segments := playlist.segments ++
          (segments.zipIdx (playlist.mediaSequence + playlist.segments.length)).map
            fun (s, n) => s.listed n }, none, none⟩ := by
  induction segments generalizing playlist with
  | nil => simp
  | cons s segments ih =>
    obtain ⟨hs, hduration⟩ := List.forall_mem_cons.mp hduration
    obtain ⟨hs', huri⟩ := List.forall_mem_cons.mp huri
    rw [List.flatMap_cons, List.foldlM_append, foldlM_segmentLines hs hs', Option.bind_eq_bind,
      Option.bind_some, ih _ hduration huri, List.zipIdx_cons, List.map_cons, List.append_assoc,
      List.length_append, List.length_singleton, Nat.add_assoc]
    rfl

/-- **A playlist is read as it was written**: its head, its segments under their numbers, and
whether it has ended. -/
theorem readMediaPlaylist_generateMediaPlaylist (hlsVersion : UInt32) (isVod isFinished : Bool)
    (hfiles : ∀ s ∈ segments, SingleLine s.filename ∧ isUri s.filename = true)
    (hduration : ∀ s ∈ segments, 0 ≤ s.durationSecs) :
    readMediaPlaylist (generateMediaPlaylist segments hlsVersion isVod isFinished) =
      some { headOf segments hlsVersion isVod with
        segments := (segments.zipIdx (headOf segments hlsVersion isVod).mediaSequence).map
          fun (s, n) => s.listed n
        ended := isFinished } := by
  have hlines : lines (generateMediaPlaylist segments hlsVersion isVod isFinished) =
      mediaPlaylistLines segments hlsVersion isVod isFinished :=
    lines_generateMediaPlaylist fun s hs => (hfiles s hs).1
  have hfirst : mediaPlaylistLines segments hlsVersion isVod isFinished =
      "#EXTM3U".toList :: ((headerLines segments hlsVersion isVod).tail ++
        segments.flatMap segmentLines ++ if isFinished then [endlistTag] else []) := rfl
  have hsegments := foldlM_segments (headOf segments hlsVersion isVod) hduration fun s hs =>
    (hfiles s hs).2
  have hend : ∀ r : Reading, r.line endlistTag =
      some { r with playlist := { r.playlist with ended := true } } := fun _ => rfl
  rw [readMediaPlaylist, hlines, hfirst]
  simp only [if_true, List.foldlM_append, foldlM_headerLines, hsegments, Option.bind_eq_bind,
    Option.bind_some]
  cases isFinished with
  | false =>
    rw [if_neg Bool.false_ne_true]
    rfl
  | true =>
    rw [if_pos rfl, List.foldlM_cons, hend]
    rfl

end Written

/-! ### Reading what an index lists -/

theorem zipIdx_eq_map {α : Type*} {f : α → ℕ} {xs : List α} {n : ℕ}
    (h : xs.map f = List.range' n xs.length) : xs.zipIdx n = xs.map fun x => (x, f x) := by
  induction xs generalizing n with
  | nil => rfl
  | cons x xs ih =>
    rw [List.map_cons, List.length_cons, List.range'_succ, List.cons.injEq] at h
    rw [List.zipIdx_cons, List.map_cons, h.1, ih h.2]

namespace SegmentIndex

variable {index : SegmentIndex} {hlsVersion : UInt32} {isVod isFinished : Bool}

def listed (index : SegmentIndex) : List MediaSegment :=
  index.segments.map fun entry => (playlistSegment entry).listed entry.sequence

/-- The numbers a player counts are those of the index. -/
theorem readMediaPlaylist_generatePlaylist {n : ℕ}
    (hsequence : index.segments.map (·.sequence) = List.range' n index.segments.length)
    (hduration : ∀ entry ∈ index.segments, 0 ≤ entry.durationSecs) :
    ∃ playlist, readMediaPlaylist (index.generatePlaylist hlsVersion isVod isFinished) =
      some playlist ∧ playlist.segments = index.listed ∧
      playlist.mediaSequence = (index.segments.head?.map (·.sequence)).getD 0 := by
  have hfirst : (headOf (index.segments.map playlistSegment) hlsVersion isVod).mediaSequence =
      (index.segments.head?.map (·.sequence)).getD 0 := by
    rw [headOf, List.head?_map, Option.map_map]
    rfl
  have hfiles : ∀ s ∈ index.segments.map playlistSegment,
      SingleLine s.filename ∧ isUri s.filename = true := by
    intro s hs
    obtain ⟨entry, -, rfl⟩ := List.mem_map.mp hs
    exact ⟨singleLine_segmentFilename _, isUri_segmentFilename _⟩
  have hread := readMediaPlaylist_generateMediaPlaylist hlsVersion isVod isFinished hfiles
    (List.forall_mem_map.mpr hduration)
  refine ⟨_, hread, ?_, hfirst⟩
  rw [hfirst]
  cases hsegments : index.segments with
  | nil =>
    rw [listed, hsegments]
    rfl
  | cons entry rest =>
    have hn : entry.sequence = n := by
      rw [hsegments, List.map_cons, List.length_cons, List.range'_succ, List.cons.injEq]
        at hsequence
      exact hsequence.1
    rw [← hsegments, List.zipIdx_map, List.map_map]
    have hstart : (index.segments.head?.map (·.sequence)).getD 0 = n := by
      rw [hsegments, ← hn]
      rfl
    rw [hstart, zipIdx_eq_map hsequence, List.map_map]
    rfl

end SegmentIndex

end StreamInfa.Package
