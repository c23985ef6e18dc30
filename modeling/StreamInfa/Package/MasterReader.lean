import StreamInfa.Lib.Attributes
import StreamInfa.Package.PlaylistReader

/-!
What a player reads in a master playlist.

An EXT-X-STREAM-INF tag describes the variant that the next line names, with an attribute list in
which the codecs stand between quotes. **`readMasterPlaylist_generateMultivariantPlaylist`**: of a
playlist that was written a player gets back each rendition, in its place.
-/

namespace StreamInfa.Package

/-! ### Reading -/

/-- A rendition, as a master playlist lists it. -/
structure Variant where
  bandwidth : ℕ
  width : ℕ
  height : ℕ
  codecs : Text
  frameRate : ℚ
  uri : Text
deriving DecidableEq, Repr

structure MasterPlaylist where
  version : ℕ
  independentSegments : Bool
  variants : List Variant
deriving DecidableEq, Repr

/-- A playlist read in part, with what is said of the next variant. -/
structure MasterReading where
  playlist : MasterPlaylist
  streamInf : Option (List Attribute)

def MasterReading.start : MasterReading := ⟨⟨1, false, []⟩, none⟩

def bareValue (name : Text) (attributes : List Attribute) : Option Text :=
  match attributeValue name attributes with
  | some (.bare value) => some value
  | _ => none

def quotedValue (name : Text) (attributes : List Attribute) : Option Text :=
  match attributeValue name attributes with
  | some (.quoted value) => some value
  | _ => none

def readResolution (t : Text) : Option (ℕ × ℕ) :=
  match t.dropWhile (· ≠ 'x') with
  | [] => none
  | _ :: height => do
    let w ← readDecimal (t.takeWhile (· ≠ 'x'))
    let h ← readDecimal height
    return (w, h)

def readVariant (attributes : List Attribute) (uri : Text) : Option Variant := do
  let bandwidth ← (bareValue "BANDWIDTH".toList attributes).bind readDecimal
  let resolution ← (bareValue "RESOLUTION".toList attributes).bind readResolution
  let codecs ← quotedValue "CODECS".toList attributes
  let frameRate ← (bareValue "FRAME-RATE".toList attributes).bind readFraction
  return ⟨bandwidth, resolution.1, resolution.2, codecs, frameRate, uri⟩

def versionTag : Text := "#EXT-X-VERSION:".toList

def independentTag : Text := "#EXT-X-INDEPENDENT-SEGMENTS".toList

def streamInfTag : Text := "#EXT-X-STREAM-INF:".toList

/-- A line that is no tag names the variant described before it. -/
def MasterReading.line (r : MasterReading) (l : Text) : Option MasterReading :=
  if l = [] then some r
  else if versionTag.isPrefixOf l then
    (readDecimal (l.drop versionTag.length)).map fun n =>
      { r with playlist := { r.playlist with version := n } }
  else if l = independentTag then
    some { r with playlist := { r.playlist with independentSegments := true } }
  else if streamInfTag.isPrefixOf l then
    (readAttributes (l.drop streamInfTag.length)).map fun attributes =>
      { r with streamInf := some attributes }
  else if l.head? = some '#' then some r
  else
    (r.streamInf.bind (readVariant · l)).map fun variant =>
      ⟨{ r.playlist with variants := r.playlist.variants ++ [variant] }, none⟩

def readMasterPlaylist (playlist : Text) : Option MasterPlaylist :=
  match lines playlist with
  | [] => none
  | first :: rest =>
    if first = "#EXTM3U".toList then
      (rest.foldlM MasterReading.line MasterReading.start).map MasterReading.playlist
    else none

/-! ### What is written of a rendition -/

/-- What is written of a rendition. -/
def RenditionInfo.variant (info : RenditionInfo) : Variant where
  bandwidth := (Transcode.bandwidth info.videoBitrateKbps info.audioBitrateKbps).toNat
  width := info.width.toNat
  height := info.height.toNat
  codecs := Transcode.codecsAttribute info.profile info.level info.hasAudio
  frameRate := thousandths info.frameRate
  uri := info.id.asStr ++ "/media.m3u8".toList

def resolution (width height : ℕ) : Text := decimal width ++ 'x' :: decimal height

/-- The attributes of EXT-X-STREAM-INF. -/
def RenditionInfo.attributes (info : RenditionInfo) : List Attribute :=
  [⟨"BANDWIDTH".toList, .bare (decimal info.variant.bandwidth)⟩,
    ⟨"RESOLUTION".toList, .bare (resolution info.variant.width info.variant.height)⟩,
    ⟨"CODECS".toList, .quoted info.variant.codecs⟩,
    ⟨"FRAME-RATE".toList, .bare (fixed3 info.frameRate)⟩]

theorem mem_codecsAttribute {profile level : Text} {hasAudio : Bool} {c : Char}
    (h : c ∈ Transcode.codecsAttribute profile level hasAudio) :
    c ∈ "0123456789abcdefvmp.,".toList := by
  have hhex : ∀ n, ∀ c ∈ hexPad 2 n, c ∈ "0123456789abcdefvmp.,".toList := by
    intro n c hc
    obtain ⟨i, -, rfl⟩ := List.mem_map.mp hc
    exact List.mem_append_left "vmp.,".toList (digitChar_hex (Nat.mod_lt _ (by decide)))
  have hfixed : ∀ t : Text, t.all (· ∈ "0123456789abcdefvmp.,".toList) = true → ∀ c ∈ t,
      c ∈ "0123456789abcdefvmp.,".toList := fun t ht c hc =>
    of_decide_eq_true (List.all_eq_true.mp ht c hc)
  have hvideo : ∀ c ∈ Transcode.codecString profile level, c ∈ "0123456789abcdefvmp.,".toList := by
    intro c hc
    rcases List.mem_append.mp hc with hc | hc
    · rcases List.mem_append.mp hc with hc | hc
      · rcases List.mem_append.mp hc with hc | hc
        · exact hfixed _ rfl c hc
        · exact hhex _ c hc
      · exact hfixed _ rfl c hc
    · exact hhex _ c hc
  rw [Transcode.codecsAttribute] at h
  split at h
  · rcases List.mem_append.mp h with h | h
    · exact hvideo c h
    · exact hfixed _ rfl c h
  · exact hvideo c h

theorem quote_notMem_fixed3 (q : ℚ) : '"' ∉ fixed3 q := by
  simp only [fixed3, List.mem_append, not_or]
  refine ⟨⟨⟨?_, ?_⟩, by decide⟩, ?_⟩
  · split <;> decide
  · exact notMem_of_digits (fun _ h => isDigit_of_mem_decimal h) (by decide)
  · exact notMem_of_digits (fun _ h => isDigit_of_mem_decimalPad h) (by decide)

theorem notMem_resolution {width height : ℕ} {c : Char} (hdigit : c.isDigit = false)
    (hx : c ≠ 'x') : c ∉ resolution width height := by
  have hdecimal : ∀ n, c ∉ decimal n := fun n =>
    notMem_of_digits (fun _ h => isDigit_of_mem_decimal h) hdigit
  simp only [resolution, List.mem_append, List.mem_cons, not_or]
  exact ⟨hdecimal _, hx, hdecimal _⟩

theorem plain_attributes (info : RenditionInfo) : ∀ a ∈ info.attributes, a.Plain := by
  have hdecimal : ∀ (c : Char) n, c.isDigit = false → c ∉ decimal n := fun c n hc =>
    notMem_of_digits (fun _ h => isDigit_of_mem_decimal h) hc
  intro a ha
  simp only [RenditionInfo.attributes, List.mem_cons, List.not_mem_nil, or_false] at ha
  rcases ha with rfl | rfl | rfl | rfl
  · exact .of_name (by decide) (by decide) (by decide)
      ⟨hdecimal _ _ (by decide), hdecimal _ _ (by decide)⟩
  · exact .of_name (by decide) (by decide) (by decide)
      ⟨notMem_resolution (by decide) (by decide), notMem_resolution (by decide) (by decide)⟩
  · exact .of_name (by decide) (by decide) (by decide) fun h =>
      absurd (mem_codecsAttribute h) (by decide)
  · exact .of_name (by decide) (by decide) (by decide)
      ⟨comma_notMem_fixed3 _, quote_notMem_fixed3 _⟩

theorem variantLines_eq (info : RenditionInfo) :
    variantLines info =
      [streamInfTag ++ writeAttributes info.attributes, info.variant.uri, []] := by
  have hbandwidth : "#EXT-X-STREAM-INF:BANDWIDTH=".toList =
      streamInfTag ++ ("BANDWIDTH".toList ++ ['=']) := by decide
  have hresolution : ",RESOLUTION=".toList = ',' :: ("RESOLUTION".toList ++ ['=']) := by decide
  have hx : "x".toList = ['x'] := by decide
  have hcodecs : ",CODECS=\"".toList = ',' :: ("CODECS".toList ++ ['=', '"']) := by decide
  have hrate : "\",FRAME-RATE=".toList = '"' :: ',' :: ("FRAME-RATE".toList ++ ['=']) := by decide
  have hwritten : writeAttributes info.attributes =
      "BANDWIDTH".toList ++ '=' :: (decimal info.variant.bandwidth ++ ',' ::
        ("RESOLUTION".toList ++ '=' :: (resolution info.variant.width info.variant.height ++ ',' ::
          ("CODECS".toList ++ '=' :: '"' :: (info.variant.codecs ++ '"' :: ',' ::
            ("FRAME-RATE".toList ++ '=' :: fixed3 info.frameRate)))))) := by
    simp only [writeAttributes, RenditionInfo.attributes, List.map_cons, List.map_nil,
      List.intercalate_cons_cons, List.intercalate_singleton, Attribute.write,
      AttributeValue.write, List.append_assoc, List.cons_append, List.nil_append]
  rw [variantLines, hbandwidth, hresolution, hx, hcodecs, hrate, hwritten, resolution]
  simp only [List.append_assoc, List.cons_append, List.nil_append]
  rfl

theorem readResolution_resolution (width height : ℕ) :
    readResolution (resolution width height) = some (width, height) := by
  have hchars : ∀ c ∈ decimal width, decide (c ≠ 'x') = true := fun c hc =>
    decide_eq_true fun heq => absurd (heq ▸ isDigit_of_mem_decimal hc) (by decide)
  have htake : (resolution width height).takeWhile (· ≠ 'x') = decimal width := by
    rw [resolution, List.takeWhile_append_of_pos hchars]
    simp
  have hdrop : (resolution width height).dropWhile (· ≠ 'x') = 'x' :: decimal height := by
    rw [resolution, List.dropWhile_append_of_pos hchars]
    simp
  rw [readResolution, hdrop, htake]
  simp only [readDecimal_decimal, Option.bind_eq_bind, Option.bind_some]
  rfl

theorem readVariant_attributes {info : RenditionInfo} (h : 0 ≤ info.frameRate) :
    readVariant info.attributes info.variant.uri = some info.variant := by
  have hbandwidth : bareValue "BANDWIDTH".toList info.attributes =
      some (decimal info.variant.bandwidth) := rfl
  have hresolution : bareValue "RESOLUTION".toList info.attributes =
      some (resolution info.variant.width info.variant.height) := rfl
  have hcodecs : quotedValue "CODECS".toList info.attributes = some info.variant.codecs := rfl
  have hrate : bareValue "FRAME-RATE".toList info.attributes = some (fixed3 info.frameRate) := rfl
  simp only [readVariant, hbandwidth, hresolution, hcodecs, hrate, Option.bind_eq_bind,
    Option.bind_some, readDecimal_decimal, readResolution_resolution, readFraction_fixed3 h]
  rfl

/-! ### Reading what was written -/

theorem MasterReading.line_streamInf (r : MasterReading) (info : RenditionInfo) :
    r.line (streamInfTag ++ writeAttributes info.attributes) =
      some { r with streamInf := some info.attributes } := by
  have hread : readAttributes (writeAttributes info.attributes) = some info.attributes :=
    readAttributes_writeAttributes (plain_attributes info)
  have htag : streamInfTag.isPrefixOf (streamInfTag ++ writeAttributes info.attributes) = true :=
    List.isPrefixOf_iff_prefix.mpr (List.prefix_append _ _)
  have hversion : versionTag.isPrefixOf (streamInfTag ++ writeAttributes info.attributes) =
      false := rfl
  have hindependent : streamInfTag ++ writeAttributes info.attributes ≠ independentTag := by
    intro heq
    have hprefix : streamInfTag <+: independentTag := heq ▸ List.prefix_append _ _
    exact absurd (List.isPrefixOf_iff_prefix.mpr hprefix) (by decide)
  have hne : streamInfTag ++ writeAttributes info.attributes ≠ [] :=
    List.append_ne_nil_of_left_ne_nil (by decide) _
  rw [MasterReading.line, if_neg hne, hversion, if_neg Bool.false_ne_true, if_neg hindependent,
    if_pos htag, List.drop_left, hread, Option.map_some]

theorem MasterReading.line_uri {info : RenditionInfo} (h : 0 ≤ info.frameRate)
    (playlist : MasterPlaylist) :
    MasterReading.line ⟨playlist, some info.attributes⟩ info.variant.uri =
      some ⟨{ playlist with variants := playlist.variants ++ [info.variant] }, none⟩ := by
  have huri : isUri info.variant.uri = true := by
    have hall : ∀ r : RenditionId, isUri (r.asStr ++ "/media.m3u8".toList) = true := by
      intro r
      cases r <;> decide
    exact hall info.id
  simp only [isUri, Bool.and_eq_true, decide_eq_true_eq] at huri
  -- A tag starts with a hash, and the name of a playlist does not.
  have hprefix : ∀ tag : Text, tag.head? = some '#' → tag.isPrefixOf info.variant.uri = false := by
    intro tag htag
    refine Bool.eq_false_iff.mpr fun h => huri.2 ?_
    obtain ⟨t, ht⟩ := List.isPrefixOf_iff_prefix.mp h
    rw [← ht, List.head?_append, htag, Option.some_or]
  have hindependent : info.variant.uri ≠ independentTag := fun heq => huri.2 (heq ▸ rfl)
  rw [MasterReading.line, if_neg huri.1, hprefix versionTag rfl, if_neg Bool.false_ne_true,
    if_neg hindependent, hprefix streamInfTag rfl, if_neg Bool.false_ne_true, if_neg huri.2]
  dsimp only
  rw [Option.bind_some, readVariant_attributes h, Option.map_some]

theorem foldlM_variants {infos : List RenditionInfo} (h : ∀ info ∈ infos, 0 ≤ info.frameRate)
    (playlist : MasterPlaylist) :
    (infos.flatMap variantLines).foldlM MasterReading.line ⟨playlist, none⟩ =
      some ⟨{ playlist with
        variants := playlist.variants ++ infos.map RenditionInfo.variant }, none⟩ := by
  induction infos generalizing playlist with
  | nil => simp
  | cons info infos ih =>
    obtain ⟨hinfo, h⟩ := List.forall_mem_cons.mp h
    have hblank : ∀ r : MasterReading, r.line [] = some r := fun _ => rfl
    rw [List.flatMap_cons, variantLines_eq, List.foldlM_append]
    simp only [List.foldlM_cons, List.foldlM_nil, MasterReading.line_streamInf,
      MasterReading.line_uri hinfo, hblank, Option.bind_eq_bind, Option.bind_some, Option.pure_def,
      ih h, List.map_cons, List.append_assoc, List.singleton_append]

theorem singleLine_variantLines (info : RenditionInfo) :
    ∀ l ∈ variantLines info, SingleLine l := by
  have hcodecs : SingleLine (Transcode.codecsAttribute info.profile info.level info.hasAudio) :=
    ⟨fun h => absurd (mem_codecsAttribute h) (by decide),
      fun h => absurd (mem_codecsAttribute h) (by decide)⟩
  intro l hl
  simp only [variantLines, List.mem_cons, List.not_mem_nil, or_false] at hl
  rcases hl with rfl | rfl | rfl
  · refine SingleLine.append ?_ (singleLine_fixed3 _)
    refine SingleLine.append (SingleLine.append ?_ hcodecs) (by decide)
    refine SingleLine.append (SingleLine.append ?_ (singleLine_decimal _)) (by decide)
    refine SingleLine.append (SingleLine.append ?_ (singleLine_decimal _)) (by decide)
    exact SingleLine.append (SingleLine.append (by decide) (singleLine_decimal _)) (by decide)
  · have hall : ∀ r : RenditionId, SingleLine (r.asStr ++ "/media.m3u8".toList) := by
      intro r
      cases r <;> decide
    exact hall info.id
  · decide

/-- **A master playlist is read as it was written**: each rendition in its place. -/
theorem readMasterPlaylist_generateMultivariantPlaylist {infos : List RenditionInfo}
    (h : ∀ info ∈ infos, 0 ≤ info.frameRate) (hlsVersion : UInt32) :
    readMasterPlaylist (generateMultivariantPlaylist infos hlsVersion) =
      some ⟨hlsVersion.toNat, true, infos.map RenditionInfo.variant⟩ := by
  have hsingle : ∀ l ∈ ["#EXTM3U".toList, versionTag ++ decimal hlsVersion.toNat, independentTag,
      []] ++ infos.flatMap variantLines, SingleLine l := by
    intro l hl
    rcases List.mem_append.mp hl with hl | hl
    · simp only [List.mem_cons, List.not_mem_nil, or_false] at hl
      rcases hl with rfl | rfl | rfl | rfl
      · decide
      · exact SingleLine.append (by decide) (singleLine_decimal _)
      · decide
      · decide
    · obtain ⟨info, -, hl⟩ := List.mem_flatMap.mp hl
      exact singleLine_variantLines info l hl
  have hversion : ∀ r : MasterReading, r.line (versionTag ++ decimal hlsVersion.toNat) =
      some { r with playlist := { r.playlist with version := hlsVersion.toNat } } := by
    intro r
    have hne : versionTag ++ decimal hlsVersion.toNat ≠ [] :=
      List.append_ne_nil_of_left_ne_nil (by decide) _
    rw [MasterReading.line, if_neg hne,
      if_pos (List.isPrefixOf_iff_prefix.mpr (List.prefix_append _ _)), List.drop_left,
      readDecimal_decimal, Option.map_some]
  have hindependent : ∀ r : MasterReading, r.line independentTag =
      some { r with playlist := { r.playlist with independentSegments := true } } := fun _ => rfl
  have hblank : ∀ r : MasterReading, r.line [] = some r := fun _ => rfl
  have hlines : lines (generateMultivariantPlaylist infos hlsVersion) =
      ["#EXTM3U".toList, versionTag ++ decimal hlsVersion.toNat, independentTag, []] ++
        infos.flatMap variantLines := lines_unlines hsingle
  rw [readMasterPlaylist, hlines]
  simp only [List.cons_append, List.nil_append, if_true, List.foldlM_cons, hversion, hindependent,
    hblank, Option.bind_eq_bind, Option.bind_some, MasterReading.start, foldlM_variants h,
    Option.map_some]

end StreamInfa.Package
