import StreamInfa.Ingest.SpsSyntax

/-!
The high profile fields in full: every chroma format, and scaling matrices.

**`parse_nalUnit`**: of every parameter set in monochrome or 4:2:0 without a scaling matrix
whose bytes need no emulation prevention, the parser finds the size that the specification
gives it. It takes the crop units of 4:2:0 in 4:2:2 and 4:4:4 too. **`parse_anyChroma`**: of
every parameter set of a known profile without a scaling matrix it finds the size in these
units, which is the one of the specification exactly if no cropping is scaled up. Of a scaling
matrix it reads the first lists in step, early ends included (`HighFields.reads`), but six where
there are eight, or eight where there are twelve (`HighFields.bits_of_some`): the flag of the
list behind them is taken for the next field.
-/

namespace StreamInfa.Ingest

/-! ### The syntax -/

/-- A legal `delta_scale`. -/
abbrev DeltaScale := {z : ℤ // -128 ≤ z ∧ z ≤ 127}

/-- The deltas are those of `size` entries of a list: one for each, until a scale is zero. -/
def codesScales (lastScale nextScale : ℤ) : ℕ → List DeltaScale → Bool
  | 0, deltas => deltas.isEmpty
  | size + 1, deltas =>
    if nextScale = 0 then codesScales lastScale nextScale size deltas
    else match deltas with
      | [] => false
      | delta :: deltas =>
        let nextScale := (lastScale + delta + 256) % 256
        codesScales (if nextScale = 0 then lastScale else nextScale) nextScale size deltas

structure ScalingList (size : ℕ) where
  deltas : List DeltaScale
  codes : codesScales 8 8 size deltas = true

/-- The number of lists in a scaling matrix. -/
def scalingListCount (chromaFormatIdc : ℕ) : ℕ := if chromaFormatIdc ≠ 3 then 8 else 12

/-- The entries of list `i`: 4x4 for the first six, 8x8 behind them. -/
def scalingListSize (i : ℕ) : ℕ := if i < 6 then 16 else 64

/-- Each list of a scaling matrix is present or not. -/
abbrev ScalingMatrix (n : ℕ) := (i : Fin n) → Option (ScalingList (scalingListSize i))

/-- The fields that only the high profiles have. -/
structure HighFields where
  chromaFormatIdc : ℕ
  /-- Written for 4:4:4. -/
  separateColourPlane : Bool
  bitDepthLumaMinus8 : UeValue
  bitDepthChromaMinus8 : UeValue
  qpprimeYZeroTransformBypass : Bool
  scalingMatrix : Option (ScalingMatrix (scalingListCount chromaFormatIdc))
  chroma : chromaFormatIdc ≤ 3

/-- A parameter set of any chroma format; `high` takes the place of `common.highProfile`. -/
structure HighParameterSet where
  common : SeqParameterSet
  high : HighFields

/-- The fields of the first two chroma formats among those of all. -/
def HighProfileFields.toHighFields (h : HighProfileFields) : HighFields where
  chromaFormatIdc := h.chromaFormatIdc
  separateColourPlane := false
  bitDepthLumaMinus8 := h.bitDepthLumaMinus8
  bitDepthChromaMinus8 := h.bitDepthChromaMinus8
  qpprimeYZeroTransformBypass := h.qpprimeYZeroTransformBypass
  scalingMatrix := none
  chroma := h.chroma.trans (by decide)

def HighParameterSet.ofCommon (s : SeqParameterSet) : HighParameterSet :=
  ⟨s, s.highProfile.toHighFields⟩

def ScalingList.bits {size : ℕ} (l : ScalingList size) : List Bool :=
  l.deltas.flatMap fun delta : DeltaScale => signedExpGolomb delta

/-- The flag of a list, and the list if it is present. -/
def ScalingMatrix.listBits {n : ℕ} (m : ScalingMatrix n) (i : Fin n) : List Bool :=
  match m i with
  | none => [false]
  | some list => [true] ++ list.bits

def ScalingMatrix.bits {n : ℕ} (m : ScalingMatrix n) : List Bool :=
  (List.finRange n).flatMap m.listBits

namespace HighFields

def separateColourPlaneBits (h : HighFields) : List Bool :=
  if h.chromaFormatIdc = 3 then [h.separateColourPlane] else []

def scalingMatrixBits (h : HighFields) : List Bool :=
  match h.scalingMatrix with
  | none => [false]
  | some scalingMatrix => [true] ++ scalingMatrix.bits

def bits (h : HighFields) : List Bool :=
  expGolomb h.chromaFormatIdc ++ (h.separateColourPlaneBits ++
    (expGolomb h.bitDepthLumaMinus8 ++ (expGolomb h.bitDepthChromaMinus8 ++
      ([h.qpprimeYZeroTransformBypass] ++ h.scalingMatrixBits))))

end HighFields

namespace HighParameterSet

def highBits (s : HighParameterSet) : List Bool :=
  if s.common.profileIdc ∈ highProfiles then s.high.bits else []

/-- The fields up to the cropping, in their order. -/
def sizeBits (s : HighParameterSet) : List Bool := s.common.sizeFields s.highBits

/-- The payload, with its stop bit. -/
def rbsp (s : HighParameterSet) : Bytes := packBits (s.sizeBits ++ s.common.vuiBits ++ [true])

/-- A set of the first two chroma formats is written as before. -/
theorem rbsp_ofCommon (s : SeqParameterSet) : (ofCommon s).rbsp = s.rbsp := by
  have hthree : s.highProfile.chromaFormatIdc ≠ 3 := by
    have hchroma := s.highProfile.chroma
    omega
  have hplane : s.highProfile.toHighFields.separateColourPlaneBits = [] := if_neg hthree
  have hbits : (ofCommon s).highBits = s.highProfileBits := by
    unfold highBits SeqParameterSet.highProfileBits ofCommon HighFields.bits
    rw [hplane, List.nil_append]
    rfl
  unfold rbsp sizeBits
  rw [hbits]
  rfl

def chromaFormatIdc (s : HighParameterSet) : ℕ :=
  if s.common.profileIdc ∈ highProfiles then s.high.chromaFormatIdc else 1

/-! ### The size by the specification -/

/-- `ChromaArrayType`: separate colour planes are coded as monochrome. -/
def chromaArrayType (s : HighParameterSet) : ℕ :=
  if s.chromaFormatIdc = 3 ∧ s.high.separateColourPlane then 0 else s.chromaFormatIdc

/-- `CropUnitX`: `SubWidthC`, 1 without chroma. -/
def cropUnitX (s : HighParameterSet) : ℕ :=
  if s.chromaArrayType = 1 ∨ s.chromaArrayType = 2 then 2 else 1

/-- `CropUnitY`: `SubHeightC * (2 - frame_mbs_only_flag)`. -/
def cropUnitY (s : HighParameterSet) : ℕ :=
  (if s.chromaArrayType = 1 then 2 else 1) * (2 - s.common.frameMbsOnly)

def cropX (s : HighParameterSet) : ℕ := s.common.cropOffset (·.left) + s.common.cropOffset (·.right)

def cropY (s : HighParameterSet) : ℕ := s.common.cropOffset (·.top) + s.common.cropOffset (·.bottom)

def width (s : HighParameterSet) : ℤ := s.common.lumaWidth - s.cropUnitX * s.cropX

def height (s : HighParameterSet) : ℤ := s.common.lumaHeight - s.cropUnitY * s.cropY

/-! ### The size in the units of 4:2:0 -/

def conservativeWidth (s : HighParameterSet) : ℤ :=
  s.common.lumaWidth - (if s.chromaFormatIdc = 0 then 1 else 2 : ℕ) * s.cropX

def conservativeHeight (s : HighParameterSet) : ℤ :=
  s.common.lumaHeight -
    ((if s.chromaFormatIdc = 0 then 1 else 2) * (2 - s.common.frameMbsOnly) : ℕ) * s.cropY

/-- No cropping in a direction in which the units of the chroma format are smaller. -/
def CropsAlike (s : HighParameterSet) : Prop :=
  (s.chromaFormatIdc = 3 → s.cropX = 0) ∧ (2 ≤ s.chromaFormatIdc → s.cropY = 0)

end HighParameterSet

/-! ### Scaling lists -/

/-- The signed code with its value. -/
theorem reads_delta (delta : DeltaScale) :
    Reads Unread readSe (signedExpGolomb delta) (·.toInt = delta) := by
  have hrange := delta.2
  exact reads_readSe_toInt (by omega)

/-- Between legal scales nothing overflows. -/
theorem toInt_nextScale {last d : Int32} {delta : DeltaScale}
    (hlast : 0 ≤ last.toInt ∧ last.toInt ≤ 255) (hd : d.toInt = delta) :
    ((last + d + 256) % 256).toInt = (last.toInt + delta + 256) % 256 := by
  have hrange := delta.2
  have h256 : (256 : Int32).toInt = 256 := rfl
  have hsum : InI32 (last.toInt + d.toInt) := by
    rw [hd]
    constructor <;> omega
  have hraised : InI32 ((last + d).toInt + (256 : Int32).toInt) := by
    rw [toInt_add_of_inI32 hsum, hd, h256]
    constructor <;> omega
  rw [Int32.toInt_mod, toInt_add_of_inI32 hraised, toInt_add_of_inI32 hsum, hd, h256]
  exact Int.tmod_eq_emod_of_nonneg (by omega)

/-- A list is read to its end, early or not. -/
theorem reads_skipScalingList {last next : Int32} {size : ℕ} {deltas : List DeltaScale}
    (hlast : 0 ≤ last.toInt ∧ last.toInt ≤ 255)
    (h : codesScales last.toInt next.toInt size deltas = true) :
    Reads Unread (skipScalingList last next size)
      (deltas.flatMap fun delta : DeltaScale => signedExpGolomb delta) fun _ => True := by
  induction size generalizing last next deltas with
  | zero =>
    obtain rfl := List.isEmpty_iff.mp h
    exact Reads.pure trivial
  | succ size ih =>
    unfold codesScales at h
    unfold skipScalingList
    by_cases hnext : next = 0
    · rw [if_pos (toInt_eq_zero_iff.mpr hnext)] at h
      rw [if_neg (not_not.mpr hnext)]
      show Reads Unread (skipScalingList (if next = 0 then last else next) next size) _ _
      rw [if_pos hnext]
      exact ih hlast h
    · rw [if_neg (mt toInt_eq_zero_iff.mp hnext)] at h
      rw [if_pos hnext]
      cases deltas with
      | nil => cases h
      | cons delta deltas =>
        apply (reads_delta delta).bind
        intro d hd
        have hscale := toInt_nextScale hlast hd
        show Reads Unread (skipScalingList (if (last + d + 256) % 256 = 0 then last
          else (last + d + 256) % 256) ((last + d + 256) % 256) size) _ _
        apply ih
        · split
          · exact hlast
          · rw [hscale]
            omega
        · rw [apply_ite Int32.toInt, hscale]
          simp only [← toInt_eq_zero_iff, hscale]
          exact h

/-- The lists `i`, …, `i + k - 1` of a matrix. -/
theorem reads_skipScalingLists {n : ℕ} (m : ScalingMatrix n) {i k : ℕ} (h : i + k ≤ n) :
    Reads Unread (skipScalingLists i k) ((((List.finRange n).drop i).take k).flatMap m.listBits)
      fun _ => True := by
  induction k generalizing i with
  | zero => exact Reads.pure trivial
  | succ k ih =>
    have hi : i < (List.finRange n).length := by
      rw [List.length_finRange]
      omega
    rw [List.drop_eq_getElem_cons hi, List.getElem_finRange, List.take_succ_cons,
      List.flatMap_cons]
    unfold skipScalingLists ScalingMatrix.listBits
    cases m (Fin.cast List.length_finRange ⟨i, hi⟩) with
    | none =>
      apply (reads_readBit false).seq
      rw [if_neg (by decide)]
      exact ih (by omega)
    | some list =>
      rw [List.append_assoc]
      apply (reads_readBit true).seq
      rw [if_pos (by decide)]
      have hcodes : codesScales (8 : Int32).toInt (8 : Int32).toInt (scalingListSize i)
          list.deltas = true := list.codes
      exact (reads_skipScalingList (by decide) hcodes).bind fun _ _ => ih (by omega)

/-! ### Reading the syntax -/

namespace HighFields

/-- The lists of a scaling matrix that the parser reads. -/
def knownLists (h : HighFields) : ℕ := if h.chromaFormatIdc ≠ 3 then 6 else 8

/-- The fields as far as the parser reads them. -/
def knownBits (h : HighFields) : List Bool :=
  expGolomb h.chromaFormatIdc ++ (h.separateColourPlaneBits ++
    (expGolomb h.bitDepthLumaMinus8 ++ (expGolomb h.bitDepthChromaMinus8 ++
      ([h.qpprimeYZeroTransformBypass] ++
        match h.scalingMatrix with
        | none => [false]
        | some scalingMatrix => [true] ++
          ((List.finRange _).take h.knownLists).flatMap scalingMatrix.listBits))))

theorem knownBits_of_none {h : HighFields} (hmatrix : h.scalingMatrix = none) :
    h.knownBits = h.bits := by
  unfold knownBits bits scalingMatrixBits
  rw [hmatrix]

/-- Of every scaling matrix, two lists are left, or four. -/
theorem bits_of_some {h : HighFields} {scalingMatrix : ScalingMatrix _}
    (hmatrix : h.scalingMatrix = some scalingMatrix) :
    h.bits = h.knownBits ++
      ((List.finRange _).drop h.knownLists).flatMap scalingMatrix.listBits := by
  unfold knownBits bits scalingMatrixBits ScalingMatrix.bits
  rw [hmatrix]
  simp only [List.append_assoc, ← List.flatMap_append, List.take_append_drop]

theorem reads (h : HighFields) :
    Reads Unread readHighProfileFields h.knownBits (· = UInt32.ofNat h.chromaFormatIdc) := by
  have hplane : UInt32.ofNat h.chromaFormatIdc = 3 ↔ h.chromaFormatIdc = 3 := by
    have hchroma := h.chroma
    rw [← UInt32.toNat_inj, UInt32.toNat_ofNat', Nat.mod_eq_of_lt (by omega)]
    rfl
  have hlists : (if UInt32.ofNat h.chromaFormatIdc ≠ 3 then 6 else 8) = h.knownLists :=
    if_congr (not_congr hplane) rfl rfl
  have hcount : 0 + h.knownLists ≤ scalingListCount h.chromaFormatIdc := by
    unfold knownLists scalingListCount
    split <;> omega
  unfold readHighProfileFields knownBits separateColourPlaneBits
  apply (reads_readUe (by have := h.chroma; omega)).seq
  rw [hlists]
  by_cases hthree : h.chromaFormatIdc = 3
  case' pos =>
    rw [if_pos (hplane.mpr hthree), if_pos hthree]
    refine (reads_ignore (reads_readBit h.separateColourPlane)).bind fun _ _ => ?_
  case' neg =>
    rw [if_neg (mt hplane.mp hthree), if_neg hthree, List.nil_append]
  all_goals
    refine (reads_ignore h.bitDepthLumaMinus8.reads).bind fun _ _ => ?_
    refine (reads_ignore h.bitDepthChromaMinus8.reads).bind fun _ _ => ?_
    refine (reads_ignore (reads_readBit h.qpprimeYZeroTransformBypass)).bind fun _ _ => ?_
    cases h.scalingMatrix with
    | none => exact (reads_readBit false).seq_nil (Reads.pure rfl)
    | some scalingMatrix =>
      apply (reads_readBit true).seq
      rw [if_pos (by decide)]
      have hread := (reads_skipScalingLists scalingMatrix hcount).bind fun _ _ =>
        Reads.pure (P := (· = UInt32.ofNat h.chromaFormatIdc)) rfl
      rwa [List.append_nil] at hread

end HighFields

namespace HighParameterSet

/-- The parser knows the profile and reads no scaling matrix. -/
structure InStep (s : HighParameterSet) : Prop where
  profile : s.common.profileIdc ≠ 135
  scalingMatrix : s.common.profileIdc ∈ highProfiles → s.high.scalingMatrix = none

theorem InStep.reads_chromaFormatIdc {s : HighParameterSet} (h : s.InStep) :
    Reads Unread
      (if isHighProfile (UInt32.ofNat s.common.profileIdc.toNat) then readHighProfileFields
        else pure 1)
      s.highBits (· = UInt32.ofNat s.chromaFormatIdc) := by
  rw [isHighProfile_ofNat h.profile, highBits, chromaFormatIdc]
  by_cases hhigh : s.common.profileIdc ∈ highProfiles
  · rw [decide_eq_true hhigh, if_pos rfl, if_pos hhigh, if_pos hhigh]
    rw [← HighFields.knownBits_of_none (h.scalingMatrix hhigh)]
    exact s.high.reads
  · rw [decide_eq_false hhigh, if_neg Bool.false_ne_true, if_neg hhigh, if_neg hhigh]
    exact Reads.pure rfl

theorem chromaFormatIdc_le (s : HighParameterSet) : s.chromaFormatIdc ≤ 3 := by
  unfold chromaFormatIdc
  split
  · exact s.high.chroma
  · decide

theorem exists_bytesBits_rbsp (s : HighParameterSet) :
    ∃ rest, bytesBits s.rbsp = s.common.sizeFields s.highBits ++ rest := by
  rw [rbsp, List.append_assoc]
  exact exists_bytesBits_packBits s.sizeBits _

/-! ### The size -/

/-- The fields that the parser keeps. -/
def pictureSize (s : HighParameterSet) : PictureSize :=
  { s.common.pictureSize with chromaFormatIdc := s.chromaFormatIdc }

theorem codedWidth_pictureSize (s : HighParameterSet) :
    s.pictureSize.codedWidth = s.common.lumaWidth :=
  s.common.codedWidth_pictureSize

theorem codedHeight_pictureSize (s : HighParameterSet) :
    s.pictureSize.codedHeight = s.common.lumaHeight :=
  s.common.codedHeight_pictureSize

theorem width_pictureSize (s : HighParameterSet) :
    s.pictureSize.width = s.conservativeWidth := by
  rw [PictureSize.width, codedWidth_pictureSize, conservativeWidth, cropX, Nat.cast_add]
  rfl

theorem height_pictureSize (s : HighParameterSet) :
    s.pictureSize.height = s.conservativeHeight := by
  rw [PictureSize.height, codedHeight_pictureSize, conservativeHeight, cropY, Nat.cast_add,
    ite_mul, Nat.one_mul]
  rfl

/-- Separate colour planes and chroma of full size have the same units. -/
theorem cropUnitX_eq (s : HighParameterSet) :
    s.cropUnitX = if s.chromaFormatIdc = 1 ∨ s.chromaFormatIdc = 2 then 2 else 1 := by
  unfold cropUnitX chromaArrayType
  by_cases hplanes : s.chromaFormatIdc = 3 ∧ s.high.separateColourPlane
  · rw [if_pos hplanes, hplanes.1]
    rfl
  · rw [if_neg hplanes]

theorem cropUnitY_eq (s : HighParameterSet) :
    s.cropUnitY = (if s.chromaFormatIdc = 1 then 2 else 1) * (2 - s.common.frameMbsOnly) := by
  unfold cropUnitY chromaArrayType
  by_cases hplanes : s.chromaFormatIdc = 3 ∧ s.high.separateColourPlane
  · rw [if_pos hplanes, hplanes.1]
    rfl
  · rw [if_neg hplanes]

theorem conservativeWidth_eq_iff (s : HighParameterSet) :
    s.conservativeWidth = s.width ↔ (s.chromaFormatIdc = 3 → s.cropX = 0) := by
  have hle := s.chromaFormatIdc_le
  rw [conservativeWidth, width, cropUnitX_eq, sub_right_inj]
  split_ifs <;> omega

theorem conservativeHeight_eq_iff (s : HighParameterSet) :
    s.conservativeHeight = s.height ↔ (2 ≤ s.chromaFormatIdc → s.cropY = 0) := by
  have hle := s.chromaFormatIdc_le
  have hfields : s.common.frameMbsOnly = 0 ∨ s.common.frameMbsOnly = 1 := by
    have hlt := s.common.frameMbsOnly_lt
    omega
  rw [conservativeHeight, height, cropUnitY_eq, sub_right_inj]
  rcases hfields with hfields | hfields
  · rw [hfields]
    split_ifs <;> omega
  · rw [hfields]
    split_ifs <;> omega

/-- The size in the crop units of 4:2:0 is found in every set that is read in step. -/
theorem exists_parse_nalUnit {s : HighParameterSet} (header : UInt8) (hstep : s.InStep)
    (hescape : preventEmulation 0 s.rbsp = s.rbsp) (hwidth : 0 < s.conservativeWidth)
    (hheight : 0 < s.conservativeHeight) (hlumaW : s.common.lumaWidth < 2 ^ 32)
    (hlumaH : s.common.lumaHeight < 2 ^ 32) :
    ∃ width height, parseSpsDimensions (nalUnit header s.rbsp) = some (width, height) ∧
      (width.toNat : ℤ) = s.conservativeWidth ∧ (height.toNat : ℤ) = s.conservativeHeight := by
  obtain ⟨rest, hrest⟩ := s.exists_bytesBits_rbsp
  rw [← s.codedWidth_pictureSize] at hlumaW
  rw [← s.codedHeight_pictureSize] at hlumaH
  rw [← s.width_pictureSize] at hwidth ⊢
  rw [← s.height_pictureSize] at hheight ⊢
  rw [nalUnit, hescape]
  exact s.common.exists_parse_sizeFields header
    (lt_of_le_of_lt s.chromaFormatIdc_le (by decide)) hstep.reads_chromaFormatIdc hrest
    (PictureSize.fits_of_pos hwidth hheight hlumaW hlumaH) hwidth hheight

/-- In the first two chroma formats the units are the parser's. -/
theorem conservativeWidth_ofCommon (s : SeqParameterSet) :
    (ofCommon s).conservativeWidth = s.width := by
  rw [conservativeWidth, cropX, Nat.cast_add]
  rfl

theorem conservativeHeight_ofCommon (s : SeqParameterSet) :
    (ofCommon s).conservativeHeight = s.height := by
  rw [conservativeHeight, cropY, Nat.cast_add]
  rfl

end HighParameterSet

/-- Of every parameter set without a scaling matrix and without emulation prevention, the size
that the specification gives it is found, if the machine words can hold it. -/
theorem parse_nalUnit (s : SeqParameterSet) (header : UInt8) (hprofile : s.profileIdc ≠ 135)
    (hescape : preventEmulation 0 s.rbsp = s.rbsp) (hwidth : 0 < s.width) (hheight : 0 < s.height)
    (hlumaW : s.lumaWidth < 2 ^ 32) (hlumaH : s.lumaHeight < 2 ^ 32) :
    ∃ width height, parseSpsDimensions (nalUnit header s.rbsp) = some (width, height) ∧
      (width.toNat : ℤ) = s.width ∧ (height.toNat : ℤ) = s.height := by
  have hw := HighParameterSet.conservativeWidth_ofCommon s
  have hh := HighParameterSet.conservativeHeight_ofCommon s
  rw [← hw] at hwidth ⊢
  rw [← hh] at hheight ⊢
  rw [← HighParameterSet.rbsp_ofCommon s] at hescape ⊢
  exact HighParameterSet.exists_parse_nalUnit header ⟨hprofile, fun _ => rfl⟩ hescape hwidth
    hheight hlumaW hlumaH

/-- An interlaced 1920x1080 stream of a high profile encoder: 1088 lines of macroblocks, of
which the last eight are cropped. -/
def interlacedSps : SeqParameterSet where
  profileIdc := 100
  constraintFlags := 0
  levelIdc := 40
  seqParameterSetId := ⟨0, by decide⟩
  highProfile := ⟨1, ⟨0, by decide⟩, ⟨0, by decide⟩, false, by decide⟩
  log2MaxFrameNumMinus4 := ⟨0, by decide⟩
  picOrderCnt := .offsets false ⟨-1, by decide⟩ ⟨0, by decide⟩ [⟨2, by decide⟩, ⟨-3, by decide⟩]
    (by decide)
  maxNumRefFrames := ⟨4, by decide⟩
  gapsInFrameNumValueAllowed := false
  picWidthInMbsMinus1 := ⟨119, by decide⟩
  picHeightInMapUnitsMinus1 := ⟨33, by decide⟩
  mbAdaptiveFrameField := some true
  direct8x8Inference := true
  frameCropping := some ⟨⟨0, by decide⟩, ⟨0, by decide⟩, ⟨0, by decide⟩, ⟨2, by decide⟩⟩
  vuiParameters := none

theorem parse_nalUnit_interlaced :
    (interlacedSps.width = 1920 ∧ interlacedSps.height = 1080) ∧
    ∃ width height, parseSpsDimensions (nalUnit 0x67 interlacedSps.rbsp) = some (width, height) ∧
      (width.toNat : ℤ) = interlacedSps.width ∧ (height.toNat : ℤ) = interlacedSps.height := by
  constructor
  · decide +kernel
  · exact parse_nalUnit interlacedSps 0x67 (by decide) (by decide +kernel) (by decide +kernel)
      (by decide +kernel) (by decide +kernel) (by decide +kernel)

/-- Of every parameter set of a known profile without a scaling matrix, the size in the crop
units of 4:2:0 is found; it is the one of the specification exactly if no cropping is scaled
up. -/
theorem parse_anyChroma (s : HighParameterSet) (header : UInt8) (hstep : s.InStep)
    (hescape : preventEmulation 0 s.rbsp = s.rbsp) (hwidth : 0 < s.conservativeWidth)
    (hheight : 0 < s.conservativeHeight) (hlumaW : s.common.lumaWidth < 2 ^ 32)
    (hlumaH : s.common.lumaHeight < 2 ^ 32) :
    (∃ width height, parseSpsDimensions (nalUnit header s.rbsp) = some (width, height) ∧
      (width.toNat : ℤ) = s.conservativeWidth ∧ (height.toNat : ℤ) = s.conservativeHeight) ∧
    (s.conservativeWidth = s.width ∧ s.conservativeHeight = s.height ↔ s.CropsAlike) := by
  constructor
  · exact HighParameterSet.exists_parse_nalUnit header hstep hescape hwidth hheight hlumaW hlumaH
  · rw [s.conservativeWidth_eq_iff, s.conservativeHeight_eq_iff]
    rfl

/-- A 1920x1080 stream in 4:2:2: 1088 lines of macroblocks, of which the last eight are
cropped, in units of one line. -/
def croppedSps422 : HighParameterSet where
  common := { interlacedSps with
    profileIdc := 122
    picHeightInMapUnitsMinus1 := ⟨67, by decide⟩
    mbAdaptiveFrameField := none
    frameCropping := interlacedSps.frameCropping.map ({ · with bottom := ⟨8, by decide⟩ }) }
  high := { interlacedSps.highProfile.toHighFields with
    chromaFormatIdc := 2
    scalingMatrix := none
    chroma := by decide }

theorem parse_anyChroma_cropped :
    (∃ width height,
      parseSpsDimensions (nalUnit 0x67 croppedSps422.rbsp) = some (width, height) ∧
      (width.toNat : ℤ) = croppedSps422.conservativeWidth ∧
      (height.toNat : ℤ) = croppedSps422.conservativeHeight) ∧
    (croppedSps422.conservativeWidth = croppedSps422.width ∧
      croppedSps422.conservativeHeight = croppedSps422.height ↔ croppedSps422.CropsAlike) :=
  parse_anyChroma croppedSps422 0x67 ⟨by decide, fun _ => rfl⟩ (by decide +kernel)
    (by decide +kernel) (by decide +kernel) (by decide +kernel) (by decide +kernel)

/-- A 1920x1088 stream with a scaling matrix whose lists are all absent. -/
def absentListsSps : HighParameterSet where
  common := { interlacedSps with frameCropping := none }
  high := { interlacedSps.highProfile.toHighFields with scalingMatrix := some fun _ => none }

/-- Eight lines too many are cropped in 4:2:2, and behind a scaling matrix another size is
found. -/
theorem anyChroma_size_wrong :
    (croppedSps422.common.profileIdc ∈ highProfiles ∧
      croppedSps422.chromaFormatIdc = 2 ∧ croppedSps422.common.frameCropping.isSome ∧
      preventEmulation 0 croppedSps422.rbsp = croppedSps422.rbsp ∧
      croppedSps422.width = 1920 ∧ croppedSps422.height = 1080 ∧
      parseSpsDimensions (nalUnit 0x67 croppedSps422.rbsp) = some (1920, 1072)) ∧
    (absentListsSps.common.profileIdc ∈ highProfiles ∧
      absentListsSps.high.scalingMatrix.isSome ∧
      preventEmulation 0 absentListsSps.rbsp = absentListsSps.rbsp ∧
      absentListsSps.width = 1920 ∧ absentListsSps.height = 1088 ∧
      parseSpsDimensions (nalUnit 0x67 absentListsSps.rbsp) ≠ some (1920, 1088)) := by
  decide +kernel

end StreamInfa.Ingest
