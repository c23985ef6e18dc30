import StreamInfa.Ingest.SpsArithmetic
import StreamInfa.Lib.Bits

/-!
The syntax of sequence parameter sets, and what `parse_sps_dimensions` reads of it.

`SeqParameterSet.rbsp` writes a parameter set the way the H.264 specification lays it out,
without a scaling matrix, and `nalUnit` puts it behind a header byte with emulation
prevention.

The parser is read against the syntax one field at a time (`Reads`): each of its reads
consumes the code of one field, whatever its length, and returns its value. `reads_sizeFields`
has the fields up to the size, behind any bits for those of the high profiles.
-/

namespace StreamInfa.Ingest

/-! ### Codes -/

/-- The bits that the reader has not read. -/
structure Unread (r : BitReader) (bits : List Bool) : Prop where
  bitPos : r.bitPos < 8
  rest : (bytesBits r.data).drop (8 * r.bytePos + r.bitPos) = bits

variable {α β : Type}

theorem unread_new (data : Bytes) : Unread (BitReader.new data) (bytesBits data) :=
  ⟨Nat.zero_lt_succ 7, rfl⟩

theorem run_readBit {r : BitReader} {byte : UInt8} (h : r.data[r.bytePos]? = some byte) :
    readBit.run r = (some (UInt32.ofNat (byte.toNat / 2 ^ (7 - r.bitPos) % 2)),
      if r.bitPos + 1 = 8 then { r with bytePos := r.bytePos + 1, bitPos := 0 }
      else { r with bitPos := r.bitPos + 1 }) := by
  have hget : (get : BitM BitReader).run r = (some r, r) := rfl
  rw [readBit, run_bind_some hget, h]
  rfl

theorem run_readBit_none {r : BitReader} (h : r.data[r.bytePos]? = none) :
    readBit.run r = (none, r) := by
  have hget : (get : BitM BitReader).run r = (some r, r) := rfl
  rw [readBit, run_bind_some hget, h]
  rfl

theorem reads_readBit (b : Bool) : Reads Unread readBit [b] (· = UInt32.ofNat b.toNat) := by
  intro r rest h
  obtain ⟨hpos, hrest⟩ := h
  rw [List.singleton_append] at hrest
  have hlt : 8 * r.bytePos + r.bitPos < (bytesBits r.data).length := by
    by_contra hge
    rw [List.drop_of_length_le (by omega)] at hrest
    cases hrest
  rw [List.drop_eq_getElem_cons hlt] at hrest
  obtain ⟨hbit, hrest⟩ := List.cons.inj hrest
  have hget := getElem?_bytesBits r.data r.bytePos hpos
  rw [List.getElem?_eq_getElem hlt, hbit] at hget
  obtain ⟨byte, hbyte, htest⟩ := Option.map_eq_some_iff.mp hget.symm
  have hvalue : byte.toNat / 2 ^ (7 - r.bitPos) % 2 = b.toNat := by
    rw [← htest, Nat.toNat_testBit]
  refine ⟨_, _, (run_readBit hbyte).trans (by rw [hvalue]), rfl, ?_⟩
  split
  · rename_i hlast
    refine ⟨Nat.zero_lt_succ 7, ?_⟩
    rw [← hrest]
    exact congrArg (List.drop · (bytesBits r.data)) (by dsimp only; omega)
  · rename_i hmore
    exact ⟨by dsimp only; omega, hrest⟩

/-! ### Fields and exp-Golomb codes -/

theorem ofNat_shiftLeft_or (val : UInt32) (b : Bool) :
    (val <<< 1) ||| UInt32.ofNat b.toNat = UInt32.ofNat (2 * val.toNat + b.toNat) := by
  have hbit : b.toNat < 2 ^ 1 := lt_of_le_of_lt (Bool.toNat_le b) (by decide)
  have hshift : (val <<< 1).toNat = (val.toNat % 2 ^ 31) <<< 1 := by
    rw [UInt32.toNat_shiftLeft, Nat.shiftLeft_eq, Nat.shiftLeft_eq,
      show (1 : UInt32).toNat % 32 = 1 from rfl]
    omega
  have hlow : b.toNat % 2 ^ 32 = b.toNat := Nat.mod_eq_of_lt (by omega)
  apply UInt32.toNat_inj.mp
  rw [UInt32.toNat_or, hshift, UInt32.toNat_ofNat', UInt32.toNat_ofNat', hlow,
    ← Nat.shiftLeft_add_eq_or_of_lt hbit, Nat.shiftLeft_eq]
  omega

/-- The bits behind those of `val`. -/
theorem reads_readBitsFrom (val : UInt32) (bits : List Bool) :
    Reads Unread (readBitsFrom val bits.length) bits
      (· = UInt32.ofNat (val.toNat * 2 ^ bits.length + bitsNat bits)) := by
  induction bits generalizing val with
  | nil =>
    have hval : UInt32.ofNat (val.toNat * 2 ^ 0 + 0) = val := by simp
    rw [List.length_nil, bitsNat, hval]
    exact Reads.pure rfl
  | cons b bits ih =>
    have hrest := ih (UInt32.ofNat (2 * val.toNat + b.toNat))
    have hvalue : UInt32.ofNat ((UInt32.ofNat (2 * val.toNat + b.toNat)).toNat *
        2 ^ bits.length + bitsNat bits) =
          UInt32.ofNat (val.toNat * 2 ^ (bits.length + 1) + (b.toNat * 2 ^ bits.length +
            bitsNat bits)) := by
      apply UInt32.toNat_inj.mp
      have hsum : val.toNat * 2 ^ (bits.length + 1) + (b.toNat * 2 ^ bits.length + bitsNat bits) =
          (2 * val.toNat + b.toNat) * 2 ^ bits.length + bitsNat bits := by
        rw [Nat.pow_succ]
        ring
      rw [UInt32.toNat_ofNat', UInt32.toNat_ofNat', UInt32.toNat_ofNat', hsum]
      rw [Nat.add_mod, Nat.mul_mod, Nat.mod_mod, ← Nat.mul_mod, ← Nat.add_mod]
    rw [hvalue, ← ofNat_shiftLeft_or] at hrest
    exact (reads_readBit b).seq hrest

theorem reads_readBits {n w : ℕ} (h : n < 2 ^ w) :
    Reads Unread (readBits w) (beBits w n) (· = UInt32.ofNat n) := by
  have hread := reads_readBitsFrom 0 (beBits w n)
  rw [length_beBits, bitsNat_beBits_of_lt h, UInt32.toNat_zero, Nat.zero_mul, Nat.zero_add]
    at hread
  exact hread

theorem reads_readLeadingZeros {left k : ℕ} (h : k ≤ left) :
    Reads Unread (readLeadingZeros left) (List.replicate k false ++ [true]) (· = k) := by
  induction left generalizing k with
  | zero =>
    obtain rfl := Nat.le_zero.mp h
    exact (reads_readBit true).seq (Reads.pure rfl)
  | succ left ih =>
    cases k with
    | zero => exact (reads_readBit true).seq (Reads.pure rfl)
    | succ k =>
      apply (reads_readBit false).seq
      exact (ih (Nat.le_of_succ_le_succ h)).seq_nil (Reads.pure rfl)

/-- The unsigned code of a field. -/
theorem reads_readUe {n : ℕ} (h : n + 1 < 2 ^ 32) :
    Reads Unread readUe (expGolomb n) (· = UInt32.ofNat n) := by
  have hlog : n + 1 < 2 ^ (Nat.log2 (n + 1) + 1) := Nat.lt_log2_self
  have hself : 2 ^ Nat.log2 (n + 1) ≤ n + 1 := Nat.log2_self_le (Nat.succ_ne_zero n)
  have hk31 : Nat.log2 (n + 1) ≤ 31 :=
    Nat.le_of_lt_succ ((Nat.log2_lt (Nat.succ_ne_zero n)).mpr h)
  unfold expGolomb
  generalize Nat.log2 (n + 1) = k at hlog hself hk31
  have hcode : List.replicate k false ++ true :: beBits k (n + 1 - 2 ^ k) =
      (List.replicate k false ++ [true]) ++ beBits k (n + 1 - 2 ^ k) := by
    rw [List.append_assoc, List.singleton_append]
  rw [hcode]
  apply (reads_readLeadingZeros hk31).seq
  split
  · rename_i hzero
    subst hzero
    obtain rfl : n = 0 := by omega
    exact Reads.pure rfl
  · have hsuffix : n + 1 - 2 ^ k < 2 ^ k := by
      rw [Nat.pow_succ] at hlog
      omega
    have hvalue : (1 : UInt32) <<< UInt32.ofNat k - 1 + UInt32.ofNat (n + 1 - 2 ^ k) =
        UInt32.ofNat n := by
      apply UInt32.toNat_inj.mp
      have htop := toNat_shiftLeft_sub_one hk31
      have hlow : (UInt32.ofNat (n + 1 - 2 ^ k)).toNat = n + 1 - 2 ^ k := by
        rw [UInt32.toNat_ofNat', Nat.mod_eq_of_lt (by omega)]
      rw [toNat_add_of_lt (by omega), htop, hlow, UInt32.toNat_ofNat', Nat.mod_eq_of_lt (by omega)]
      omega
    exact (reads_readBits hsuffix).seq_nil (Reads.pure hvalue)

/-- The signed integer of an odd code. -/
theorem toInt_of_odd {code : UInt32} (hodd : code.toNat % 2 = 1) (h : code.toNat + 1 < 2 ^ 32) :
    ((code + 1) >>> 1).toInt32.toInt = (code.toNat + 1) / 2 := by
  have hnext : (code + 1).toNat = code.toNat + 1 := toNat_add_of_lt h
  have hhalf : ((code + 1) >>> 1).toNat = (code.toNat + 1) / 2 := by
    rw [← hnext]
    exact UInt32.toNat_shiftRight (code + 1) 1
  rw [toInt_toInt32 (by omega), hhalf]
  omega

/-- The signed integer of an even code. -/
theorem toInt_of_even (code : UInt32) :
    (-(code >>> 1).toInt32).toInt = -(code.toNat / 2) := by
  have hhalf : (code >>> 1).toNat = code.toNat / 2 := UInt32.toNat_shiftRight code 1
  have hlt := code.toNat_lt
  have hint : (code >>> 1).toInt32.toInt = (code >>> 1).toNat := toInt_toInt32 (by omega)
  rw [toInt_neg_of_inI32 ⟨by omega, by omega⟩, hint, hhalf]
  omega

theorem and_one_eq_one_iff (code : UInt32) : code &&& 1 = 1 ↔ code.toNat % 2 = 1 := by
  rw [← UInt32.toNat_inj, UInt32.toNat_and, UInt32.toNat_one, Nat.and_one_is_mod]

/-- The signed code of a field. -/
theorem reads_readSe_toInt {z : ℤ} (h : z.natAbs < 2 ^ 31) :
    Reads Unread readSe (signedExpGolomb z) (·.toInt = z) := by
  have hcode : (if 0 < z then 2 * z.natAbs - 1 else 2 * z.natAbs) + 1 < 2 ^ 32 := by
    split <;> omega
  apply (reads_readUe hcode).seq_nil
  have hvalue : (UInt32.ofNat (if 0 < z then 2 * z.natAbs - 1 else 2 * z.natAbs)).toNat =
      if 0 < z then 2 * z.natAbs - 1 else 2 * z.natAbs := by
    rw [UInt32.toNat_ofNat', Nat.mod_eq_of_lt (Nat.lt_of_succ_lt hcode)]
  rw [← hvalue] at hcode
  generalize UInt32.ofNat (if 0 < z then 2 * z.natAbs - 1 else 2 * z.natAbs) = code at hvalue hcode
  split
  · rename_i hodd
    rw [and_one_eq_one_iff] at hodd
    refine Reads.pure ?_
    rw [toInt_of_odd hodd hcode]
    split at hvalue <;> omega
  · rename_i heven
    rw [and_one_eq_one_iff] at heven
    refine Reads.pure ?_
    rw [toInt_of_even]
    split at hvalue <;> omega

/-- The signed code of a field; the parser uses none of these values. -/
theorem reads_readSe {z : ℤ} (h : z.natAbs < 2 ^ 31) :
    Reads Unread readSe (signedExpGolomb z) fun _ => True :=
  (reads_readSe_toInt h).mono fun _ _ => trivial

theorem reads_ignore {x : BitM α} {code : List Bool} {P : α → Prop} (h : Reads Unread x code P) :
    Reads Unread x.ignore code fun _ => True := by
  intro r rest hr
  obtain ⟨a, r', hrun, -, hr'⟩ := h r rest hr
  refine ⟨(), r', ?_, trivial, hr'⟩
  show ((some (), (x.run r).2) : Option Unit × BitReader) = _
  rw [hrun]

theorem reads_unwrapOr {x : BitM α} {code : List Bool} {P : α → Prop} (h : Reads Unread x code P)
    (default : α) : Reads Unread (x.unwrapOr default) code P := by
  intro r rest hr
  obtain ⟨a, r', hrun, ha, hr'⟩ := h r rest hr
  refine ⟨a, r', ?_, ha, hr'⟩
  show ((some ((x.run r).1.getD default), (x.run r).2) : Option α × BitReader) = _
  rw [hrun]
  rfl

/-! ### The syntax -/

/-- A value that has an unsigned code. -/
abbrev UeValue := {n : ℕ // n + 1 < 2 ^ 32}

/-- A value that has a signed code. -/
abbrev SeValue := {z : ℤ // z.natAbs < 2 ^ 31}

/-- The fields behind `pic_order_cnt_type`, for the types 0, 1 and 2. -/
inductive PicOrderCnt where
  | lsb (log2MaxPicOrderCntLsbMinus4 : UeValue)
  | offsets (deltaPicOrderAlwaysZero : Bool) (offsetForNonRefPic : SeValue)
      (offsetForTopToBottomField : SeValue) (offsetForRefFrame : List SeValue)
      (codable : offsetForRefFrame.length + 1 < 2 ^ 32)
  | output

/-- The fields that only the high profiles have, without a scaling matrix. -/
structure HighProfileFields where
  chromaFormatIdc : ℕ
  bitDepthLumaMinus8 : UeValue
  bitDepthChromaMinus8 : UeValue
  qpprimeYZeroTransformBypass : Bool
  chroma : chromaFormatIdc ≤ 1

structure FrameCropping where
  left : UeValue
  right : UeValue
  top : UeValue
  bottom : UeValue

structure SeqParameterSet where
  profileIdc : UInt8
  constraintFlags : UInt8
  levelIdc : UInt8
  seqParameterSetId : UeValue
  /-- Written for the high profiles. -/
  highProfile : HighProfileFields
  log2MaxFrameNumMinus4 : UeValue
  picOrderCnt : PicOrderCnt
  maxNumRefFrames : UeValue
  gapsInFrameNumValueAllowed : Bool
  picWidthInMbsMinus1 : UeValue
  picHeightInMapUnitsMinus1 : UeValue
  /-- `mb_adaptive_frame_field_flag`, if `frame_mbs_only_flag` is 0. -/
  mbAdaptiveFrameField : Option Bool
  direct8x8Inference : Bool
  frameCropping : Option FrameCropping
  /-- The bits of the VUI parameters. -/
  vuiParameters : Option (List Bool)

/-- The profiles that write the high profile fields. -/
def highProfiles : List UInt8 := [100, 110, 122, 244, 44, 83, 86, 118, 128, 138, 139, 134, 135]

def PicOrderCnt.bits : PicOrderCnt → List Bool
  | .lsb log2MaxPicOrderCntLsbMinus4 => expGolomb 0 ++ expGolomb log2MaxPicOrderCntLsbMinus4
  | .offsets deltaPicOrderAlwaysZero offsetForNonRefPic offsetForTopToBottomField
      offsetForRefFrame _ =>
    expGolomb 1 ++ ([deltaPicOrderAlwaysZero] ++ (signedExpGolomb offsetForNonRefPic ++
      (signedExpGolomb offsetForTopToBottomField ++ (expGolomb offsetForRefFrame.length ++
        offsetForRefFrame.flatMap fun offset => signedExpGolomb offset))))
  | .output => expGolomb 2

def HighProfileFields.bits (h : HighProfileFields) : List Bool :=
  expGolomb h.chromaFormatIdc ++ (expGolomb h.bitDepthLumaMinus8 ++
    (expGolomb h.bitDepthChromaMinus8 ++ ([h.qpprimeYZeroTransformBypass] ++ [false])))

def FrameCropping.bits (c : FrameCropping) : List Bool :=
  expGolomb c.left ++ (expGolomb c.right ++ (expGolomb c.top ++ expGolomb c.bottom))

namespace SeqParameterSet

def highProfileBits (s : SeqParameterSet) : List Bool :=
  if s.profileIdc ∈ highProfiles then s.highProfile.bits else []

/-- `frame_mbs_only_flag` and the flag behind it. -/
def frameMbsBits (s : SeqParameterSet) : List Bool :=
  match s.mbAdaptiveFrameField with
  | none => [true]
  | some adaptive => [false] ++ [adaptive]

def croppingBits (s : SeqParameterSet) : List Bool :=
  match s.frameCropping with
  | none => [false]
  | some cropping => [true] ++ cropping.bits

def vuiBits (s : SeqParameterSet) : List Bool :=
  match s.vuiParameters with
  | none => [false]
  | some vui => [true] ++ vui

/-- The fields up to the cropping, with `highBits` in the place of the high profile fields. -/
def sizeFields (s : SeqParameterSet) (highBits : List Bool) : List Bool :=
  [beBits 8 s.profileIdc.toNat, beBits 8 s.constraintFlags.toNat, beBits 8 s.levelIdc.toNat,
    expGolomb s.seqParameterSetId, highBits, expGolomb s.log2MaxFrameNumMinus4,
    s.picOrderCnt.bits, expGolomb s.maxNumRefFrames, [s.gapsInFrameNumValueAllowed],
    expGolomb s.picWidthInMbsMinus1, expGolomb s.picHeightInMapUnitsMinus1, s.frameMbsBits,
    [s.direct8x8Inference], s.croppingBits].flatten

/-- The fields up to the cropping, in their order. -/
def sizeBits (s : SeqParameterSet) : List Bool := s.sizeFields s.highProfileBits

/-- The payload, with its stop bit. -/
def rbsp (s : SeqParameterSet) : Bytes := packBits (s.sizeBits ++ s.vuiBits ++ [true])

def chromaFormatIdc (s : SeqParameterSet) : ℕ :=
  if s.profileIdc ∈ highProfiles then s.highProfile.chromaFormatIdc else 1

def frameMbsOnly (s : SeqParameterSet) : ℕ := if s.mbAdaptiveFrameField.isNone then 1 else 0

/-! ### The size by the specification -/

/-- `CropUnitX`: 1 for monochrome, `SubWidthC` of 4:2:0 otherwise. -/
def cropUnitX (s : SeqParameterSet) : ℕ := if s.chromaFormatIdc = 0 then 1 else 2

/-- `CropUnitY`: `SubHeightC * (2 - frame_mbs_only_flag)`, with 1 for `SubHeightC` if
monochrome. -/
def cropUnitY (s : SeqParameterSet) : ℕ :=
  (if s.chromaFormatIdc = 0 then 1 else 2) * (2 - s.frameMbsOnly)

/-- The cropping offsets, 0 without cropping. -/
def cropOffset (s : SeqParameterSet) (side : FrameCropping → UeValue) : ℕ :=
  match s.frameCropping with
  | none => 0
  | some cropping => side cropping

/-- The width of the macroblocks. -/
def lumaWidth (s : SeqParameterSet) : ℕ := 16 * (s.picWidthInMbsMinus1 + 1)

def lumaHeight (s : SeqParameterSet) : ℕ :=
  16 * (2 - s.frameMbsOnly) * (s.picHeightInMapUnitsMinus1 + 1)

def width (s : SeqParameterSet) : ℤ :=
  s.lumaWidth - s.cropUnitX * (s.cropOffset (·.left) + s.cropOffset (·.right))

def height (s : SeqParameterSet) : ℤ :=
  s.lumaHeight - s.cropUnitY * (s.cropOffset (·.top) + s.cropOffset (·.bottom))

/-- The fields that the parser keeps. -/
def pictureSize (s : SeqParameterSet) : PictureSize where
  chromaFormatIdc := s.chromaFormatIdc
  widthInMbs := s.picWidthInMbsMinus1
  heightInMapUnits := s.picHeightInMapUnitsMinus1
  frameMbsOnly := s.frameMbsOnly
  cropL := s.cropOffset (·.left)
  cropR := s.cropOffset (·.right)
  cropT := s.cropOffset (·.top)
  cropB := s.cropOffset (·.bottom)

/-- The size that the parser computes from the fields in a chroma format. -/
def computedSize (s : SeqParameterSet) (chromaFormatIdc : UInt32) : UInt32 × UInt32 :=
  let f := UInt32.ofNat s.frameMbsOnly
  let cropUnit : UInt32 × UInt32 :=
    if chromaFormatIdc = 0 then (1, 2 - f) else (2, 2 * (2 - f))
  ((UInt32.ofNat s.picWidthInMbsMinus1 + 1) * 16 - cropUnit.1 *
      (UInt32.ofNat (s.cropOffset (·.left)) + UInt32.ofNat (s.cropOffset (·.right))),
    (2 - f) * (UInt32.ofNat s.picHeightInMapUnitsMinus1 + 1) * 16 - cropUnit.2 *
      (UInt32.ofNat (s.cropOffset (·.top)) + UInt32.ofNat (s.cropOffset (·.bottom))))

end SeqParameterSet

/-- The bytes of a payload behind `zeros` zero bytes: a byte of at most 3 behind two of them
gets an emulation prevention byte. -/
def preventEmulation (zeros : ℕ) : Bytes → Bytes
  | [] => []
  | b :: rest =>
    if 2 ≤ zeros ∧ b ≤ 3 then 3 :: b :: preventEmulation (if b = 0 then 1 else 0) rest
    else b :: preventEmulation (if b = 0 then zeros + 1 else 0) rest

def nalUnit (header : UInt8) (rbsp : Bytes) : Bytes := header :: preventEmulation 0 rbsp

/-! ### Reading the syntax -/

theorem UeValue.reads (v : UeValue) : Reads Unread readUe (expGolomb v) (· = UInt32.ofNat v) :=
  reads_readUe v.2

theorem UeValue.toNat_ofNat (v : UeValue) : (UInt32.ofNat v).toNat = v := by
  rw [UInt32.toNat_ofNat', Nat.mod_eq_of_lt (Nat.lt_of_succ_lt v.2)]

theorem reads_skipSes (offsets : List SeValue) :
    Reads Unread (skipSes offsets.length) (offsets.flatMap fun offset => signedExpGolomb offset)
      fun _ => True := by
  induction offsets with
  | nil => exact Reads.pure trivial
  | cons offset offsets ih => exact (reads_ignore (reads_readSe offset.2)).bind fun _ _ => ih

theorem PicOrderCnt.reads (p : PicOrderCnt) :
    Reads Unread skipPicOrderCnt p.bits fun _ => True := by
  unfold skipPicOrderCnt
  cases p with
  | lsb log2 =>
    apply (reads_readUe (n := 0) (by decide)).seq
    exact reads_ignore log2.reads
  | offsets alwaysZero nonRef topToBottom refFrame hcodable =>
    apply (reads_readUe (n := 1) (by decide)).seq
    refine (reads_ignore (reads_readBit alwaysZero)).bind fun _ _ => ?_
    refine (reads_ignore (reads_readSe nonRef.2)).bind fun _ _ => ?_
    refine (reads_ignore (reads_readSe topToBottom.2)).bind fun _ _ => ?_
    apply (reads_readUe hcodable).seq
    rw [UInt32.toNat_ofNat', Nat.mod_eq_of_lt (Nat.lt_of_succ_lt hcodable)]
    exact reads_skipSes refFrame
  | output => exact (reads_readUe (n := 2) (by decide)).seq_nil (Reads.pure trivial)

theorem ofNat_toNat_injective : Function.Injective fun p : UInt8 => UInt32.ofNat p.toNat := by
  intro p q h
  have hword := UInt32.toNat_inj.mpr h
  have hp := p.toNat_lt
  have hq := q.toNat_lt
  simp only [UInt32.toNat_ofNat'] at hword
  exact UInt8.toNat_inj.mp (by omega)

/-- The parser knows all high profiles but one. -/
theorem isHighProfile_ofNat {p : UInt8} (h : p ≠ 135) :
    isHighProfile (UInt32.ofNat p.toNat) = decide (p ∈ highProfiles) := by
  have hknown : isHighProfile (UInt32.ofNat p.toNat) =
      decide (UInt32.ofNat p.toNat ∈ highProfiles.dropLast.map fun q => UInt32.ofNat q.toNat) :=
    rfl
  have hsplit : highProfiles = highProfiles.dropLast ++ [135] := rfl
  rw [hknown, decide_eq_decide, List.mem_map_of_injective ofNat_toNat_injective]
  conv_rhs => rw [hsplit, List.mem_append, List.mem_singleton]
  exact (or_iff_left h).symm

namespace SeqParameterSet

theorem frameMbsOnly_lt (s : SeqParameterSet) : s.frameMbsOnly < 2 := by
  unfold frameMbsOnly
  split <;> decide

theorem toNat_cropOffset (s : SeqParameterSet) (side : FrameCropping → UeValue) :
    (UInt32.ofNat (s.cropOffset side)).toNat = s.cropOffset side := by
  unfold cropOffset
  split
  · rfl
  · exact UeValue.toNat_ofNat _

/-- The fields of the size, as the parser reads them. -/
theorem pictureSize_eq (s : SeqParameterSet) {chromaFormatIdc : ℕ}
    (hchroma : chromaFormatIdc < 2 ^ 32) :
    { s.pictureSize with chromaFormatIdc } = ({
      chromaFormatIdc := (UInt32.ofNat chromaFormatIdc).toNat
      widthInMbs := (UInt32.ofNat s.picWidthInMbsMinus1).toNat
      heightInMapUnits := (UInt32.ofNat s.picHeightInMapUnitsMinus1).toNat
      frameMbsOnly := (UInt32.ofNat s.frameMbsOnly).toNat
      cropL := (UInt32.ofNat (s.cropOffset (·.left))).toNat
      cropR := (UInt32.ofNat (s.cropOffset (·.right))).toNat
      cropT := (UInt32.ofNat (s.cropOffset (·.top))).toNat
      cropB := (UInt32.ofNat (s.cropOffset (·.bottom))).toNat } : PictureSize) := by
  have hframe : (UInt32.ofNat s.frameMbsOnly).toNat = s.frameMbsOnly := by
    rw [UInt32.toNat_ofNat', Nat.mod_eq_of_lt (by have := s.frameMbsOnly_lt; omega)]
  rw [UInt32.toNat_ofNat', Nat.mod_eq_of_lt hchroma, hframe, UeValue.toNat_ofNat,
    UeValue.toNat_ofNat, toNat_cropOffset, toNat_cropOffset, toNat_cropOffset, toNat_cropOffset]
  rfl

/-- What the parser computes is the size of the fields, if the machine words can hold it. -/
theorem isSize_of_fits (s : SeqParameterSet) {chromaFormatIdc : ℕ}
    (hchroma : chromaFormatIdc < 2 ^ 32)
    (hfits : { s.pictureSize with chromaFormatIdc }.Fits) :
    IsSize (s.computedSize (UInt32.ofNat chromaFormatIdc))
      { s.pictureSize with chromaFormatIdc } := by
  have hbit : (UInt32.ofNat s.frameMbsOnly).toNat < 2 :=
    lt_of_le_of_lt (Nat.mod_le _ _) s.frameMbsOnly_lt
  rw [s.pictureSize_eq hchroma] at hfits ⊢
  dsimp only [computedSize]
  by_cases hzero : UInt32.ofNat chromaFormatIdc = 0
  · rw [if_pos hzero]
    exact (frameSize_of_fits ((fields_crop hbit).1 hzero) hfits).2
  · rw [if_neg hzero]
    exact (frameSize_of_fits ((fields_crop hbit).2 hzero) hfits).2

/-- The parser stays on the fields up to the size, if it stays on those of the high profiles. -/
theorem reads_sizeFields (s : SeqParameterSet) {highBits : List Bool} {chromaFormatIdc : UInt32}
    (hchroma : Reads Unread
      (if isHighProfile (UInt32.ofNat s.profileIdc.toNat) then readHighProfileFields else pure 1)
      highBits (· = chromaFormatIdc)) :
    Reads Unread readSpsDimensions (s.sizeFields highBits)
      (· = s.computedSize chromaFormatIdc) := by
  unfold readSpsDimensions sizeFields
  simp only [List.flatten_cons, List.flatten_nil]
  apply (reads_readBits s.profileIdc.toNat_lt).seq
  refine (reads_ignore (reads_readBits s.constraintFlags.toNat_lt)).bind fun _ _ => ?_
  refine (reads_ignore (reads_readBits s.levelIdc.toNat_lt)).bind fun _ _ => ?_
  refine (reads_ignore s.seqParameterSetId.reads).bind fun _ _ => ?_
  split
  case' isTrue hhigh =>
    rw [if_pos hhigh] at hchroma
    apply hchroma.seq
  case' isFalse hhigh =>
    rw [if_neg hhigh] at hchroma
    apply hchroma.seq
  all_goals
    refine (reads_ignore s.log2MaxFrameNumMinus4.reads).bind fun _ _ => ?_
    refine s.picOrderCnt.reads.bind fun _ _ => ?_
    refine (reads_ignore s.maxNumRefFrames.reads).bind fun _ _ => ?_
    refine (reads_ignore (reads_readBit s.gapsInFrameNumValueAllowed)).bind fun _ _ => ?_
    apply s.picWidthInMbsMinus1.reads.seq
    apply s.picHeightInMapUnitsMinus1.reads.seq
    unfold frameMbsBits computedSize frameMbsOnly
    cases s.mbAdaptiveFrameField
    case' none =>
      apply (reads_readBit true).seq
      rw [if_neg (by decide)]
    case' some adaptive =>
      rw [List.append_assoc]
      apply (reads_readBit false).seq
      rw [if_pos (by decide)]
      refine (reads_ignore (reads_readBit adaptive)).bind fun _ _ => ?_
    all_goals
      refine (reads_ignore (reads_readBit s.direct8x8Inference)).bind fun _ _ => ?_
      unfold croppingBits cropOffset
      cases s.frameCropping
      case' none =>
        apply (reads_readBit false).seq
        rw [if_neg (by decide)]
        exact Reads.pure rfl
      case' some cropping =>
        simp only [FrameCropping.bits, List.append_assoc]
        apply (reads_readBit true).seq
        rw [if_pos (by decide)]
        apply (reads_unwrapOr cropping.left.reads 0).seq
        apply (reads_unwrapOr cropping.right.reads 0).seq
        apply (reads_unwrapOr cropping.top.reads 0).seq
        apply (reads_unwrapOr cropping.bottom.reads 0).seq
        exact Reads.pure rfl

/-! ### The size -/

theorem codedWidth_pictureSize (s : SeqParameterSet) : s.pictureSize.codedWidth = s.lumaWidth :=
  Nat.mul_comm ..

theorem codedHeight_pictureSize (s : SeqParameterSet) :
    s.pictureSize.codedHeight = s.lumaHeight := by
  have hcomm : ∀ fields units : ℕ, fields * units * 16 = 16 * fields * units := by
    intro fields units
    rw [Nat.mul_comm, Nat.mul_assoc]
  exact hcomm ..

end SeqParameterSet

/-- A positive size whose macroblocks fit a word is in range. -/
theorem PictureSize.fits_of_pos {p : PictureSize} (hwidth : 0 < p.width) (hheight : 0 < p.height)
    (hcodedW : p.codedWidth < 2 ^ 32) (hcodedH : p.codedHeight < 2 ^ 32) : p.Fits := by
  rw [PictureSize.width] at hwidth
  rw [PictureSize.height] at hheight
  constructor
  · exact hcodedW
  · exact_mod_cast le_of_lt (sub_pos.mp hwidth)
  · exact hcodedH
  · exact_mod_cast le_of_lt (sub_pos.mp hheight)

namespace SeqParameterSet

/-- The first three fields are bytes. -/
theorem three_le_length_of_bits (s : SeqParameterSet) {payload : Bytes}
    {highBits rest : List Bool} (h : bytesBits payload = s.sizeFields highBits ++ rest) :
    3 ≤ payload.length := by
  have hlen := congrArg List.length h
  have hsize : 24 ≤ (s.sizeFields highBits).length := by
    unfold sizeFields
    simp only [List.flatten_cons, List.length_append, length_beBits]
    omega
  rw [length_bytesBits, List.length_append] at hlen
  omega

/-- The size found in a payload that starts with the fields. -/
theorem parse_sizeFields (s : SeqParameterSet) (header : UInt8) {payload : Bytes}
    {highBits rest : List Bool} {chromaFormatIdc : UInt32}
    (hchroma : Reads Unread
      (if isHighProfile (UInt32.ofNat s.profileIdc.toNat) then readHighProfileFields else pure 1)
      highBits (· = chromaFormatIdc))
    (h : bytesBits payload = s.sizeFields highBits ++ rest) :
    parseSpsDimensions (header :: payload) =
      (some (s.computedSize chromaFormatIdc)).filter fun (width, height) =>
        0 < width && 0 < height := by
  have hunread := unread_new payload
  rw [h] at hunread
  obtain ⟨dims, r, hrun, rfl, -⟩ := s.reads_sizeFields hchroma _ rest hunread
  have hlen : ¬ (header :: payload).length < 4 := by
    have hbytes := s.three_le_length_of_bits h
    rw [List.length_cons]
    omega
  rw [parseSpsDimensions, if_neg hlen, List.drop_succ_cons, List.drop_zero, hrun]

/-- A positive size in range is found. -/
theorem exists_parse_sizeFields (s : SeqParameterSet) (header : UInt8) {payload : Bytes}
    {highBits rest : List Bool} {chromaFormatIdc : ℕ} (hword : chromaFormatIdc < 2 ^ 32)
    (hchroma : Reads Unread
      (if isHighProfile (UInt32.ofNat s.profileIdc.toNat) then readHighProfileFields else pure 1)
      highBits (· = UInt32.ofNat chromaFormatIdc))
    (h : bytesBits payload = s.sizeFields highBits ++ rest)
    (hfits : { s.pictureSize with chromaFormatIdc }.Fits)
    (hwidth : 0 < { s.pictureSize with chromaFormatIdc }.width)
    (hheight : 0 < { s.pictureSize with chromaFormatIdc }.height) :
    ∃ width height, parseSpsDimensions (header :: payload) = some (width, height) ∧
      (width.toNat : ℤ) = { s.pictureSize with chromaFormatIdc }.width ∧
      (height.toNat : ℤ) = { s.pictureSize with chromaFormatIdc }.height := by
  obtain ⟨hw, hh⟩ := s.isSize_of_fits hword hfits
  refine ⟨_, _, ?_, hw, hh⟩
  rw [s.parse_sizeFields header hchroma h]
  apply Option.filter_some_pos
  rw [Bool.and_eq_true, decide_eq_true_eq, decide_eq_true_eq]
  constructor
  · rw [UInt32.lt_iff_toNat_lt, UInt32.toNat_zero]
    exact Int.natCast_pos.mp (hw ▸ hwidth)
  · rw [UInt32.lt_iff_toNat_lt, UInt32.toNat_zero]
    exact Int.natCast_pos.mp (hh ▸ hheight)

end SeqParameterSet

end StreamInfa.Ingest
