import StreamInfa.Lib.Reader

/-!
Bits and exp-Golomb integers (`BitReader` of `src/ingest/demuxer.rs`), and the frame
size of an H.264 sequence parameter set.

A read that fails may still have moved the position, and most of the reads of
`parse_sps_dimensions` go on after a failure; so the monad keeps the state across
failures.
-/

namespace StreamInfa.Ingest

/-- A position in a byte string, `bitPos` counted from the most significant bit. -/
structure BitReader where
  data : Bytes
  bytePos : ℕ
  bitPos : ℕ
deriving DecidableEq, Repr

def BitReader.new (data : Bytes) : BitReader := ⟨data, 0, 0⟩

/-- Reads that may fail and keep the position they reached. -/
abbrev BitM := OptionT (StateM BitReader)

namespace BitM

/-- `let _ = r.read..()`: go on whether or not the read succeeded. -/
def ignore {α : Type} (x : BitM α) : BitM Unit := OptionT.mk do
  let _ ← x.run
  return some ()

/-- `r.read..().unwrap_or(default)`. -/
def unwrapOr {α : Type} (x : BitM α) (default : α) : BitM α := OptionT.mk do
  return some ((← x.run).getD default)

end BitM

def readBit : BitM UInt32 := do
  let r ← get
  match r.data[r.bytePos]? with
  | none => failure
  | some byte =>
    set (if r.bitPos + 1 = 8 then { r with bytePos := r.bytePos + 1, bitPos := 0 }
      else { r with bitPos := r.bitPos + 1 })
    return UInt32.ofNat (byte.toNat / 2 ^ (7 - r.bitPos) % 2)

/-- `n` more bits behind those already in `val`. -/
def readBitsFrom (val : UInt32) : ℕ → BitM UInt32
  | 0 => return val
  | n + 1 => do
    let bit ← readBit
    readBitsFrom ((val <<< 1) ||| bit) n

def readBits (n : ℕ) : BitM UInt32 := readBitsFrom 0 n

/-- The number of zero bits before the next one bit; it fails at the zero bit after
`left` others. -/
def readLeadingZeros : ℕ → BitM ℕ
  | 0 => do
    let bit ← readBit
    if bit = 0 then failure else return 0
  | left + 1 => do
    let bit ← readBit
    if bit = 0 then return (← readLeadingZeros left) + 1 else return 0

/-- An exp-Golomb coded unsigned integer. -/
def readUe : BitM UInt32 := do
  let leadingZeros ← readLeadingZeros 31
  if leadingZeros = 0 then return 0
  let suffix ← readBits leadingZeros
  return (1 <<< UInt32.ofNat leadingZeros) - 1 + suffix

/-- An exp-Golomb coded signed integer. -/
def readSe : BitM Int32 := do
  let code ← readUe
  if code &&& 1 = 1 then return ((code + 1) >>> 1).toInt32
  else return -(code >>> 1).toInt32

/-! ### Runs -/

section Run

variable {α β : Type} {r r' : BitReader}

/-- A sequence that succeeds is a success of both. -/
theorem BitM.run_bind_eq_some {x : BitM α} {f : α → BitM β} {b : β}
    (h : (x >>= f).run r = (some b, r')) :
    ∃ a r₁, x.run r = (some a, r₁) ∧ (f a).run r₁ = (some b, r') := by
  rcases hx : x.run r with ⟨_ | a, r₁⟩
  · rw [run_bind_none hx] at h
    cases h
  · rw [run_bind_some hx] at h
    exact ⟨a, r₁, rfl, h⟩

/-- A bit is 0 or 1. -/
theorem readBit_lt {bit : UInt32} (h : readBit.run r = (some bit, r')) : bit.toNat < 2 := by
  obtain ⟨r₁, r₂, hget, h⟩ := BitM.run_bind_eq_some h
  split at h
  · cases h
  · obtain ⟨_, r₃, -, h⟩ := BitM.run_bind_eq_some h
    obtain rfl : _ = bit := Option.some.inj (Prod.mk.inj h).1
    rw [UInt32.toNat_ofNat']
    exact lt_of_le_of_lt (Nat.mod_le _ _) (Nat.mod_lt _ (by decide))

/-- `n` bits behind a value of `m` bits. -/
theorem readBitsFrom_lt {val v : UInt32} {m n : ℕ} (hval : val.toNat < 2 ^ m) (hn : m + n ≤ 32)
    (h : (readBitsFrom val n).run r = (some v, r')) : v.toNat < 2 ^ (m + n) := by
  induction n generalizing val m r with
  | zero =>
    obtain rfl : val = v := Option.some.inj (Prod.mk.inj h).1
    exact hval
  | succ n ih =>
    obtain ⟨bit, r₁, hbit, h⟩ := BitM.run_bind_eq_some h
    have hnext : ((val <<< 1) ||| bit).toNat < 2 ^ (m + 1) := by
      rw [UInt32.toNat_or]
      refine Nat.or_lt_two_pow ?_ (lt_of_lt_of_le (readBit_lt hbit) ?_)
      · rw [UInt32.toNat_shiftLeft]
        refine lt_of_le_of_lt (Nat.mod_le _ _) ?_
        rw [Nat.shiftLeft_eq, Nat.pow_succ]
        exact Nat.mul_lt_mul_of_pos_right hval (by decide)
      · exact Nat.le_self_pow (Nat.succ_ne_zero m) 2
    have hrest := ih hnext (by omega) h
    rwa [show m + (n + 1) = m + 1 + n by omega]

theorem readBits_lt {v : UInt32} {n : ℕ} (hn : n ≤ 32)
    (h : (readBits n).run r = (some v, r')) : v.toNat < 2 ^ n := by
  have hlt := readBitsFrom_lt (m := 0) (by decide) (by omega) h
  rwa [Nat.zero_add] at hlt

theorem readLeadingZeros_le {left k : ℕ} (h : (readLeadingZeros left).run r = (some k, r')) :
    k ≤ left := by
  induction left generalizing r r' k with
  | zero =>
    obtain ⟨bit, r₁, -, h⟩ := BitM.run_bind_eq_some h
    split at h
    · cases h
    · obtain rfl : 0 = k := Option.some.inj (Prod.mk.inj h).1
      exact le_refl 0
  | succ left ih =>
    obtain ⟨bit, r₁, -, h⟩ := BitM.run_bind_eq_some h
    split at h
    · obtain ⟨k', r₂, hk, h⟩ := BitM.run_bind_eq_some h
      obtain rfl : k' + 1 = k := Option.some.inj (Prod.mk.inj h).1
      exact Nat.succ_le_succ (ih hk)
    · obtain rfl : 0 = k := Option.some.inj (Prod.mk.inj h).1
      exact Nat.zero_le _

end Run

/-! ### Sequence parameter sets -/

/-- The scaling list loop: `size` entries, read until a zero scale repeats the last. -/
def skipScalingList (lastScale nextScale : Int32) : ℕ → BitM Unit
  | 0 => return ()
  | size + 1 => do
    let nextScale ← if nextScale ≠ 0 then do
        let delta ← readSe
        pure ((lastScale + delta + 256) % 256)
      else pure nextScale
    skipScalingList (if nextScale = 0 then lastScale else nextScale) nextScale size

/-- The lists `i`, …, `i + n - 1` of a scaling matrix. -/
def skipScalingLists (i : ℕ) : ℕ → BitM Unit
  | 0 => return ()
  | n + 1 => do
    let listPresent ← readBit
    if listPresent = 1 then skipScalingList 8 8 (if i < 6 then 16 else 64)
    skipScalingLists (i + 1) n

/-- The profiles with the high-profile extension fields. -/
def isHighProfile (profileIdc : UInt32) : Bool :=
  profileIdc ∈ ([100, 110, 122, 244, 44, 83, 86, 118, 128, 138, 139, 134] : List UInt32)

/-- The high-profile extension; returns `chroma_format_idc`. -/
def readHighProfileFields : BitM UInt32 := do
  let cf ← readUe
  if cf = 3 then readBit.ignore
  readUe.ignore
  readUe.ignore
  readBit.ignore
  let scalingPresent ← readBit
  if scalingPresent = 1 then skipScalingLists 0 (if cf ≠ 3 then 6 else 8)
  return cf

/-- Ignore `n` signed integers. -/
def skipSes : ℕ → BitM Unit
  | 0 => return ()
  | n + 1 => do
    readSe.ignore
    skipSes n

def skipPicOrderCnt : BitM Unit := do
  let pocType ← readUe
  if pocType = 0 then readUe.ignore
  else if pocType = 1 then
    readBit.ignore
    readSe.ignore
    readSe.ignore
    let n ← readUe
    skipSes n.toNat

/-- The width and height of a sequence parameter set behind its NAL header, in wrapping
32-bit arithmetic. -/
def readSpsDimensions : BitM (UInt32 × UInt32) := do
  let profileIdc ← readBits 8
  (readBits 8).ignore
  (readBits 8).ignore
  readUe.ignore
  let chromaFormatIdc ← if isHighProfile profileIdc then readHighProfileFields else pure 1
  readUe.ignore
  skipPicOrderCnt
  readUe.ignore
  readBit.ignore
  let widthInMbs ← readUe
  let heightInMapUnits ← readUe
  let frameMbsOnly ← readBit
  if frameMbsOnly = 0 then readBit.ignore
  readBit.ignore
  let frameCropping ← readBit
  let (cropUnitX, cropUnitY) : UInt32 × UInt32 :=
    if chromaFormatIdc = 0 then (1, 2 - frameMbsOnly) else (2, 2 * (2 - frameMbsOnly))
  let (cropL, cropR, cropT, cropB) ← if frameCropping = 1 then do
      let l ← readUe.unwrapOr 0
      let r ← readUe.unwrapOr 0
      let t ← readUe.unwrapOr 0
      let b ← readUe.unwrapOr 0
      pure (l, r, t, b)
    else pure (0, 0, 0, 0)
  let width := (widthInMbs + 1) * 16 - cropUnitX * (cropL + cropR)
  let height := (2 - frameMbsOnly) * (heightInMapUnits + 1) * 16 - cropUnitY * (cropT + cropB)
  return (width, height)

/-- The dimensions of an SPS NAL unit, when it can be parsed and neither is zero. -/
def parseSpsDimensions (sps : Bytes) : Option (UInt32 × UInt32) :=
  if sps.length < 4 then none
  else
    (readSpsDimensions.run (BitReader.new (sps.drop 1))).1.filter fun (width, height) =>
      0 < width && 0 < height

-- A 1280x720 stream of a baseline encoder.
example : parseSpsDimensions [0x67, 0x42, 0xE0, 0x1F, 0xDA, 0x01, 0x40, 0x16, 0xEC, 0x04, 0x40,
    0x00, 0x00, 0x03, 0x00, 0x40, 0x00, 0x00, 0x0F, 0x03, 0xC6, 0x0C, 0x65, 0x80] =
    some (1280, 720) := by
  decide +kernel

end StreamInfa.Ingest
