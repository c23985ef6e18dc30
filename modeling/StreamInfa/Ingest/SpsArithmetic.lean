import StreamInfa.Ingest.BitReader
import StreamInfa.Lib.Checked

/-!
The 32-bit arithmetic of `parse_sps_dimensions`.

`readSpsDimensions` wraps, as a release build does. `Checked.readSpsDimensions` is the same
function as a build with overflow checks runs it: it panics at the first operation that
overflows. `spsElements` reads what the bytes code, over unbounded integers: the sizes, and
the scale that each coded delta of a scaling list leads to.

**`sps_arithmetic_iff`**: no operation overflows, and the stored size is the coded one,
exactly if the scales fit a signed word, the coded size an unsigned one, and the cropping is no
larger than the size. An SPS of 2^28 + 80 macroblocks is accepted as 1280 samples wide
(`wide_sps_accepted`).
-/

namespace StreamInfa.Ingest

/-! ### A build with overflow checks -/

/-- Reads that may fail, and keep the position they reached, or panic. -/
abbrev CheckedM := OptionT (StateT BitReader Option)

/-- A read without arithmetic. -/
def BitM.checked {α : Type} (x : BitM α) : CheckedM α := OptionT.mk fun r => some (x.run r)

/-- A checked operation; `none` panics. -/
def check {α : Type} (result : Option α) : CheckedM α :=
  OptionT.mk fun r => result.map fun a => (some a, r)

namespace CheckedM

/-- `let _ = r.read..()`: go on whether or not the read succeeded. -/
def ignore {α : Type} (d : CheckedM α) : CheckedM Unit := OptionT.mk do
  let _ ← d.run
  return some ()

/-- `r.read..().unwrap_or(default)`. -/
def unwrapOr {α : Type} (d : CheckedM α) (default : α) : CheckedM α := OptionT.mk do
  return some ((← d.run).getD default)

end CheckedM

namespace Checked

def readBit : CheckedM UInt32 := Ingest.readBit.checked

def readBits (n : ℕ) : CheckedM UInt32 := (Ingest.readBits n).checked

/-- The shift is by less than 32. -/
def readUe : CheckedM UInt32 := do
  let leadingZeros ← (readLeadingZeros 31).checked
  if leadingZeros = 0 then return 0
  let suffix ← readBits leadingZeros
  let top ← check (checkedSub (1 <<< UInt32.ofNat leadingZeros) 1)
  check (checkedAdd top suffix)

def readSe : CheckedM Int32 := do
  let code ← readUe
  if code &&& 1 = 1 then
    let next ← check (checkedAdd code 1)
    return (next >>> 1).toInt32
  else check (checkedNegI (code >>> 1).toInt32)

def skipScalingList (lastScale nextScale : Int32) : ℕ → CheckedM Unit
  | 0 => return ()
  | size + 1 => do
    let nextScale ← if nextScale ≠ 0 then do
        let delta ← readSe
        let sum ← check (checkedAddI lastScale delta)
        let sum ← check (checkedAddI sum 256)
        pure (sum % 256)
      else pure nextScale
    skipScalingList (if nextScale = 0 then lastScale else nextScale) nextScale size

def skipScalingLists (i : ℕ) : ℕ → CheckedM Unit
  | 0 => return ()
  | n + 1 => do
    let listPresent ← readBit
    if listPresent = 1 then skipScalingList 8 8 (if i < 6 then 16 else 64)
    skipScalingLists (i + 1) n

def readHighProfileFields : CheckedM UInt32 := do
  let cf ← readUe
  if cf = 3 then readBit.ignore
  readUe.ignore
  readUe.ignore
  readBit.ignore
  let scalingPresent ← readBit
  if scalingPresent = 1 then skipScalingLists 0 (if cf ≠ 3 then 6 else 8)
  return cf

def skipSes : ℕ → CheckedM Unit
  | 0 => return ()
  | n + 1 => do
    readSe.ignore
    skipSes n

def skipPicOrderCnt : CheckedM Unit := do
  let pocType ← readUe
  if pocType = 0 then readUe.ignore
  else if pocType = 1 then
    readBit.ignore
    readSe.ignore
    readSe.ignore
    let n ← readUe
    skipSes n.toNat

/-- `coded - crop_unit * (first + second)`. -/
def cropped (coded cropUnit first second : UInt32) : Option UInt32 := do
  let sum ← checkedAdd first second
  let crop ← checkedMul cropUnit sum
  checkedSub coded crop

/-- `(width_in_mbs + 1) * 16`. -/
def codedWidth (widthInMbs : UInt32) : Option UInt32 := do
  let mbs ← checkedAdd widthInMbs 1
  checkedMul mbs 16

/-- `(2 - frame_mbs_only) * (height_in_map_units + 1) * 16`. -/
def codedHeight (heightInMapUnits frameMbsOnly : UInt32) : Option UInt32 := do
  let fields ← checkedSub 2 frameMbsOnly
  let units ← checkedAdd heightInMapUnits 1
  let mbs ← checkedMul fields units
  checkedMul mbs 16

def frameSize (widthInMbs heightInMapUnits frameMbsOnly cropUnitX cropUnitY cropL cropR cropT
    cropB : UInt32) : Option (UInt32 × UInt32) := do
  let coded ← codedWidth widthInMbs
  let width ← cropped coded cropUnitX cropL cropR
  let coded ← codedHeight heightInMapUnits frameMbsOnly
  let height ← cropped coded cropUnitY cropT cropB
  return (width, height)

def readSpsDimensions : CheckedM (UInt32 × UInt32) := do
  let profileIdc ← readBits 8
  (readBits 8).ignore
  (readBits 8).ignore
  readUe.ignore
  let chromaFormatIdc ← if isHighProfile profileIdc then readHighProfileFields else pure 1
  readUe.ignore
  skipPicOrderCnt
  readUe.ignore
  readBit.ignore
  let widthInMbs ← readUe
  let heightInMapUnits ← readUe
  let frameMbsOnly ← readBit
  if frameMbsOnly = 0 then readBit.ignore
  readBit.ignore
  let frameCropping ← readBit
  let fields ← check (checkedSub 2 frameMbsOnly)
  let (cropUnitX, cropUnitY) ← if chromaFormatIdc = 0 then pure ((1 : UInt32), fields)
    else do
      let unit ← check (checkedMul 2 fields)
      pure (2, unit)
  let (cropL, cropR, cropT, cropB) ← if frameCropping = 1 then do
      let l ← readUe.unwrapOr 0
      let r ← readUe.unwrapOr 0
      let t ← readUe.unwrapOr 0
      let b ← readUe.unwrapOr 0
      pure (l, r, t, b)
    else pure (0, 0, 0, 0)
  check (frameSize widthInMbs heightInMapUnits frameMbsOnly cropUnitX cropUnitY cropL cropR cropT
    cropB)

/-- `none` panics. -/
def parseSpsDimensions (sps : Bytes) : Option (Option (UInt32 × UInt32)) :=
  if sps.length < 4 then some none
  else
    (readSpsDimensions.run (BitReader.new (sps.drop 1))).map fun result =>
      result.1.filter fun (width, height) => 0 < width && 0 < height

end Checked

/-! ### What the bytes code -/

/-- The fields that the size of a picture depends on, as the bytes code them. -/
structure PictureSize where
  chromaFormatIdc : ℕ
  widthInMbs : ℕ
  heightInMapUnits : ℕ
  frameMbsOnly : ℕ
  cropL : ℕ
  cropR : ℕ
  cropT : ℕ
  cropB : ℕ
deriving DecidableEq, Repr

namespace PictureSize

def codedWidth (p : PictureSize) : ℕ := (p.widthInMbs + 1) * 16

def codedHeight (p : PictureSize) : ℕ := (2 - p.frameMbsOnly) * (p.heightInMapUnits + 1) * 16

def cropUnitX (p : PictureSize) : ℕ := if p.chromaFormatIdc = 0 then 1 else 2

def cropUnitY (p : PictureSize) : ℕ :=
  if p.chromaFormatIdc = 0 then 2 - p.frameMbsOnly else 2 * (2 - p.frameMbsOnly)

def width (p : PictureSize) : ℤ := p.codedWidth - p.cropUnitX * (p.cropL + p.cropR)

def height (p : PictureSize) : ℤ := p.codedHeight - p.cropUnitY * (p.cropT + p.cropB)

/-- The coded size fits a word, and the cropping is no larger. -/
structure Fits (p : PictureSize) : Prop where
  codedWidth : p.codedWidth < 2 ^ 32
  cropX : p.cropUnitX * (p.cropL + p.cropR) ≤ p.codedWidth
  codedHeight : p.codedHeight < 2 ^ 32
  cropY : p.cropUnitY * (p.cropT + p.cropB) ≤ p.codedHeight

end PictureSize

/-- Reads that note integers. -/
def NotedM (α : Type) : Type := BitReader → (Option α × BitReader) × List ℤ

instance : Monad NotedM where
  pure a r := ((some a, r), [])
  bind y f r :=
    match y r with
    | ((none, r), notes) => ((none, r), notes)
    | ((some a, r), notes) => ((f a r).1, notes ++ (f a r).2)

/-- A read without notes. -/
def BitM.noted {α : Type} (x : BitM α) : NotedM α := fun r => (x.run r, [])

def note (z : ℤ) : NotedM Unit := fun r => ((some (), r), [z])

/-- The scaling list from the scales on; it notes the sum of the last scale and each delta. -/
def scalingList (lastScale nextScale : ℤ) : ℕ → NotedM Unit
  | 0 => return ()
  | size + 1 => do
    let nextScale ← if nextScale ≠ 0 then do
        let delta ← readSe.noted
        note (lastScale + delta.toInt)
        pure ((lastScale + delta.toInt + 256).tmod 256)
      else pure nextScale
    scalingList (if nextScale = 0 then lastScale else nextScale) nextScale size

def scalingLists (i : ℕ) : ℕ → NotedM Unit
  | 0 => return ()
  | n + 1 => do
    let listPresent ← readBit.noted
    if listPresent = 1 then scalingList 8 8 (if i < 6 then 16 else 64)
    scalingLists (i + 1) n

def highProfileFields : NotedM UInt32 := do
  let cf ← readUe.noted
  if cf = 3 then readBit.ignore.noted
  readUe.ignore.noted
  readUe.ignore.noted
  readBit.ignore.noted
  let scalingPresent ← readBit.noted
  if scalingPresent = 1 then scalingLists 0 (if cf ≠ 3 then 6 else 8)
  return cf

def pictureSize : NotedM PictureSize := do
  let profileIdc ← (readBits 8).noted
  (readBits 8).ignore.noted
  (readBits 8).ignore.noted
  readUe.ignore.noted
  let chromaFormatIdc ← if isHighProfile profileIdc then highProfileFields else pure 1
  readUe.ignore.noted
  skipPicOrderCnt.noted
  readUe.ignore.noted
  readBit.ignore.noted
  let widthInMbs ← readUe.noted
  let heightInMapUnits ← readUe.noted
  let frameMbsOnly ← readBit.noted
  if frameMbsOnly = 0 then readBit.ignore.noted
  readBit.ignore.noted
  let frameCropping ← readBit.noted
  let (cropL, cropR, cropT, cropB) ← if frameCropping = 1 then do
      let l ← (readUe.unwrapOr 0).noted
      let r ← (readUe.unwrapOr 0).noted
      let t ← (readUe.unwrapOr 0).noted
      let b ← (readUe.unwrapOr 0).noted
      pure (l, r, t, b)
    else pure (0, 0, 0, 0)
  return {
    chromaFormatIdc := chromaFormatIdc.toNat
    widthInMbs := widthInMbs.toNat
    heightInMapUnits := heightInMapUnits.toNat
    frameMbsOnly := frameMbsOnly.toNat
    cropL := cropL.toNat
    cropR := cropR.toNat
    cropT := cropT.toNat
    cropB := cropB.toNat }

/-- What an SPS NAL unit codes: the sums of a scale and a delta, in all its scaling lists, and
the size if the reading comes that far. -/
structure SpsElements where
  scaleSums : List ℤ
  size : Option PictureSize
deriving DecidableEq, Repr

def spsElements (sps : Bytes) : SpsElements :=
  if sps.length < 4 then ⟨[], none⟩
  else
    let (result, scaleSums) := pictureSize (BitReader.new (sps.drop 1))
    ⟨scaleSums, result.1⟩

/-- The sum leaves room for the 256 that the next scale adds to it. -/
def ScaleFits (sum : ℤ) : Prop := -2 ^ 31 ≤ sum ∧ sum + 256 < 2 ^ 31

/-- The elements are in the range of the machine words. -/
structure SpsElements.InRange (e : SpsElements) : Prop where
  scales : ∀ sum ∈ e.scaleSums, ScaleFits sum
  size : ∀ p, e.size = some p → p.Fits

/-! ### Reads that do not overflow -/

section Run

variable {α β : Type} {r r' : BitReader}

/-- A panic ends a sequence. -/
theorem CheckedM.run_bind_panic {d : CheckedM α} {f : α → CheckedM β} (h : d.run r = none) :
    (d >>= f).run r = none := by
  show (d.run r).bind _ = none
  rw [h, Option.bind_none]

theorem CheckedM.ext {d d' : CheckedM α} (h : ∀ r, d.run r = d'.run r) : d = d' :=
  OptionT.ext (funext h)

@[simp] theorem check_some (a : α) : check (some a) = pure a := rfl

theorem checked_ignore (x : BitM α) : x.ignore.checked = x.checked.ignore := rfl

theorem checked_unwrapOr (x : BitM α) (default : α) :
    (x.unwrapOr default).checked = x.checked.unwrapOr default := rfl

/-- A sequence of reads without panics has none. -/
theorem checked_bind {x : BitM α} {f : α → BitM β} {g : α → CheckedM β}
    (h : ∀ r a r', x.run r = (some a, r') → (g a).run r' = (f a).checked.run r') :
    x.checked >>= g = (x >>= f).checked := by
  refine CheckedM.ext fun r => ?_
  have hchecked : x.checked.run r = some (x.run r) := rfl
  have hseq : (x >>= f).checked.run r = some ((x >>= f).run r) := rfl
  rcases hx : x.run r with ⟨_ | a, r'⟩
  · rw [hx] at hchecked
    rw [hseq, run_bind_none hx]
    exact run_bind_none hchecked
  · rw [hx] at hchecked
    rw [hseq, run_bind_some hx]
    exact (run_bind_some hchecked).trans (h r a r' hx)

/-- The same for a continuation that never panics. -/
theorem checked_bind_eq {x : BitM α} {f : α → BitM β} {g : α → CheckedM β}
    (h : ∀ a, g a = (f a).checked) : x.checked >>= g = (x >>= f).checked :=
  checked_bind fun _ a _ _ => by rw [h a]

/-- The value before the suffix of an exp-Golomb code. -/
theorem toNat_one_shiftLeft {k : ℕ} (hk : k ≤ 31) :
    ((1 : UInt32) <<< UInt32.ofNat k).toNat = 2 ^ k := by
  have hshift : (UInt32.ofNat k).toNat % 32 = k := by
    rw [UInt32.toNat_ofNat']
    omega
  have hpow : 2 ^ k < 2 ^ 32 := Nat.pow_lt_pow_right (by decide) (by omega)
  rw [UInt32.toNat_shiftLeft, hshift, Nat.shiftLeft_eq, UInt32.toNat_one, Nat.one_mul,
    Nat.mod_eq_of_lt hpow]

theorem one_le_shiftLeft {k : ℕ} (hk : k ≤ 31) :
    (1 : UInt32).toNat ≤ ((1 : UInt32) <<< UInt32.ofNat k).toNat := by
  rw [toNat_one_shiftLeft hk]
  exact Nat.one_le_two_pow

theorem toNat_shiftLeft_sub_one {k : ℕ} (hk : k ≤ 31) :
    ((1 : UInt32) <<< UInt32.ofNat k - 1).toNat = 2 ^ k - 1 := by
  rw [toNat_sub_of_le (one_le_shiftLeft hk), toNat_one_shiftLeft hk]
  rfl

/-- The code of an exp-Golomb suffix, and its successor, fit a word. -/
theorem golomb_lt {k suffix : ℕ} (hk : k ≤ 31) (hs : suffix < 2 ^ k) :
    2 ^ k - 1 + suffix + 1 < 2 ^ 32 := by
  have hle : 2 ^ k ≤ 2 ^ 31 := Nat.pow_le_pow_right (by decide) hk
  omega

/-- The unsigned exp-Golomb reader does not overflow. -/
theorem checked_readUe : Checked.readUe = readUe.checked := by
  unfold Checked.readUe readUe
  refine checked_bind fun r k r' hk => ?_
  split
  · rfl
  · have hk31 := readLeadingZeros_le hk
    refine congrArg (fun d : CheckedM UInt32 => d.run r') (checked_bind fun _ suffix _ hs => ?_)
    have hlt := golomb_lt hk31 (readBits_lt (by omega) hs)
    rw [← toNat_shiftLeft_sub_one hk31] at hlt
    rw [checkedSub_of_le (one_le_shiftLeft hk31), check_some, pure_bind,
      checkedAdd_of_lt (by omega), check_some]
    rfl

/-- What the unsigned reader returns leaves room for the successor. -/
theorem readUe_lt {code : UInt32} {r r' : BitReader} (h : readUe.run r = (some code, r')) :
    code.toNat + 1 < 2 ^ 32 := by
  obtain ⟨k, r₁, hk, h⟩ := BitM.run_bind_eq_some h
  have hk31 := readLeadingZeros_le hk
  split at h
  · obtain rfl : 0 = code := Option.some.inj (Prod.mk.inj h).1
    decide
  · obtain ⟨suffix, r₂, hs, h⟩ := BitM.run_bind_eq_some h
    obtain rfl : _ = code := Option.some.inj (Prod.mk.inj h).1
    have hlt := golomb_lt hk31 (readBits_lt (by omega) hs)
    rw [← toNat_shiftLeft_sub_one hk31] at hlt
    rw [toNat_add_of_lt (by omega)]
    exact hlt

/-- The signed reader does not overflow. -/
theorem checked_readSe : Checked.readSe = readSe.checked := by
  unfold Checked.readSe readSe
  rw [checked_readUe]
  refine checked_bind fun r code r' hcode => ?_
  have hlt := readUe_lt hcode
  split
  · rw [checkedAdd_of_lt hlt, check_some, pure_bind]
    rfl
  · have hhalf : (code >>> 1).toNat < 2 ^ 31 := by
      have hdiv : (code >>> 1).toNat = code.toNat / 2 := UInt32.toNat_shiftRight code 1
      omega
    have hint := toInt_toInt32 hhalf
    rw [checkedNegI_of_inI32 ⟨by omega, by omega⟩, check_some]
    rfl

theorem checked_skipSes (n : ℕ) : Checked.skipSes n = (skipSes n).checked := by
  induction n with
  | zero => rfl
  | succ n ih =>
    unfold Checked.skipSes skipSes
    rw [checked_readSe, ih, ← checked_ignore]
    exact checked_bind_eq fun _ => rfl

theorem checked_skipPicOrderCnt : Checked.skipPicOrderCnt = skipPicOrderCnt.checked := by
  unfold Checked.skipPicOrderCnt skipPicOrderCnt
  simp only [checked_readUe, checked_readSe, checked_skipSes, Checked.readBit, ← checked_ignore]
  refine checked_bind_eq fun pocType => ?_
  split
  · rfl
  · split
    · exact checked_bind_eq fun _ => checked_bind_eq fun _ => checked_bind_eq fun _ =>
        checked_bind_eq fun _ => rfl
    · rfl

end Run

/-! ### The checking build and the coded elements -/

section Tracks

variable {α β α' β' : Type} {r r' : BitReader} {Q : β → Prop} {R : α → β → Prop}

/-- What was noted and read is in range. -/
structure Safe (Q : β → Prop) (out : (Option β × BitReader) × List ℤ) : Prop where
  scales : ∀ sum ∈ out.2, ScaleFits sum
  value : ∀ b, out.1.1 = some b → Q b

/-- The checking build panics exactly if something is out of range, and otherwise does what
the wrapping one does, with a result that `R` relates to the one read. -/
def Tracks (Q : β → Prop) (R : α → β → Prop) (d : CheckedM α) (x : BitM α) (y : NotedM β) :
    Prop :=
  ∀ r, (Safe Q (y r) ∧ ∃ v, d.run r = some (v, (y r).1.2) ∧ x.run r = (v, (y r).1.2) ∧
      Option.Rel R v (y r).1.1) ∨
    (¬ Safe Q (y r) ∧ d.run r = none)

theorem NotedM.bind_some {y : NotedM β} {f : β → NotedM β'} {b : β} {notes : List ℤ}
    (h : y r = ((some b, r'), notes)) :
    (y >>= f) r = ((f b r').1, notes ++ (f b r').2) := by
  show (match y r with
    | ((none, r), notes) => ((none, r), notes)
    | ((some a, r), notes) => ((f a r).1, notes ++ (f a r).2)) = _
  rw [h]

theorem NotedM.bind_none {y : NotedM β} {f : β → NotedM β'} {notes : List ℤ}
    (h : y r = ((none, r'), notes)) : (y >>= f) r = ((none, r'), notes) := by
  show (match y r with
    | ((none, r), notes) => ((none, r), notes)
    | ((some a, r), notes) => ((f a r).1, notes ++ (f a r).2)) = _
  rw [h]

theorem Tracks.bind {d : CheckedM α} {x : BitM α} {y : NotedM β} {f : α → CheckedM α'}
    {g : α → BitM α'} {h : β → NotedM β'} {Q : β' → Prop} {S : α' → β' → Prop}
    (hd : Tracks (fun _ => True) R d x y) (hf : ∀ a b, R a b → Tracks Q S (f a) (g a) (h b)) :
    Tracks Q S (d >>= f) (x >>= g) (y >>= h) := by
  intro r
  have hr := hd r
  rcases hy : y r with ⟨⟨v, r'⟩, notes⟩
  rw [hy] at hr
  rcases hr with ⟨hsafe, va, hdr, hxr, hrel⟩ | ⟨hrange, hdr⟩
  · cases hrel with
    | none =>
      rw [NotedM.bind_none hy]
      exact Or.inl ⟨⟨hsafe.scales, nofun⟩, none, run_bind_none hdr, run_bind_none hxr, .none⟩
    | some hab =>
      rw [NotedM.bind_some hy, run_bind_some hdr, run_bind_some hxr]
      rcases hf _ _ hab r' with ⟨hsafe', hrest⟩ | ⟨hrange, hnone⟩
      · refine Or.inl ⟨⟨fun sum hsum => ?_, hsafe'.value⟩, hrest⟩
        exact (List.mem_append.mp hsum).elim (hsafe.scales sum) (hsafe'.scales sum)
      · refine Or.inr ⟨fun hboth => hrange ⟨fun sum hsum => ?_, hboth.value⟩, hnone⟩
        exact hboth.scales sum (List.mem_append_right _ hsum)
  · have hnotes : ¬ ∀ sum ∈ notes, ScaleFits sum := fun hall => hrange ⟨hall, fun _ _ => trivial⟩
    refine Or.inr ⟨fun hboth => hnotes fun sum hsum => ?_, CheckedM.run_bind_panic hdr⟩
    apply hboth.scales sum
    cases v with
    | none =>
      rw [NotedM.bind_none hy]
      exact hsum
    | some b =>
      rw [NotedM.bind_some hy]
      exact List.mem_append_left _ hsum

/-- A read without arithmetic. -/
theorem tracks_read {x : BitM α} {R : α → α → Prop}
    (hR : ∀ r a r', x.run r = (some a, r') → R a a) :
    Tracks (fun _ => True) R x.checked x x.noted := by
  intro r
  refine Or.inl ⟨⟨nofun, fun _ _ => trivial⟩, (x.run r).1, rfl, rfl, ?_⟩
  show Option.Rel _ (x.run r).1 (x.run r).1
  rcases hx : x.run r with ⟨v, r'⟩
  cases v with
  | none => exact .none
  | some a => exact .some (hR r a r' hx)

theorem tracks_checked (x : BitM α) : Tracks (fun _ => True) Eq x.checked x x.noted :=
  tracks_read fun _ _ _ _ => rfl

theorem tracks_pure {a : α} {b : β} (h : R a b) :
    Tracks (fun _ => True) R (pure a) (pure a) (pure b) :=
  fun _ => Or.inl ⟨⟨nofun, fun _ _ => trivial⟩, some a, rfl, rfl, .some h⟩

/-- The scale after a delta. -/
theorem tracks_rescale (last delta : Int32) :
    Tracks (fun _ => True) (fun next z => next.toInt = z)
      (do
        let sum ← check (checkedAddI last delta)
        let sum ← check (checkedAddI sum 256)
        pure (sum % 256))
      (pure ((last + delta + 256) % 256))
      (do
        note (last.toInt + delta.toInt)
        pure ((last.toInt + delta.toInt + 256).tmod 256)) := by
  intro r
  have h256 : (256 : Int32).toInt = 256 := rfl
  by_cases hfits : ScaleFits (last.toInt + delta.toInt)
  · have hsum : InI32 (last.toInt + delta.toInt) := ⟨hfits.1, by have := hfits.2; omega⟩
    have hnext : InI32 ((last + delta).toInt + (256 : Int32).toInt) := by
      rw [toInt_add_of_inI32 hsum, h256]
      exact ⟨by have := hfits.1; omega, hfits.2⟩
    rw [checkedAddI_of_inI32 hsum, check_some, pure_bind, checkedAddI_of_inI32 hnext, check_some,
      pure_bind]
    refine Or.inl ⟨⟨?_, fun _ _ => trivial⟩, some ((last + delta + 256) % 256), rfl, rfl, .some ?_⟩
    · rintro sum hsum
      rw [List.mem_singleton.mp hsum]
      exact hfits
    · rw [Int32.toInt_mod, toInt_add_of_inI32 hnext, toInt_add_of_inI32 hsum, h256]
  · refine Or.inr ⟨fun hsafe => hfits (hsafe.scales _ List.mem_cons_self), ?_⟩
    by_cases hsum : InI32 (last.toInt + delta.toInt)
    · have hnext : ¬ InI32 ((last + delta).toInt + (256 : Int32).toInt) := by
        rw [toInt_add_of_inI32 hsum, h256]
        exact fun hin => hfits ⟨hsum.1, hin.2⟩
      rw [checkedAddI_of_inI32 hsum, check_some, pure_bind, checkedAddI_eq_none hnext]
      rfl
    · rw [checkedAddI_eq_none hsum]
      rfl

theorem tracks_scalingList (last next : Int32) (size : ℕ) :
    Tracks (fun _ => True) Eq (Checked.skipScalingList last next size)
      (skipScalingList last next size) (scalingList last.toInt next.toInt size) := by
  induction size generalizing last next with
  | zero => exact tracks_pure rfl
  | succ size ih =>
    -- The rest of the list, behind a scale.
    have hrest : ∀ (next' : Int32) (z : ℤ), next'.toInt = z →
        Tracks (fun _ => True) Eq
          (Checked.skipScalingList (if next' = 0 then last else next') next' size)
          (skipScalingList (if next' = 0 then last else next') next' size)
          (scalingList (if z = 0 then last.toInt else z) z size) := by
      rintro next' z rfl
      have hlast : (if next'.toInt = 0 then last.toInt else next'.toInt) =
          (if next' = 0 then last else next').toInt := by
        rw [apply_ite Int32.toInt]
        exact if_congr toInt_eq_zero_iff rfl rfl
      rw [hlast]
      exact ih _ next'
    unfold Checked.skipScalingList skipScalingList scalingList
    dsimp only
    by_cases hnext : next = 0
    · rw [if_neg (not_not.mpr hnext), if_neg (not_not.mpr hnext),
        if_neg (not_not.mpr (toInt_eq_zero_iff.mpr hnext))]
      exact (tracks_pure (R := fun next' z => next'.toInt = z) rfl).bind hrest
    · rw [if_pos hnext, if_pos hnext, if_pos (fun h => hnext (toInt_eq_zero_iff.mp h)),
        checked_readSe]
      refine (tracks_checked readSe).bind ?_
      rintro delta _ rfl
      have hscale := (tracks_rescale last delta).bind hrest
      simp only [bind_assoc] at hscale
      exact hscale

theorem Tracks.read {x : BitM α} {f : α → CheckedM α'} {g : α → BitM α'} {h : α → NotedM β'}
    {Q : β' → Prop} {S : α' → β' → Prop} (hf : ∀ a, Tracks Q S (f a) (g a) (h a)) :
    Tracks Q S (x.checked >>= f) (x >>= g) (x.noted >>= h) := by
  refine (tracks_checked x).bind ?_
  rintro a _ rfl
  exact hf a

theorem tracks_scalingLists (i n : ℕ) :
    Tracks (fun _ => True) Eq (Checked.skipScalingLists i n) (skipScalingLists i n)
      (scalingLists i n) := by
  induction n generalizing i with
  | zero => exact tracks_pure rfl
  | succ n ih =>
    unfold Checked.skipScalingLists skipScalingLists scalingLists
    refine Tracks.read fun listPresent => ?_
    dsimp only
    split
    · exact (tracks_scalingList 8 8 _).bind fun _ _ _ => ih (i + 1)
    · exact ih (i + 1)

theorem tracks_highProfileFields :
    Tracks (fun _ => True) Eq Checked.readHighProfileFields readHighProfileFields
      highProfileFields := by
  unfold Checked.readHighProfileFields readHighProfileFields highProfileFields
  simp only [checked_readUe, Checked.readBit, ← checked_ignore]
  refine Tracks.read fun cf => ?_
  split
  case' isTrue => refine Tracks.read fun _ => ?_
  all_goals
    refine Tracks.read fun _ => Tracks.read fun _ => Tracks.read fun _ => ?_
    refine Tracks.read fun scalingPresent => ?_
    split
    · exact (tracks_scalingLists 0 _).bind fun _ _ _ => tracks_pure rfl
    · exact tracks_pure rfl

/-! ### The size of a picture -/

/-- The cropped size in range: the checked operations are the wrapping ones, and exact. -/
theorem cropped_of_le {coded unit first second : UInt32} (hunit : 0 < unit.toNat)
    (h : unit.toNat * (first.toNat + second.toNat) ≤ coded.toNat) :
    Checked.cropped coded unit first second = some (coded - unit * (first + second)) ∧
      (coded - unit * (first + second)).toNat =
        coded.toNat - unit.toNat * (first.toNat + second.toNat) := by
  have hcoded : coded.toNat < 2 ^ 32 := coded.toNat_lt
  have hsum : first.toNat + second.toNat < 2 ^ 32 :=
    lt_of_le_of_lt (le_trans (Nat.le_mul_of_pos_left _ hunit) h) hcoded
  have hadd := toNat_add_of_lt hsum
  have hcrop : unit.toNat * (first + second).toNat < 2 ^ 32 := by
    rw [hadd]
    exact lt_of_le_of_lt h hcoded
  have hmul := toNat_mul_of_lt hcrop
  rw [hadd] at hmul
  have hle : (unit * (first + second)).toNat ≤ coded.toNat := by rwa [hmul]
  constructor
  · simp only [Checked.cropped, checkedAdd_of_lt hsum, checkedMul_of_lt hcrop,
      checkedSub_of_le hle, Option.bind_eq_bind, Option.bind_some]
  · rw [toNat_sub_of_le hle, hmul]

theorem le_of_cropped {coded unit first second size : UInt32}
    (h : Checked.cropped coded unit first second = some size) :
    unit.toNat * (first.toNat + second.toNat) ≤ coded.toNat := by
  obtain ⟨sum, hsum, h⟩ := Option.bind_eq_some_iff.mp h
  obtain ⟨crop, hcrop, h⟩ := Option.bind_eq_some_iff.mp h
  rw [← checkedAdd_eq_some hsum, ← checkedMul_eq_some hcrop, ← checkedSub_eq_some h]
  exact Nat.le_add_left _ _

theorem codedWidth_eq_some {w coded : UInt32} (h : Checked.codedWidth w = some coded) :
    coded.toNat = (w.toNat + 1) * 16 := by
  obtain ⟨mbs, hmbs, h⟩ := Option.bind_eq_some_iff.mp h
  rw [checkedMul_eq_some h, checkedAdd_eq_some hmbs]
  rfl

theorem codedWidth_of_lt {w : UInt32} (h : (w.toNat + 1) * 16 < 2 ^ 32) :
    Checked.codedWidth w = some ((w + 1) * 16) := by
  have hadd : w.toNat + (1 : UInt32).toNat < 2 ^ 32 := by
    have hone : (1 : UInt32).toNat = 1 := rfl
    omega
  have hmul : (w + 1).toNat * (16 : UInt32).toNat < 2 ^ 32 := by
    rw [toNat_add_of_lt hadd]
    exact h
  simp only [Checked.codedWidth, checkedAdd_of_lt hadd, checkedMul_of_lt hmul,
    Option.bind_eq_bind, Option.bind_some]

theorem codedHeight_eq_some {u f coded : UInt32} (h : Checked.codedHeight u f = some coded) :
    coded.toNat = (2 - f.toNat) * (u.toNat + 1) * 16 := by
  obtain ⟨fields, hfields, h⟩ := Option.bind_eq_some_iff.mp h
  obtain ⟨units, hunits, h⟩ := Option.bind_eq_some_iff.mp h
  obtain ⟨mbs, hmbs, h⟩ := Option.bind_eq_some_iff.mp h
  have htwo : (2 : UInt32).toNat = 2 := rfl
  have hsub := checkedSub_eq_some hfields
  have hfields : fields.toNat = 2 - f.toNat := by omega
  rw [checkedMul_eq_some h, checkedMul_eq_some hmbs, checkedAdd_eq_some hunits, hfields]
  rfl

theorem codedHeight_of_lt {u f : UInt32} (hf : f.toNat < 2)
    (h : (2 - f.toNat) * (u.toNat + 1) * 16 < 2 ^ 32) :
    Checked.codedHeight u f = some ((2 - f) * (u + 1) * 16) := by
  have htwo : (2 : UInt32).toNat = 2 := rfl
  have hone : (1 : UInt32).toNat = 1 := rfl
  have hsub : f.toNat ≤ (2 : UInt32).toNat := by omega
  have hfields := toNat_sub_of_le hsub
  have hunits : u.toNat + 1 ≤ (2 - f.toNat) * (u.toNat + 1) :=
    Nat.le_mul_of_pos_left _ (by omega)
  have hadd : u.toNat + (1 : UInt32).toNat < 2 ^ 32 := by omega
  have hmbs : (2 - f).toNat * (u + 1).toNat < 2 ^ 32 := by
    rw [hfields, toNat_add_of_lt hadd, htwo, hone]
    omega
  have hmul : ((2 - f) * (u + 1)).toNat * (16 : UInt32).toNat < 2 ^ 32 := by
    rw [toNat_mul_of_lt hmbs, hfields, toNat_add_of_lt hadd]
    exact h
  simp only [Checked.codedHeight, checkedSub_of_le hsub, checkedAdd_of_lt hadd,
    checkedMul_of_lt hmbs, checkedMul_of_lt hmul, Option.bind_eq_bind, Option.bind_some]

/-- The size of a picture, in exact arithmetic. -/
def IsSize (dims : UInt32 × UInt32) (p : PictureSize) : Prop :=
  (dims.1.toNat : ℤ) = p.width ∧ (dims.2.toNat : ℤ) = p.height

/-- Fields of the size as they are read, and the crop units computed from them. -/
structure Fields (w u f cropUnitX cropUnitY l r t b : UInt32) (p : PictureSize) : Prop where
  width : p.widthInMbs = w.toNat
  height : p.heightInMapUnits = u.toNat
  frameMbsOnly : p.frameMbsOnly = f.toNat
  bit : f.toNat < 2
  unitX : p.cropUnitX = cropUnitX.toNat
  unitY : p.cropUnitY = cropUnitY.toNat
  left : p.cropL = l.toNat
  right : p.cropR = r.toNat
  top : p.cropT = t.toNat
  bottom : p.cropB = b.toNat

section Size

variable {w u f cropUnitX cropUnitY l r t b : UInt32} {p : PictureSize}

theorem PictureSize.cropUnitX_pos (p : PictureSize) : 0 < p.cropUnitX := by
  unfold cropUnitX
  split <;> decide

theorem PictureSize.cropUnitY_pos {p : PictureSize} (h : p.frameMbsOnly < 2) :
    0 < p.cropUnitY := by
  unfold cropUnitY
  split <;> omega

theorem PictureSize.Fits.width_eq (h : p.Fits) :
    p.width = (p.codedWidth - p.cropUnitX * (p.cropL + p.cropR) : ℕ) := by
  rw [width, Nat.cast_sub h.cropX]
  push_cast
  rfl

theorem PictureSize.Fits.height_eq (h : p.Fits) :
    p.height = (p.codedHeight - p.cropUnitY * (p.cropT + p.cropB) : ℕ) := by
  rw [height, Nat.cast_sub h.cropY]
  push_cast
  rfl

/-- In range nothing overflows, and the wrapping formulas are exact. -/
theorem frameSize_of_fits (hp : Fields w u f cropUnitX cropUnitY l r t b p) (hfits : p.Fits) :
    Checked.frameSize w u f cropUnitX cropUnitY l r t b =
        some ((w + 1) * 16 - cropUnitX * (l + r),
          (2 - f) * (u + 1) * 16 - cropUnitY * (t + b)) ∧
      IsSize ((w + 1) * 16 - cropUnitX * (l + r),
        (2 - f) * (u + 1) * 16 - cropUnitY * (t + b)) p := by
  have hcodedW : Checked.codedWidth w = some ((w + 1) * 16) := by
    apply codedWidth_of_lt
    rw [← hp.width]
    exact hfits.codedWidth
  have hcodedH : Checked.codedHeight u f = some ((2 - f) * (u + 1) * 16) := by
    apply codedHeight_of_lt hp.bit
    rw [← hp.height, ← hp.frameMbsOnly]
    exact hfits.codedHeight
  have hwidth : p.codedWidth = ((w + 1) * 16).toNat := by
    rw [codedWidth_eq_some hcodedW, ← hp.width]
    rfl
  have hheight : p.codedHeight = ((2 - f) * (u + 1) * 16).toNat := by
    rw [codedHeight_eq_some hcodedH, ← hp.height, ← hp.frameMbsOnly]
    rfl
  have hunitX := p.cropUnitX_pos
  have hunitY : 0 < p.cropUnitY := PictureSize.cropUnitY_pos (hp.frameMbsOnly ▸ hp.bit)
  have hcropX := hfits.cropX
  have hcropY := hfits.cropY
  rw [hp.unitX] at hunitX
  rw [hp.unitY] at hunitY
  rw [hp.unitX, hp.left, hp.right, hwidth] at hcropX
  rw [hp.unitY, hp.top, hp.bottom, hheight] at hcropY
  obtain ⟨hsizeW, hexactW⟩ := cropped_of_le hunitX hcropX
  obtain ⟨hsizeH, hexactH⟩ := cropped_of_le hunitY hcropY
  constructor
  · simp only [Checked.frameSize, hcodedW, hsizeW, hcodedH, hsizeH, Option.bind_eq_bind,
      Option.bind_some]
    rfl
  · rw [IsSize, hfits.width_eq, hfits.height_eq, hexactW, hexactH, hwidth, hheight, hp.unitX,
      hp.unitY, hp.left, hp.right, hp.top, hp.bottom]
    exact ⟨rfl, rfl⟩

/-- Out of range something overflows. -/
theorem fits_of_frameSize (hp : Fields w u f cropUnitX cropUnitY l r t b p)
    {dims : UInt32 × UInt32}
    (h : Checked.frameSize w u f cropUnitX cropUnitY l r t b = some dims) : p.Fits := by
  obtain ⟨codedW, hcodedW, h⟩ := Option.bind_eq_some_iff.mp h
  obtain ⟨width, hwidth, h⟩ := Option.bind_eq_some_iff.mp h
  obtain ⟨codedH, hcodedH, h⟩ := Option.bind_eq_some_iff.mp h
  obtain ⟨height, hheight, h⟩ := Option.bind_eq_some_iff.mp h
  have hw := codedWidth_eq_some hcodedW
  have hh := codedHeight_eq_some hcodedH
  have hcropX := le_of_cropped hwidth
  have hcropY := le_of_cropped hheight
  constructor
  · rw [PictureSize.codedWidth, hp.width, ← hw]
    exact codedW.toNat_lt
  · rw [PictureSize.codedWidth, hp.width, hp.unitX, hp.left, hp.right, ← hw]
    exact hcropX
  · rw [PictureSize.codedHeight, hp.height, hp.frameMbsOnly, ← hh]
    exact codedH.toNat_lt
  · rw [PictureSize.codedHeight, hp.height, hp.frameMbsOnly, hp.unitY, hp.top, hp.bottom, ← hh]
    exact hcropY

/-- The crop units of a monochrome picture, and of any other. -/
theorem fields_crop {chroma : UInt32} (hbit : f.toNat < 2) :
    (chroma = 0 → Fields w u f 1 (2 - f) l r t b
      ⟨chroma.toNat, w.toNat, u.toNat, f.toNat, l.toNat, r.toNat, t.toNat, b.toNat⟩) ∧
    (chroma ≠ 0 → Fields w u f 2 (2 * (2 - f)) l r t b
      ⟨chroma.toNat, w.toNat, u.toNat, f.toNat, l.toNat, r.toNat, t.toNat, b.toNat⟩) := by
  have htwo : (2 : UInt32).toNat = 2 := rfl
  have hfields : (2 - f).toNat = 2 - f.toNat := toNat_sub_of_le (le_of_lt hbit)
  have hdouble : (2 * (2 - f)).toNat = 2 * (2 - f.toNat) := by
    rw [toNat_mul_of_lt, htwo, hfields]
    rw [htwo, hfields]
    omega
  constructor
  · rintro rfl
    exact ⟨rfl, rfl, rfl, hbit, rfl, hfields.symm, rfl, rfl, rfl, rfl⟩
  · intro hchroma
    have hne : chroma.toNat ≠ 0 := fun h => hchroma (UInt32.toNat_inj.mp h)
    refine ⟨rfl, rfl, rfl, hbit, ?_, ?_, rfl, rfl, rfl, rfl⟩
    · exact if_neg hne
    · exact (if_neg hne).trans hdouble.symm

end Size

theorem tracks_frameSize {w u f cropUnitX cropUnitY l r t b : UInt32} {p : PictureSize}
    (hp : Fields w u f cropUnitX cropUnitY l r t b p) :
    Tracks PictureSize.Fits IsSize
      (check (Checked.frameSize w u f cropUnitX cropUnitY l r t b))
      (pure ((w + 1) * 16 - cropUnitX * (l + r),
        (2 - f) * (u + 1) * 16 - cropUnitY * (t + b)))
      (pure p) := by
  intro reader
  by_cases hfits : p.Fits
  · obtain ⟨hsize, hexact⟩ := frameSize_of_fits hp hfits
    rw [hsize]
    refine Or.inl ⟨⟨nofun, ?_⟩, some _, rfl, rfl, .some hexact⟩
    rintro _ ⟨⟩
    exact hfits
  · refine Or.inr ⟨fun hsafe => hfits (hsafe.value p rfl), ?_⟩
    cases hsize : Checked.frameSize w u f cropUnitX cropUnitY l r t b with
    | none => rfl
    | some dims => exact absurd (fits_of_frameSize hp hsize) hfits

theorem NotedM.pure_bind (a : β) (f : β → NotedM β') : (pure a >>= f) = f a := rfl

theorem tracks_readSpsDimensions :
    Tracks PictureSize.Fits IsSize Checked.readSpsDimensions readSpsDimensions pictureSize := by
  unfold Checked.readSpsDimensions readSpsDimensions pictureSize
  simp only [checked_readUe, checked_skipPicOrderCnt, Checked.readBit, Checked.readBits,
    ← checked_ignore, ← checked_unwrapOr]
  refine Tracks.read fun profileIdc => Tracks.read fun _ => Tracks.read fun _ => ?_
  refine Tracks.read fun _ => ?_
  split
  case' isTrue => refine tracks_highProfileFields.bind ?_
  case' isFalse => refine (tracks_pure rfl).bind ?_
  all_goals
    rintro chromaFormatIdc _ rfl
    refine Tracks.read fun _ => Tracks.read fun _ => Tracks.read fun _ => Tracks.read fun _ => ?_
    refine Tracks.read fun widthInMbs => Tracks.read fun heightInMapUnits => ?_
    refine (tracks_read (R := fun a b => a = b ∧ a.toNat < 2) fun _ _ _ h =>
      ⟨rfl, readBit_lt h⟩).bind ?_
    rintro frameMbsOnly _ ⟨rfl, hbit⟩
    have hsub : frameMbsOnly.toNat ≤ (2 : UInt32).toNat := le_of_lt hbit
    have hmul : (2 : UInt32).toNat * (2 - frameMbsOnly).toNat < 2 ^ 32 := by
      rw [toNat_sub_of_le hsub, show (2 : UInt32).toNat = 2 from rfl]
      omega
    split
    case' isTrue => refine Tracks.read fun _ => ?_
    all_goals
      refine Tracks.read fun _ => Tracks.read fun frameCropping => ?_
      simp only [checkedSub_of_le hsub, checkedMul_of_lt hmul, check_some, pure_bind,
        NotedM.pure_bind]
      by_cases hchroma : chromaFormatIdc = 0
      case' pos => simp only [if_pos hchroma]
      case' neg => simp only [if_neg hchroma]
      all_goals
        split
        case' isTrue =>
          refine Tracks.read fun _ => Tracks.read fun _ => Tracks.read fun _ => ?_
          refine Tracks.read fun _ => ?_
        all_goals
          apply tracks_frameSize
          first
          | exact (fields_crop hbit).1 hchroma
          | exact (fields_crop hbit).2 hchroma

end Tracks

/-! ### When the arithmetic is safe -/

theorem inRange_iff_safe {sps : Bytes} (hlen : ¬ sps.length < 4) :
    (spsElements sps).InRange ↔
      Safe PictureSize.Fits (pictureSize (BitReader.new (sps.drop 1))) := by
  rw [spsElements, if_neg hlen]
  constructor
  · exact fun h => ⟨h.scales, h.size⟩
  · exact fun h => ⟨h.scales, h.value⟩

/-- No operation on an SPS overflows, and what is stored is the coded size, exactly if the
coded elements are in the range of the machine words. -/
theorem sps_arithmetic_iff (sps : Bytes) :
    (Checked.parseSpsDimensions sps ≠ none ∧
      ∀ dims, parseSpsDimensions sps = some dims →
        ∃ p, (spsElements sps).size = some p ∧ IsSize dims p) ↔
      (spsElements sps).InRange := by
  by_cases hlen : sps.length < 4
  · rw [Checked.parseSpsDimensions, parseSpsDimensions, spsElements, if_pos hlen, if_pos hlen,
      if_pos hlen]
    exact ⟨fun _ => ⟨nofun, nofun⟩, fun _ => ⟨nofun, nofun⟩⟩
  · have hrun := tracks_readSpsDimensions (BitReader.new (sps.drop 1))
    rw [inRange_iff_safe hlen, Checked.parseSpsDimensions, parseSpsDimensions, if_neg hlen,
      if_neg hlen, spsElements, if_neg hlen]
    constructor
    · rintro ⟨hpanic, -⟩
      rcases hrun with ⟨hsafe, -⟩ | ⟨-, hnone⟩
      · exact hsafe
      · rw [hnone] at hpanic
        exact absurd rfl hpanic
    · intro hsafe
      rcases hrun with ⟨-, v, hchecked, hwrapped, hrel⟩ | ⟨hrange, -⟩
      · rw [hchecked, hwrapped]
        refine ⟨nofun, fun dims hdims => ?_⟩
        obtain ⟨hread, -⟩ := Option.filter_eq_some_iff.mp hdims
        change v = some dims at hread
        subst hread
        cases hsize : (pictureSize (BitReader.new (sps.drop 1))).1.1 with
        | none =>
          rw [hsize] at hrel
          cases hrel
        | some p =>
          rw [hsize] at hrel
          cases hrel with
          | some hexact => exact ⟨p, hsize, hexact⟩
      · exact absurd hsafe hrange

/-- 2^28 + 80 macroblocks wide and 45 high, without cropping. -/
def wideSps : Bytes :=
  [0x67, 0x42, 0xE0, 0x1F, 0xDA, 0x80, 0x00, 0x00, 0x04, 0x00, 0x00, 0x14, 0x01, 0x6E, 0x40]

/-- The width wraps to 1280: a checking build panics, and another one stores 1280x720. -/
theorem wide_sps_accepted :
    Checked.parseSpsDimensions wideSps = none ∧
    parseSpsDimensions wideSps = some (1280, 720) ∧
    ∃ p, (spsElements wideSps).size = some p ∧ p.width = 2 ^ 32 + 1280 ∧ p.height = 720 := by
  refine ⟨by decide +kernel, by decide +kernel, ⟨1, 2 ^ 28 + 79, 44, 1, 0, 0, 0, 0⟩, ?_⟩
  refine ⟨by decide +kernel, by decide +kernel, by decide +kernel⟩

end StreamInfa.Ingest
