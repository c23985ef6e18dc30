import StreamInfa.Ingest.SpsChroma

/-!
Emulation prevention in sequence parameter sets.

`parse_sps_dimensions` reads a NAL unit as it is transmitted: it does not remove the emulation
prevention bytes. **`parse_escaped_eq`**: it finds in the unit what it finds in the payload if
none of the bits that it reads is changed by an inserted byte; in the sets that it reads in
step these are the bits up to the cropping. A large offset of the picture order count puts an
inserted byte among them, and another size is found (`escapedSps_size_wrong`).
-/

namespace StreamInfa.Ingest

variable {α : Type}

/-! ### What the reads depend on -/

theorem decided_readBit : Decided Unread readBit := by
  intro r bits hr
  cases bits with
  | nil =>
    have hlen := congrArg List.length hr.rest
    have hpos := hr.bitPos
    rw [List.length_drop, length_bytesBits, List.length_nil] at hlen
    rw [run_readBit_none (List.getElem?_eq_none (by omega))]
    exact ⟨[], [], rfl, hr, fun hne => absurd rfl hne⟩
  | cons b rest =>
    refine ⟨[b], rest, rfl, ?_⟩
    obtain ⟨bit, r₁, hrun, hbit, hleft⟩ := reads_readBit b r rest hr
    rw [hrun]
    refine ⟨hleft, fun _ r' rest' hr' => ?_⟩
    obtain ⟨bit', r₁', hrun', hbit', hleft'⟩ := reads_readBit b r' rest' hr'
    rw [hrun', hbit, hbit']
    exact ⟨rfl, hleft'⟩

theorem decided_ignore {x : BitM α} (h : Decided Unread x) : Decided Unread x.ignore :=
  h.map fun _ => some ()

theorem decided_unwrapOr {x : BitM α} (h : Decided Unread x) (default : α) :
    Decided Unread (x.unwrapOr default) :=
  h.map fun v => some (v.getD default)

theorem decided_readBitsFrom (val : UInt32) (n : ℕ) : Decided Unread (readBitsFrom val n) := by
  induction n generalizing val with
  | zero => exact Decided.pure val
  | succ n ih => exact decided_readBit.bind fun bit => ih _

theorem decided_readLeadingZeros (left : ℕ) : Decided Unread (readLeadingZeros left) := by
  induction left with
  | zero => exact decided_readBit.bind fun _ => Decided.ite Decided.failure (Decided.pure 0)
  | succ left ih =>
    refine decided_readBit.bind fun _ => Decided.ite (ih.bind fun k => ?_) (Decided.pure 0)
    exact Decided.pure (k + 1)

theorem decided_readUe : Decided Unread readUe := by
  refine (decided_readLeadingZeros 31).bind fun k => Decided.ite (Decided.pure 0) ?_
  exact (decided_readBitsFrom 0 k).bind fun _ => Decided.pure _

theorem decided_readSe : Decided Unread readSe :=
  decided_readUe.bind fun _ => Decided.ite (Decided.pure _) (Decided.pure _)

theorem decided_skipScalingList (last next : Int32) (size : ℕ) :
    Decided Unread (skipScalingList last next size) := by
  induction size generalizing last next with
  | zero => exact Decided.pure ()
  | succ size ih =>
    refine Decided.ite (decided_readSe.bind fun delta => ?_) (ih _ _)
    exact ih _ _

theorem decided_skipScalingLists (i n : ℕ) : Decided Unread (skipScalingLists i n) := by
  induction n generalizing i with
  | zero => exact Decided.pure ()
  | succ n ih =>
    refine decided_readBit.bind fun _ => Decided.ite ?_ (ih (i + 1))
    exact (decided_skipScalingList 8 8 _).bind fun _ => ih (i + 1)

theorem decided_readHighProfileFields : Decided Unread readHighProfileFields := by
  have hdepths := decided_ignore decided_readUe
  have hflag := decided_ignore decided_readBit
  have htail : ∀ cf : UInt32, Decided Unread (do
      readUe.ignore
      readUe.ignore
      readBit.ignore
      let scalingPresent ← readBit
      if scalingPresent = 1 then skipScalingLists 0 (if cf ≠ 3 then 6 else 8)
      return cf) := by
    intro cf
    refine hdepths.bind fun _ => hdepths.bind fun _ => hflag.bind fun _ => ?_
    refine decided_readBit.bind fun _ => Decided.ite ?_ (Decided.pure cf)
    exact (decided_skipScalingLists 0 _).bind fun _ => Decided.pure cf
  exact decided_readUe.bind fun cf => Decided.ite (hflag.bind fun _ => htail cf) (htail cf)

theorem decided_skipSes (n : ℕ) : Decided Unread (skipSes n) := by
  induction n with
  | zero => exact Decided.pure ()
  | succ n ih => exact (decided_ignore decided_readSe).bind fun _ => ih

theorem decided_skipPicOrderCnt : Decided Unread skipPicOrderCnt := by
  refine decided_readUe.bind fun pocType => ?_
  refine Decided.ite (decided_ignore decided_readUe) (Decided.ite ?_ (Decided.pure ()))
  refine (decided_ignore decided_readBit).bind fun _ => ?_
  refine (decided_ignore decided_readSe).bind fun _ => ?_
  refine (decided_ignore decided_readSe).bind fun _ => ?_
  exact decided_readUe.bind fun n => decided_skipSes n.toNat

theorem decided_readSpsDimensions : Decided Unread readSpsDimensions := by
  have hue := decided_ignore decided_readUe
  have hbit := decided_ignore decided_readBit
  have hoffset := decided_unwrapOr decided_readUe 0
  refine (decided_readBitsFrom 0 8).bind fun profileIdc => ?_
  refine (decided_ignore (decided_readBitsFrom 0 8)).bind fun _ => ?_
  refine (decided_ignore (decided_readBitsFrom 0 8)).bind fun _ => ?_
  refine hue.bind fun _ => ?_
  dsimp only
  refine Decided.ite (decided_readHighProfileFields.bind fun cf => ?_)
    ((Decided.pure 1).bind fun cf => ?_)
  all_goals
    refine hue.bind fun _ => decided_skipPicOrderCnt.bind fun _ => ?_
    refine hue.bind fun _ => hbit.bind fun _ => ?_
    refine decided_readUe.bind fun widthInMbs => decided_readUe.bind fun heightInMapUnits => ?_
    refine decided_readBit.bind fun frameMbsOnly => ?_
    refine Decided.ite (hbit.bind fun _ => ?_) ?_
  all_goals
    refine hbit.bind fun _ => decided_readBit.bind fun frameCropping => ?_
    refine Decided.ite ?_ ((Decided.pure _).bind fun _ => Decided.pure _)
    refine hoffset.bind fun l => hoffset.bind fun r => hoffset.bind fun t => ?_
    exact hoffset.bind fun b => (Decided.pure _).bind fun _ => Decided.pure _

/-! ### Inserted bytes -/

/-- The bits that have not been read. -/
def BitReader.unread (r : BitReader) : List Bool :=
  (bytesBits r.data).drop (8 * r.bytePos + r.bitPos)

/-- The number of bits of a payload that the parser reads. -/
def spsBitsRead (payload : Bytes) : ℕ :=
  8 * payload.length - (readSpsDimensions.run (BitReader.new payload)).2.unread.length

/-- No byte is inserted, or none that changes a bit which is read. Of a set that the parser reads
out of step (a scaling matrix, profile 135) these are the bits up to its own last position, not
those of the set's fields. -/
def EscapesBehindSize (payload : Bytes) : Prop :=
  preventEmulation 0 payload = payload ∨
    spsBitsRead payload < 8 * payload.length ∧
      (bytesBits (preventEmulation 0 payload)).take (spsBitsRead payload) =
        (bytesBits payload).take (spsBitsRead payload)

instance (payload : Bytes) : Decidable (EscapesBehindSize payload) :=
  inferInstanceAs (Decidable (_ ∨ _))

/-- Only the bits that are read decide the size. -/
theorem run_eq_of_take {payload data : Bytes} (hmore : spsBitsRead payload < 8 * payload.length)
    (htake : (bytesBits data).take (spsBitsRead payload) =
      (bytesBits payload).take (spsBitsRead payload)) :
    (readSpsDimensions.run (BitReader.new data)).1 =
      (readSpsDimensions.run (BitReader.new payload)).1 := by
  obtain ⟨code, rest, hbits, hleft, hsame⟩ :=
    decided_readSpsDimensions _ _ (unread_new payload)
  have hlen := congrArg List.length hbits
  rw [length_bytesBits, List.length_append] at hlen
  have hread : spsBitsRead payload = code.length := by
    rw [spsBitsRead, BitReader.unread, hleft.rest]
    omega
  rw [hread] at hmore htake
  rw [hbits, List.take_left] at htake
  have hdata := unread_new data
  rw [← List.take_append_drop code.length (bytesBits data), htake] at hdata
  have hne : rest ≠ [] := by
    rw [← List.length_pos_iff]
    omega
  exact (hsame hne _ _ hdata).1

theorem length_le_preventEmulation (zeros : ℕ) (payload : Bytes) :
    payload.length ≤ (preventEmulation zeros payload).length := by
  induction payload generalizing zeros with
  | nil => exact Nat.zero_le _
  | cons b payload ih =>
    unfold preventEmulation
    split
    · exact Nat.succ_le_succ (le_trans (ih _) (Nat.le_succ _))
    · exact Nat.succ_le_succ (ih _)

/-- In the sets that it reads in step, the parser reads the bits up to the cropping. -/
theorem HighParameterSet.InStep.spsBitsRead_eq {s : HighParameterSet} (h : s.InStep) :
    spsBitsRead s.rbsp = s.sizeBits.length := by
  obtain ⟨rest, hrest⟩ := s.exists_bytesBits_rbsp
  have hunread := unread_new s.rbsp
  rw [hrest] at hunread
  obtain ⟨dims, r, hrun, -, hleft⟩ :=
    s.common.reads_sizeFields h.reads_chromaFormatIdc _ rest hunread
  have hlen := congrArg List.length hrest
  rw [length_bytesBits, List.length_append] at hlen
  rw [spsBitsRead, hrun, BitReader.unread, hleft.rest, hlen, Nat.add_sub_cancel]
  rfl

/-- The size found in the unit is the one found in the payload, if no inserted byte changes a
bit which is read. -/
theorem parse_escaped_eq (s : HighParameterSet) (header : UInt8)
    (h : EscapesBehindSize s.rbsp) :
    parseSpsDimensions (nalUnit header s.rbsp) = parseSpsDimensions (header :: s.rbsp) ∧
      (s.InStep → spsBitsRead s.rbsp = s.sizeBits.length) := by
  refine ⟨?_, fun hstep => hstep.spsBitsRead_eq⟩
  rcases h with hnone | ⟨hmore, htake⟩
  · rw [nalUnit, hnone]
  · obtain ⟨rest, hrest⟩ := s.exists_bytesBits_rbsp
    have hbytes := s.common.three_le_length_of_bits hrest
    have hmoreBytes := length_le_preventEmulation 0 s.rbsp
    have hpayload : ¬ (header :: s.rbsp).length < 4 := by
      rw [List.length_cons]
      omega
    have hunit : ¬ (header :: preventEmulation 0 s.rbsp).length < 4 := by
      rw [List.length_cons]
      omega
    rw [nalUnit, parseSpsDimensions, parseSpsDimensions, if_neg hpayload, if_neg hunit]
    simp only [List.drop_succ_cons, List.drop_zero]
    rw [run_eq_of_take hmore htake]

/-- A stream whose VUI parameters have a run of zeros. -/
def zerosInVuiSps : HighParameterSet :=
  .ofCommon { interlacedSps with vuiParameters := some (List.replicate 40 false) }

theorem parse_escaped_eq_zerosInVui :
    preventEmulation 0 zerosInVuiSps.rbsp ≠ zerosInVuiSps.rbsp ∧
    parseSpsDimensions (nalUnit 0x67 zerosInVuiSps.rbsp) =
      parseSpsDimensions (0x67 :: zerosInVuiSps.rbsp) ∧
    (zerosInVuiSps.InStep → spsBitsRead zerosInVuiSps.rbsp = zerosInVuiSps.sizeBits.length) := by
  constructor
  · decide +kernel
  · exact parse_escaped_eq zerosInVuiSps 0x67 (by decide +kernel)

-- The bits that are read may change without effect: here the offsets absorb the inserted byte.
example : ∃ s : HighParameterSet, ¬EscapesBehindSize s.rbsp ∧
    parseSpsDimensions (nalUnit 0x67 s.rbsp) = parseSpsDimensions (0x67 :: s.rbsp) :=
  ⟨.ofCommon { interlacedSps with
    picOrderCnt := .offsets false ⟨0, by decide⟩ ⟨0, by decide⟩
      [⟨34858888, by decide⟩, ⟨0, by decide⟩, ⟨0, by decide⟩] (by decide) },
    by decide +kernel⟩

/-- A stream with a large offset of the picture order count. -/
def escapedSps : HighParameterSet :=
  .ofCommon { interlacedSps with
    picOrderCnt := .offsets false ⟨2 ^ 28, by decide⟩ ⟨1, by decide⟩ [] (by decide) }

theorem escapedSps_size_wrong :
    parseSpsDimensions (0x67 :: escapedSps.rbsp) = some (1920, 1080) ∧
    parseSpsDimensions (nalUnit 0x67 escapedSps.rbsp) = some (128, 32) := by
  decide +kernel

end StreamInfa.Ingest
