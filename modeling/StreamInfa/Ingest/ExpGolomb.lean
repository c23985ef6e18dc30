import StreamInfa.Ingest.SpsSyntax

/-!
Exp-Golomb decoding at any bit offset.

`BitReader.after` stands behind the first bits of a byte string. Every read leads from such a
position to a later one, not behind the end (`moves_readUe`, `moves_readSe`); one that succeeds
has taken the code of the value it returns (`consumes_readUe`, `consumes_readSe`).

**`exp_golomb_inverse`**: behind any bits, whatever follows, `read_ue` and `read_se` return the
integer whose code is next and stop right behind the code; and on any bits they compute without
an overflow.
-/

namespace StreamInfa.Ingest

/-! ### Positions -/

namespace BitReader

/-- The number of bits in front of the position. -/
def pos (r : BitReader) : ℕ := 8 * r.bytePos + r.bitPos

/-- The reader of a byte string behind its first `n` bits. -/
def after (data : Bytes) (n : ℕ) : BitReader := ⟨data, n / 8, n % 8⟩

theorem pos_after (data : Bytes) (n : ℕ) : (after data n).pos = n := Nat.div_add_mod n 8

theorem after_pos {r : BitReader} (h : r.bitPos < 8) : after r.data r.pos = r := by
  have hbyte : (8 * r.bytePos + r.bitPos) / 8 = r.bytePos := by omega
  have hbit : (8 * r.bytePos + r.bitPos) % 8 = r.bitPos := by omega
  rw [after, pos, hbyte, hbit]

theorem unread_after (data : Bytes) (n : ℕ) :
    Unread (after data n) ((bytesBits data).drop n) := by
  refine ⟨Nat.mod_lt n (Nat.zero_lt_succ 7), ?_⟩
  exact congrArg (List.drop · (bytesBits data)) (pos_after data n)

/-- The second reader is as far in the same data as the first or farther, and no farther than
the end unless the first one is. -/
structure Ahead (r r' : BitReader) : Prop where
  data : r'.data = r.data
  pos : r.pos ≤ r'.pos
  bitPos : r.bitPos < 8 → r'.bitPos < 8
  inside : r.bitPos < 8 → r.pos ≤ 8 * r.data.length → r'.pos ≤ 8 * r.data.length

instance : Std.Refl Ahead := ⟨fun _ => ⟨rfl, le_refl _, id, fun _ => id⟩⟩

instance : IsTrans BitReader Ahead := by
  refine ⟨fun r₁ r₂ r₃ h h' => ⟨h'.data.trans h.data, h.pos.trans h'.pos, ?_, ?_⟩⟩
  · exact fun hbit => h'.bitPos (h.bitPos hbit)
  · intro hbit hpos
    have hinside := h'.inside (h.bitPos hbit)
    rw [h.data] at hinside
    exact hinside (h.inside hbit hpos)

/-- What is ahead of a position in the data is a position in the data. -/
theorem Ahead.exists_after {data : Bytes} {n : ℕ} {r : BitReader} (h : Ahead (after data n) r)
    (hn : n ≤ 8 * data.length) : ∃ m, n ≤ m ∧ m ≤ 8 * data.length ∧ r = after data m := by
  obtain ⟨hdata, hpos, hbit, hinside⟩ := h
  have hlt : n % 8 < 8 := Nat.mod_lt n (Nat.zero_lt_succ 7)
  rw [pos_after] at hpos hinside
  exact ⟨r.pos, hpos, hinside hlt hn, (after_pos (hbit hlt)).symm.trans (by rw [hdata]; rfl)⟩

end BitReader

open BitReader

theorem moves_readBit : Moves Ahead readBit := by
  intro r
  cases hbyte : r.data[r.bytePos]? with
  | none =>
    rw [run_readBit_none hbyte]
    exact Std.Refl.refl r
  | some byte =>
    obtain ⟨hlt, -⟩ := List.getElem?_eq_some_iff.mp hbyte
    rw [run_readBit hbyte]
    dsimp only
    split
    · rename_i hlast
      refine ⟨rfl, ?_, fun _ => Nat.zero_lt_succ 7, fun _ _ => ?_⟩
      · rw [pos, pos]
        dsimp only
        omega
      · rw [pos]
        dsimp only
        omega
    · rename_i hmore
      refine ⟨rfl, ?_, fun _ => ?_, fun _ _ => ?_⟩
      · rw [pos, pos]
        dsimp only
        omega
      · dsimp only
        omega
      · rw [pos]
        dsimp only
        omega

theorem moves_readBitsFrom (val : UInt32) (n : ℕ) : Moves Ahead (readBitsFrom val n) := by
  induction n generalizing val with
  | zero => exact Moves.pure val
  | succ n ih => exact moves_readBit.bind fun bit => ih _

theorem moves_readLeadingZeros (left : ℕ) : Moves Ahead (readLeadingZeros left) := by
  induction left with
  | zero => exact moves_readBit.bind fun _ => Moves.ite Moves.failure (Moves.pure 0)
  | succ left ih =>
    refine moves_readBit.bind fun _ => Moves.ite (ih.bind fun k => ?_) (Moves.pure 0)
    exact Moves.pure (k + 1)

theorem moves_readUe : Moves Ahead readUe := by
  refine (moves_readLeadingZeros 31).bind fun k => Moves.ite (Moves.pure 0) ?_
  exact (moves_readBitsFrom 0 k).bind fun _ => Moves.pure _

theorem moves_readSe : Moves Ahead readSe :=
  moves_readUe.bind fun _ => Moves.ite (Moves.pure _) (Moves.pure _)

/-! ### Encoding what was decoded -/

theorem consumes_readBit :
    Consumes Unread readBit fun bit code => ∃ b, bit = UInt32.ofNat b.toNat ∧ code = [b] := by
  intro r bits bit r' hr hrun
  cases bits with
  | nil =>
    have hlen := congrArg List.length hr.rest
    have hpos := hr.bitPos
    rw [List.length_drop, length_bytesBits, List.length_nil] at hlen
    rw [run_readBit_none (List.getElem?_eq_none (by omega))] at hrun
    cases hrun
  | cons b rest =>
    obtain ⟨bit', r₁, hrun', hbit, hleft⟩ := reads_readBit b r rest hr
    rw [hrun'] at hrun
    obtain ⟨hsame, rfl⟩ := Prod.mk.inj hrun
    obtain rfl := Option.some.inj hsame
    exact ⟨[b], rest, rfl, ⟨b, hbit, rfl⟩, hleft⟩

/-- The bits behind those of `val` are the value. -/
theorem consumes_readBitsFrom (val : UInt32) (n : ℕ) :
    Consumes Unread (readBitsFrom val n) fun v code =>
      code.length = n ∧ v = UInt32.ofNat (val.toNat * 2 ^ n + bitsNat code) := by
  intro r bits v r' hr hrun
  suffices hbits : n ≤ bits.length by
    have hread := reads_readBitsFrom val (bits.take n)
    rw [List.length_take, Nat.min_eq_left hbits] at hread
    rw [← List.take_append_drop n bits] at hr
    obtain ⟨v', r₁, hrun', hvalue, hleft⟩ := hread r _ hr
    rw [hrun'] at hrun
    obtain ⟨hsame, rfl⟩ := Prod.mk.inj hrun
    obtain rfl := Option.some.inj hsame
    refine ⟨bits.take n, bits.drop n, (List.take_append_drop n bits).symm, ⟨?_, hvalue⟩, hleft⟩
    rw [List.length_take, Nat.min_eq_left hbits]
  -- Each of the bits was there to be read.
  have hcount : Consumes Unread (readBitsFrom val n) fun _ code => code.length = n := by
    clear hrun hr
    induction n generalizing val with
    | zero => exact Consumes.pure rfl
    | succ n ih =>
      refine consumes_readBit.bind fun bit code hcode => ?_
      obtain ⟨b, -, rfl⟩ := hcode
      exact (ih ((val <<< 1) ||| bit)).mono fun _ code' hlen => congrArg (· + 1) hlen
  obtain ⟨code, rest, rfl, hlen, -⟩ := hcount r bits v r' hr hrun
  rw [List.length_append]
  omega

theorem consumes_readBits (n : ℕ) :
    Consumes Unread (readBits n) fun v code =>
      code.length = n ∧ v = UInt32.ofNat (bitsNat code) := by
  refine (consumes_readBitsFrom 0 n).mono fun v code h => ?_
  rwa [UInt32.toNat_zero, Nat.zero_mul, Nat.zero_add] at h

theorem consumes_readLeadingZeros (left : ℕ) :
    Consumes Unread (readLeadingZeros left) fun k code =>
      k ≤ left ∧ code = List.replicate k false ++ [true] := by
  have hone : ∀ {bit : UInt32} {code : List Bool}, ¬ bit = 0 →
      (∃ b : Bool, bit = UInt32.ofNat b.toNat ∧ code = [b]) → code = [true] := by
    rintro bit code hbit ⟨b, rfl, rfl⟩
    cases b with
    | false => exact absurd rfl hbit
    | true => rfl
  have hzero : ∀ {bit : UInt32} {code : List Bool}, bit = 0 →
      (∃ b : Bool, bit = UInt32.ofNat b.toNat ∧ code = [b]) → code = [false] := by
    rintro bit code hbit ⟨b, rfl, rfl⟩
    cases b with
    | false => rfl
    | true => cases hbit
  induction left with
  | zero =>
    refine consumes_readBit.bind fun bit code hcode => ?_
    split
    · exact Consumes.failure
    · rename_i hbit
      exact Consumes.pure ⟨le_refl 0, by rw [hone hbit hcode]; rfl⟩
  | succ left ih =>
    refine consumes_readBit.bind fun bit code hcode => ?_
    split
    · rename_i hbit
      obtain rfl := hzero hbit hcode
      refine ih.bind fun k code' hk => Consumes.pure ?_
      obtain ⟨hle, rfl⟩ := hk
      exact ⟨Nat.succ_le_succ hle, by rw [List.append_nil]; rfl⟩
    · rename_i hbit
      exact Consumes.pure ⟨Nat.zero_le _, by rw [hone hbit hcode]; rfl⟩

/-- The code of the number with `k` digits behind its first. -/
theorem expGolomb_of_digits {k : ℕ} {suffix : List Bool} (hlen : suffix.length = k) :
    expGolomb (2 ^ k - 1 + bitsNat suffix) = List.replicate k false ++ true :: suffix := by
  have hlt := bitsNat_lt suffix
  rw [hlen] at hlt
  have hpos : 1 ≤ 2 ^ k := Nat.one_le_two_pow
  have hsum : 2 ^ k - 1 + bitsNat suffix + 1 = 2 ^ k + bitsNat suffix := by omega
  have hlog : Nat.log2 (2 ^ k + bitsNat suffix) = k := by
    rw [Nat.log2_eq_iff (by omega), Nat.pow_succ]
    omega
  have hspell := beBits_bitsNat suffix
  rw [hlen] at hspell
  rw [expGolomb, hsum, hlog, Nat.add_sub_cancel_left, hspell]

/-- What the unsigned reader returns is what the code it took stands for. -/
theorem consumes_readUe : Consumes Unread readUe fun v code => code = expGolomb v.toNat := by
  refine (consumes_readLeadingZeros 31).bind fun k code hk => ?_
  obtain ⟨hk31, rfl⟩ := hk
  split
  · rename_i hzero
    subst hzero
    exact Consumes.pure rfl
  · refine (consumes_readBits k).bind fun v suffix hv => Consumes.pure ?_
    obtain ⟨hlen, rfl⟩ := hv
    have hlt := bitsNat_lt suffix
    rw [hlen] at hlt
    have hfits := golomb_lt hk31 hlt
    have hlow : (UInt32.ofNat (bitsNat suffix)).toNat = bitsNat suffix := by
      rw [UInt32.toNat_ofNat', Nat.mod_eq_of_lt (by omega)]
    have htop := toNat_shiftLeft_sub_one hk31
    rw [toNat_add_of_lt (by omega), htop, hlow, expGolomb_of_digits hlen, List.append_nil,
      List.append_assoc, List.singleton_append]

/-- What the signed reader returns is what the code it took stands for. -/
theorem consumes_readSe : Consumes Unread readSe fun i code => code = signedExpGolomb i.toInt := by
  intro r bits i r' hr hrun
  obtain ⟨w, r₁, hcode, hrun⟩ := BitM.run_bind_eq_some hrun
  have hlt := readUe_lt hcode
  obtain ⟨code, rest, rfl, rfl, hleft⟩ := consumes_readUe r bits w r₁ hr hcode
  suffices hvalue : (if 0 < i.toInt then 2 * i.toInt.natAbs - 1 else 2 * i.toInt.natAbs) =
      w.toNat ∧ r₁ = r' by
    obtain ⟨hvalue, rfl⟩ := hvalue
    exact ⟨_, rest, rfl, congrArg expGolomb hvalue.symm, hleft⟩
  split at hrun
  · rename_i hodd
    rw [and_one_eq_one_iff] at hodd
    obtain ⟨hi, rfl⟩ := Prod.mk.inj hrun
    obtain rfl := Option.some.inj hi
    rw [toInt_of_odd hodd hlt]
    refine ⟨?_, rfl⟩
    split <;> omega
  · rename_i heven
    rw [and_one_eq_one_iff] at heven
    obtain ⟨hi, rfl⟩ := Prod.mk.inj hrun
    obtain rfl := Option.some.inj hi
    rw [toInt_of_even]
    refine ⟨?_, rfl⟩
    split <;> omega

/-! ### Decoding -/

/-- Behind any bits, whatever follows, a reader of a code returns the value and stops behind the
code. -/
theorem run_after {α : Type} {x : BitM α} {code : List Bool} {P : α → Prop}
    (hreads : Reads Unread x code P) (hmoves : Moves Ahead x) (pre suf : List Bool) :
    ∃ a, P a ∧ x.run (after (packBits (pre ++ code ++ suf)) pre.length) =
      (some a, after (packBits (pre ++ code ++ suf)) (pre.length + code.length)) := by
  obtain ⟨rest, hbits⟩ := exists_bytesBits_packBits (pre ++ code) suf
  generalize packBits (pre ++ code ++ suf) = data at hbits ⊢
  have hlen : 8 * data.length = pre.length + code.length + rest.length := by
    rw [← length_bytesBits, hbits, List.length_append, List.length_append]
  have hleft := unread_after data pre.length
  rw [hbits, List.append_assoc, List.drop_left] at hleft
  obtain ⟨a, r, hrun, ha, hrest⟩ := hreads _ rest hleft
  have hahead := hmoves (after data pre.length)
  rw [hrun] at hahead
  obtain ⟨n, hge, hle, rfl⟩ := hahead.exists_after (by omega)
  have hcount := congrArg List.length ((unread_after data n).rest.symm.trans hrest.rest)
  rw [List.length_drop, length_bytesBits] at hcount
  have hend : n = pre.length + code.length := by omega
  exact ⟨a, ha, by rw [hrun, hend]⟩

/-- A run of a read on any bits: it does not panic at an overflow and stops within the data; a
value that it returns is the integer that the bits it took stand for. -/
structure SoundRun {α : Type} (checked : CheckedM α) (x : BitM α) (code : α → List Bool)
    (data : Bytes) (n : ℕ) : Prop where
  noPanic : checked.run (after data n) = some (x.run (after data n))
  inside : ∃ m, n ≤ m ∧ m ≤ 8 * data.length ∧ (x.run (after data n)).2 = after data m
  coded : ∀ a, (x.run (after data n)).1 = some a → ∃ rest,
    (bytesBits data).drop n = code a ++ rest ∧ Unread (x.run (after data n)).2 rest

theorem soundRun {α : Type} {checked : CheckedM α} {x : BitM α} {code : α → List Bool}
    (hchecked : checked = x.checked) (hmoves : Moves Ahead x)
    (hconsumes : Consumes Unread x fun a taken => taken = code a) {data : Bytes} {n : ℕ}
    (hn : n ≤ 8 * data.length) : SoundRun checked x code data n := by
  refine ⟨by rw [hchecked]; rfl, (hmoves (after data n)).exists_after hn, fun a ha => ?_⟩
  obtain ⟨taken, rest, hbits, rfl, hrest⟩ :=
    hconsumes (after data n) _ a _ (unread_after data n) (Prod.ext ha rfl)
  exact ⟨rest, hbits, hrest⟩

/-- Exp-Golomb decoding inverts encoding at any bit offset, and never overflows. -/
theorem exp_golomb_inverse :
    (∀ (pre suf : List Bool) (v : ℕ), v ≤ 2 ^ 32 - 2 → ∃ w : UInt32, w.toNat = v ∧
      readUe.run (after (packBits (pre ++ expGolomb v ++ suf)) pre.length) =
        (some w, after (packBits (pre ++ expGolomb v ++ suf))
          (pre.length + (expGolomb v).length))) ∧
    (∀ (pre suf : List Bool) (z : ℤ), |z| ≤ 2 ^ 31 - 1 → ∃ i : Int32, i.toInt = z ∧
      readSe.run (after (packBits (pre ++ signedExpGolomb z ++ suf)) pre.length) =
        (some i, after (packBits (pre ++ signedExpGolomb z ++ suf))
          (pre.length + (signedExpGolomb z).length))) ∧
    ∀ (data : Bytes) (n : ℕ), n ≤ 8 * data.length →
      SoundRun Checked.readUe readUe (fun v => expGolomb v.toNat) data n ∧
      SoundRun Checked.readSe readSe (fun i => signedExpGolomb i.toInt) data n := by
  refine ⟨fun pre suf v hv => ?_, fun pre suf z hz => ?_, fun data n hn => ⟨?_, ?_⟩⟩
  · have hvalue : (UInt32.ofNat v).toNat = v := by
      rw [UInt32.toNat_ofNat', Nat.mod_eq_of_lt (by omega)]
    have hreads : Reads Unread readUe (expGolomb v) (·.toNat = v) :=
      (reads_readUe (by omega)).mono fun w hw => by rw [hw, hvalue]
    exact run_after hreads moves_readUe pre suf
  · have habs : z.natAbs < 2 ^ 31 := by
      rw [Int.abs_eq_natAbs] at hz
      omega
    exact run_after (reads_readSe_toInt habs) moves_readSe pre suf
  · exact soundRun checked_readUe moves_readUe consumes_readUe hn
  · exact soundRun checked_readSe moves_readSe consumes_readSe hn

/-- A code across the end of a byte, a signed one behind a single bit, and a run of zeros that
goes on to the end. -/
theorem exp_golomb_inverse_acrossBytes :
    (∃ w : UInt32, w.toNat = 6 ∧
      readUe.run (after (packBits ([true, false, true, true, false] ++ expGolomb 6 ++ [true])) 5) =
        (some w, after (packBits ([true, false, true, true, false] ++ expGolomb 6 ++ [true]))
          (5 + (expGolomb 6).length))) ∧
    (∃ i : Int32, i.toInt = -3 ∧
      readSe.run (after (packBits ([true] ++ signedExpGolomb (-3) ++ [])) 1) =
        (some i, after (packBits ([true] ++ signedExpGolomb (-3) ++ []))
          (1 + (signedExpGolomb (-3)).length))) ∧
    SoundRun Checked.readUe readUe (fun v => expGolomb v.toNat) [0, 0, 0, 0] 7 := by
  refine ⟨?_, ?_, ?_⟩
  · exact exp_golomb_inverse.1 [true, false, true, true, false] [true] 6 (by decide)
  · exact exp_golomb_inverse.2.1 [true] [] (-3) (by decide)
  · exact (exp_golomb_inverse.2.2 [0, 0, 0, 0] 7 (by decide)).1

end StreamInfa.Ingest
