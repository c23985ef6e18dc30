import StreamInfa.Lib.Bytes

/-!
Bit strings, most significant bit first.

`beBits w n` is a field of `w` bits and `bitsNat` reads it back. `bytesBits` is a byte string
as bits; `packBits` puts bits into bytes and fills up the last one with zeros
(`bytesBits_packBits`). `expGolomb` and `signedExpGolomb` are the variable-length codes of
integers: as many zeros as the number has digits behind its first, and then its digits.
-/

namespace StreamInfa

/-! ### Fields -/

/-- The `w` low-order bits of `n`. -/
def beBits : ℕ → ℕ → List Bool
  | 0, _ => []
  | w + 1, n => n.testBit w :: beBits w n

/-- The number a bit string spells. -/
def bitsNat : List Bool → ℕ
  | [] => 0
  | b :: bs => b.toNat * 2 ^ bs.length + bitsNat bs

@[simp] theorem length_beBits (w n : ℕ) : (beBits w n).length = w := by
  induction w with
  | zero => rfl
  | succ w ih => simp [beBits, ih]

theorem bitsNat_lt (bits : List Bool) : bitsNat bits < 2 ^ bits.length := by
  induction bits with
  | nil => decide
  | cons b bits ih =>
    rw [bitsNat, List.length_cons, Nat.pow_succ]
    have hbit : b.toNat * 2 ^ bits.length ≤ 1 * 2 ^ bits.length :=
      Nat.mul_le_mul_right _ (Bool.toNat_le b)
    omega

/-- Reading back a field of `w` bits gives the number modulo `2 ^ w`. -/
theorem bitsNat_beBits (w n : ℕ) : bitsNat (beBits w n) = n % 2 ^ w := by
  induction w with
  | zero => simp [beBits, bitsNat, Nat.mod_one]
  | succ w ih =>
    rw [beBits, bitsNat, length_beBits, ih, Nat.toNat_testBit, Nat.pow_succ, Nat.mod_mul,
      Nat.mul_comm, Nat.add_comm]

theorem bitsNat_beBits_of_lt {w n : ℕ} (h : n < 2 ^ w) : bitsNat (beBits w n) = n := by
  rw [bitsNat_beBits, Nat.mod_eq_of_lt h]

/-- A field only depends on its low-order bits. -/
theorem beBits_add_mul {w n : ℕ} (m : ℕ) (h : n < 2 ^ w) :
    beBits w (m * 2 ^ w + n) = beBits w n := by
  suffices hall : ∀ v ≤ w, beBits v (m * 2 ^ w + n) = beBits v n from hall w (le_refl w)
  intro v hv
  induction v with
  | zero => rfl
  | succ v ih =>
    rw [beBits, beBits, ih (by omega), Nat.mul_comm, Nat.testBit_two_pow_mul_add m h v,
      if_pos (by omega)]

/-- Writing the number that bits spell gives the bits. -/
theorem beBits_bitsNat (bits : List Bool) : beBits bits.length (bitsNat bits) = bits := by
  induction bits with
  | nil => rfl
  | cons b bits ih =>
    have hlt := bitsNat_lt bits
    have hbit : (b.toNat * 2 ^ bits.length + bitsNat bits).testBit bits.length = b := by
      rw [Nat.mul_comm, Nat.testBit_two_pow_mul_add b.toNat hlt, if_neg (lt_irrefl _),
        Nat.sub_self]
      cases b <;> rfl
    rw [List.length_cons, bitsNat, beBits, hbit, beBits_add_mul b.toNat hlt, ih]

/-- The bits of a field by their position. -/
theorem getElem?_beBits {w j : ℕ} (n : ℕ) (hj : j < w) :
    (beBits w n)[j]? = some (n.testBit (w - 1 - j)) := by
  induction w generalizing j with
  | zero => omega
  | succ w ih =>
    cases j with
    | zero => rfl
    | succ j =>
      rw [beBits, List.getElem?_cons_succ, ih (by omega), show w + 1 - 1 - (j + 1) = w - 1 - j by
        omega]

/-! ### Bytes -/

/-- The bits of a byte string. -/
def bytesBits (bytes : Bytes) : List Bool := bytes.flatMap fun b => beBits 8 b.toNat

theorem length_bytesBits (bytes : Bytes) : (bytesBits bytes).length = 8 * bytes.length := by
  induction bytes with
  | nil => rfl
  | cons b bytes ih =>
    rw [bytesBits, List.flatMap_cons, ← bytesBits, List.length_append, length_beBits, ih,
      List.length_cons]
    ring

/-- Bit `j` of byte `i`. -/
theorem getElem?_bytesBits (bytes : Bytes) (i : ℕ) {j : ℕ} (hj : j < 8) :
    (bytesBits bytes)[8 * i + j]? = bytes[i]?.map fun b => b.toNat.testBit (7 - j) := by
  induction bytes generalizing i with
  | nil => rfl
  | cons b bytes ih =>
    rw [bytesBits, List.flatMap_cons, ← bytesBits]
    cases i with
    | zero =>
      rw [List.getElem?_append_left (by rw [length_beBits]; omega), Nat.mul_zero, Nat.zero_add,
        getElem?_beBits _ hj]
      rfl
    | succ i =>
      rw [List.getElem?_append_right (by rw [length_beBits]; omega), length_beBits,
        show 8 * (i + 1) + j - 8 = 8 * i + j by omega, ih, List.getElem?_cons_succ]

/-- Bits in bytes: `n` of them, the missing bits zero. -/
def packBytes : ℕ → List Bool → Bytes
  | 0, _ => []
  | n + 1, bits =>
    UInt8.ofNat (bitsNat (bits.take 8 ++ List.replicate (8 - bits.length) false)) ::
      packBytes n (bits.drop 8)

/-- Bits in as many bytes as they need. -/
def packBits (bits : List Bool) : Bytes := packBytes ((bits.length + 7) / 8) bits

theorem bytesBits_packBytes {n : ℕ} {bits : List Bool} (h : bits.length ≤ 8 * n) :
    bytesBits (packBytes n bits) = bits ++ List.replicate (8 * n - bits.length) false := by
  induction n generalizing bits with
  | zero =>
    obtain rfl := List.eq_nil_of_length_eq_zero (Nat.le_zero.mp h)
    rfl
  | succ n ih =>
    have hlen : (bits.take 8 ++ List.replicate (8 - bits.length) false).length = 8 := by
      rw [List.length_append, List.length_take, List.length_replicate]
      omega
    have hbyte : beBits 8 (UInt8.ofNat (bitsNat (bits.take 8 ++
        List.replicate (8 - bits.length) false))).toNat =
          bits.take 8 ++ List.replicate (8 - bits.length) false := by
      have hlt := bitsNat_lt (bits.take 8 ++ List.replicate (8 - bits.length) false)
      have hspell := beBits_bitsNat (bits.take 8 ++ List.replicate (8 - bits.length) false)
      rw [hlen] at hlt hspell
      rw [UInt8.toNat_ofNat', Nat.mod_eq_of_lt hlt, hspell]
    have hdrop : (bits.drop 8).length ≤ 8 * n := by
      rw [List.length_drop]
      omega
    rw [packBytes, bytesBits, List.flatMap_cons, ← bytesBits, hbyte, ih hdrop, List.length_drop]
    by_cases hfull : 8 ≤ bits.length
    · rw [Nat.sub_eq_zero_of_le hfull, List.replicate_zero, List.append_nil, ← List.append_assoc,
        List.take_append_drop, show 8 * n - (bits.length - 8) = 8 * (n + 1) - bits.length by omega]
    · rw [List.take_of_length_le (by omega), List.drop_of_length_le (by omega), List.nil_append,
        List.append_assoc, List.replicate_append_replicate,
        show 8 - bits.length + (8 * n - (bits.length - 8)) = 8 * (n + 1) - bits.length by omega]

/-- The bits come back, with zeros behind them. -/
theorem bytesBits_packBits (bits : List Bool) :
    ∃ n, bytesBits (packBits bits) = bits ++ List.replicate n false :=
  ⟨_, bytesBits_packBytes (by omega)⟩

/-- Bytes that bits are packed into start with the first of the bits. -/
theorem exists_bytesBits_packBits (bits more : List Bool) :
    ∃ rest, bytesBits (packBits (bits ++ more)) = bits ++ rest := by
  obtain ⟨n, hn⟩ := bytesBits_packBits (bits ++ more)
  exact ⟨more ++ List.replicate n false, by rw [hn, List.append_assoc]⟩

/-! ### Exp-Golomb codes -/

/-- The code of an unsigned integer. -/
def expGolomb (n : ℕ) : List Bool :=
  List.replicate (Nat.log2 (n + 1)) false ++
    true :: beBits (Nat.log2 (n + 1)) (n + 1 - 2 ^ Nat.log2 (n + 1))

/-- The code of a signed integer. -/
def signedExpGolomb (z : ℤ) : List Bool :=
  expGolomb (if 0 < z then 2 * z.natAbs - 1 else 2 * z.natAbs)

end StreamInfa
