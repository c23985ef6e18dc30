import Mathlib.Data.List.Basic
import Mathlib.Tactic.Ring

/-!
Byte strings and fixed-width integers on the wire.

`beBytes w n` is the big-endian encoding of `n` in `w` bytes, truncated the way
an integer cast truncates; `beNat` reads a byte string back. `takeExact` is the
blocking "read exactly n bytes" of a socket whose peer has already closed: it
fails when the bytes run out. The three are what every framing in the
development (RTMP chunks, ISO-BMFF boxes, NAL units) is written with.
-/

namespace StreamInfa

/-- A byte string. -/
abbrev Bytes := List UInt8

/-! ### Fixed-width big-endian integers -/

/-- The `w` low-order bytes of `n`, most significant first. -/
def beBytes : Nat → Nat → Bytes
  | 0, _ => []
  | w + 1, n => UInt8.ofNat (n / 256 ^ w) :: beBytes w n

/-- The number a byte string spells, most significant byte first. -/
def beNat : Bytes → Nat
  | [] => 0
  | b :: bs => b.toNat * 256 ^ bs.length + beNat bs

/-- The `w` low-order bytes of `n`, least significant first. -/
def leBytes (w n : Nat) : Bytes := (beBytes w n).reverse

/-- The number a byte string spells, least significant byte first. -/
def leNat (bs : Bytes) : Nat := beNat bs.reverse

@[simp] theorem length_beBytes (w n : Nat) : (beBytes w n).length = w := by
  induction w with
  | zero => rfl
  | succ w ih => simp [beBytes, ih]

@[simp] theorem length_leBytes (w n : Nat) : (leBytes w n).length = w := by
  simp [leBytes]

/-- Reading back a `w`-byte field gives the number modulo `256 ^ w`. -/
theorem beNat_beBytes (w n : Nat) : beNat (beBytes w n) = n % 256 ^ w := by
  induction w with
  | zero => simp [beBytes, beNat, Nat.mod_one]
  | succ w ih =>
    simp only [beBytes, beNat, length_beBytes, ih, UInt8.toNat_ofNat']
    rw [pow_succ 256 w, Nat.mod_mul, Nat.mul_comm, Nat.add_comm]

/-- A field wide enough for its value reads back exactly. -/
theorem beNat_beBytes_of_lt {w n : Nat} (h : n < 256 ^ w) : beNat (beBytes w n) = n := by
  rw [beNat_beBytes, Nat.mod_eq_of_lt h]

theorem leNat_leBytes_of_lt {w n : Nat} (h : n < 256 ^ w) : leNat (leBytes w n) = n := by
  rw [leNat, leBytes, List.reverse_reverse, beNat_beBytes_of_lt h]

theorem beNat_lt (bs : Bytes) : beNat bs < 256 ^ bs.length := by
  induction bs with
  | nil => exact Nat.one_pos
  | cons b bs ih =>
    have hbyte : b.toNat ≤ 255 := Nat.le_of_lt_succ b.toNat_lt
    calc beNat (b :: bs) ≤ 255 * 256 ^ bs.length + beNat bs :=
          Nat.add_le_add_right (Nat.mul_le_mul_right _ hbyte) _
      _ < 255 * 256 ^ bs.length + 256 ^ bs.length := Nat.add_lt_add_left ih _
      _ = 256 ^ (bs.length + 1) := by ring

/-- A field does not show what is beyond its width. -/
theorem beBytes_add_mul (w k n : Nat) : beBytes w (k * 256 ^ w + n) = beBytes w n := by
  induction w generalizing k with
  | zero => rfl
  | succ w ih =>
    have hpos : 0 < 256 ^ w := Nat.pow_pos (by decide)
    have hsplit : k * 256 ^ (w + 1) + n = k * 256 * 256 ^ w + n := by ring
    have hbyte : UInt8.ofNat (n / 256 ^ w + k * 256) = UInt8.ofNat (n / 256 ^ w) := by
      rw [← UInt8.toNat_inj, UInt8.toNat_ofNat', UInt8.toNat_ofNat', Nat.add_mul_mod_self_right]
    rw [beBytes, beBytes, hsplit, ih, Nat.add_comm, Nat.add_mul_div_right _ _ hpos, hbyte]

/-- A byte string is the field of the number it spells. -/
theorem beBytes_beNat (bs : Bytes) : beBytes bs.length (beNat bs) = bs := by
  induction bs with
  | nil => rfl
  | cons b bs ih =>
    have hpos : 0 < 256 ^ bs.length := Nat.pow_pos (by decide)
    have hhead : (b.toNat * 256 ^ bs.length + beNat bs) / 256 ^ bs.length = b.toNat := by
      rw [Nat.add_comm, Nat.add_mul_div_right _ _ hpos, Nat.div_eq_of_lt (beNat_lt bs),
        Nat.zero_add]
    rw [List.length_cons, beBytes, beNat, hhead, beBytes_add_mul, ih, UInt8.ofNat_toNat]

/-! ### Reading exactly n bytes -/

/-- Split off the first `n` bytes; `none` when fewer remain. -/
def takeExact (n : Nat) (bs : Bytes) : Option (Bytes × Bytes) :=
  if n ≤ bs.length then some (bs.take n, bs.drop n) else none

theorem takeExact_append {n : Nat} {xs : Bytes} (ys : Bytes) (h : xs.length = n) :
    takeExact n (xs ++ ys) = some (xs, ys) := by
  subst h
  simp [takeExact]

theorem takeExact_beBytes (w n : Nat) (ys : Bytes) :
    takeExact w (beBytes w n ++ ys) = some (beBytes w n, ys) :=
  takeExact_append ys (length_beBytes w n)

theorem takeExact_one_cons (b : UInt8) (bs : Bytes) : takeExact 1 (b :: bs) = some ([b], bs) :=
  @takeExact_append 1 [b] bs rfl

@[simp] theorem takeExact_zero (bs : Bytes) : takeExact 0 bs = some ([], bs) := by
  simp [takeExact]

/-- What `takeExact` returns is the prefix of that length and the rest. -/
theorem takeExact_eq_some {n : Nat} {bs xs ys : Bytes} (h : takeExact n bs = some (xs, ys)) :
    bs = xs ++ ys ∧ xs.length = n := by
  unfold takeExact at h
  split at h
  · rename_i hle
    obtain ⟨rfl, rfl⟩ := Prod.mk.inj (Option.some.inj h)
    exact ⟨(List.take_append_drop n bs).symm, by simp [hle]⟩
  · exact absurd h (by simp)

end StreamInfa
