import Mathlib.Data.Int.Basic
import Mathlib.Tactic.Ring

/-!
32-bit arithmetic with overflow checks.

An operation is `none` where the machine word cannot hold the exact result, which is where a
build with overflow checks panics. Where it is not, it is the wrapping operation
(`checkedAdd_of_lt` and its siblings), and its result is the exact one
(`checkedAdd_eq_some` and its siblings).
-/

namespace StreamInfa

/-- The integer fits a signed word. -/
def InI32 (z : ℤ) : Prop := -2 ^ 31 ≤ z ∧ z < 2 ^ 31

instance (z : ℤ) : Decidable (InI32 z) := inferInstanceAs (Decidable (_ ∧ _))

def checkedAdd (a b : UInt32) : Option UInt32 :=
  if a.toNat + b.toNat < 2 ^ 32 then some (a + b) else none

def checkedSub (a b : UInt32) : Option UInt32 :=
  if b.toNat ≤ a.toNat then some (a - b) else none

def checkedMul (a b : UInt32) : Option UInt32 :=
  if a.toNat * b.toNat < 2 ^ 32 then some (a * b) else none

def checkedAddI (a b : Int32) : Option Int32 :=
  if InI32 (a.toInt + b.toInt) then some (a + b) else none

def checkedNegI (a : Int32) : Option Int32 := if InI32 (-a.toInt) then some (-a) else none

section Unsigned

variable {a b c : UInt32}

theorem checkedAdd_of_lt (h : a.toNat + b.toNat < 2 ^ 32) : checkedAdd a b = some (a + b) :=
  if_pos h

theorem checkedSub_of_le (h : b.toNat ≤ a.toNat) : checkedSub a b = some (a - b) := if_pos h

theorem checkedMul_of_lt (h : a.toNat * b.toNat < 2 ^ 32) : checkedMul a b = some (a * b) :=
  if_pos h

theorem toNat_add_of_lt (h : a.toNat + b.toNat < 2 ^ 32) :
    (a + b).toNat = a.toNat + b.toNat := by
  rw [UInt32.toNat_add, Nat.mod_eq_of_lt h]

theorem toNat_sub_of_le (h : b.toNat ≤ a.toNat) : (a - b).toNat = a.toNat - b.toNat :=
  UInt32.toNat_sub_of_le a b (UInt32.le_iff_toNat_le.mpr h)

theorem toNat_mul_of_lt (h : a.toNat * b.toNat < 2 ^ 32) :
    (a * b).toNat = a.toNat * b.toNat := by
  rw [UInt32.toNat_mul, Nat.mod_eq_of_lt h]

/-- A checked sum is the exact one. -/
theorem checkedAdd_eq_some (h : checkedAdd a b = some c) : c.toNat = a.toNat + b.toNat := by
  unfold checkedAdd at h
  split at h
  · rename_i hlt
    obtain rfl := Option.some.inj h
    exact toNat_add_of_lt hlt
  · cases h

theorem checkedSub_eq_some (h : checkedSub a b = some c) : c.toNat + b.toNat = a.toNat := by
  unfold checkedSub at h
  split at h
  · rename_i hle
    obtain rfl := Option.some.inj h
    rw [toNat_sub_of_le hle, Nat.sub_add_cancel hle]
  · cases h

theorem checkedMul_eq_some (h : checkedMul a b = some c) : c.toNat = a.toNat * b.toNat := by
  unfold checkedMul at h
  split at h
  · rename_i hlt
    obtain rfl := Option.some.inj h
    exact toNat_mul_of_lt hlt
  · cases h

end Unsigned

section Signed

variable {a b : Int32}

theorem bmod_of_inI32 {z : ℤ} (h : InI32 z) : z.bmod (2 ^ 32) = z := by
  obtain ⟨hlow, hhigh⟩ := h
  exact Int.bmod_eq_of_le_mul_two (by push_cast; omega) (by push_cast; omega)

theorem toInt_neg_of_inI32 (h : InI32 (-a.toInt)) : (-a).toInt = -a.toInt := by
  rw [Int32.toInt_neg, bmod_of_inI32 h]

theorem toInt_eq_zero_iff : a.toInt = 0 ↔ a = 0 := by
  rw [← Int32.toInt_inj]
  rfl

/-- An unsigned word below the sign bit keeps its value. -/
theorem toInt_toInt32 {w : UInt32} (h : w.toNat < 2 ^ 31) : w.toInt32.toInt = w.toNat := by
  rw [← Int32.toInt_toBitVec]
  exact BitVec.toInt_eq_toNat_of_lt (by simpa using by omega)

theorem toInt_add_of_inI32 (h : InI32 (a.toInt + b.toInt)) :
    (a + b).toInt = a.toInt + b.toInt := by
  rw [Int32.toInt_add, bmod_of_inI32 h]

theorem checkedAddI_of_inI32 (h : InI32 (a.toInt + b.toInt)) : checkedAddI a b = some (a + b) :=
  if_pos h

theorem checkedAddI_eq_none (h : ¬ InI32 (a.toInt + b.toInt)) : checkedAddI a b = none := if_neg h

theorem checkedNegI_of_inI32 (h : InI32 (-a.toInt)) : checkedNegI a = some (-a) := if_pos h

end Signed

end StreamInfa
