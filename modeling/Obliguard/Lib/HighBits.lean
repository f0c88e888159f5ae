import Mathlib.Data.Nat.Bitwise
import Mathlib.Data.Nat.ModEq
import Mathlib.Tactic.Ring

/-!
# Agreement of the high bits of two numbers

`SameHigh k a b` says that `a` and `b` differ at most in their `k` lowest bits. It is what address
masks compare, and it is laminar: numbers that agree above `k` bits agree above more. `highMask`
is the usual mask of a `w`-bit word, and `and_highMask` clears the low bits with it.
-/

namespace Obliguard.HighBits

/-- `a` and `b` agree above their `k` lowest bits. -/
def SameHigh (k a b : Nat) : Prop := a / 2 ^ k = b / 2 ^ k

instance (k a b : Nat) : Decidable (SameHigh k a b) := inferInstanceAs (Decidable (_ = _))

theorem SameHigh.refl (k a : Nat) : SameHigh k a a := rfl

theorem SameHigh.symm {k a b : Nat} (h : SameHigh k a b) : SameHigh k b a := Eq.symm h

theorem SameHigh.trans {k a b c : Nat} (h1 : SameHigh k a b) (h2 : SameHigh k b c) :
    SameHigh k a c := Eq.trans h1 h2

theorem SameHigh.mono {k m a b : Nat} (hkm : k ≤ m) (h : SameHigh k a b) : SameHigh m a b := by
  obtain ⟨j, rfl⟩ := Nat.exists_eq_add_of_le hkm
  rw [SameHigh, pow_add, ← Nat.div_div_eq_div_mul, ← Nat.div_div_eq_div_mul, h]

theorem SameHigh.eq {k a b : Nat} (h : SameHigh k a b) (ha : 2 ^ k ∣ a) (hb : 2 ^ k ∣ b) :
    a = b := by
  obtain ⟨i, rfl⟩ := ha
  obtain ⟨j, rfl⟩ := hb
  have hpos := Nat.two_pow_pos k
  rw [SameHigh, Nat.mul_div_cancel_left _ hpos, Nat.mul_div_cancel_left _ hpos] at h
  rw [h]

/-- Clearing the low bits. -/
def clearLow (k a : Nat) : Nat := a / 2 ^ k * 2 ^ k

theorem clearLow_dvd (k a : Nat) : 2 ^ k ∣ clearLow k a := Nat.dvd_mul_left _ _

theorem clearLow_le (k a : Nat) : clearLow k a ≤ a := Nat.div_mul_le_self a (2 ^ k)

theorem clearLow_sameHigh (k a : Nat) : SameHigh k (clearLow k a) a := by
  rw [SameHigh, clearLow, Nat.mul_div_cancel _ (Nat.two_pow_pos k)]

theorem clearLow_of_dvd {k a : Nat} (h : 2 ^ k ∣ a) : clearLow k a = a := Nat.div_mul_cancel h

theorem clearLow_eq_iff {k a b : Nat} : clearLow k a = clearLow k b ↔ SameHigh k a b := by
  constructor
  · intro h
    exact Nat.eq_of_mul_eq_mul_right (Nat.two_pow_pos k) h
  · intro h
    rw [clearLow, clearLow, h]

theorem clearLow_add {k c : Nat} (hc : 2 ^ k ∣ c) (a : Nat) : clearLow k (c + a) = c + clearLow k a := by
  rw [clearLow, clearLow, Nat.add_div_of_dvd_right hc, Nat.add_mul, Nat.div_mul_cancel hc]

theorem sameHigh_add {k c : Nat} (hc : 2 ^ k ∣ c) {a b : Nat} :
    SameHigh k (c + a) (c + b) ↔ SameHigh k a b := by
  rw [SameHigh, SameHigh, Nat.add_div_of_dvd_right hc, Nat.add_div_of_dvd_right hc]
  omega

@[simp] theorem clearLow_zero (a : Nat) : clearLow 0 a = a := by simp [clearLow]

/-- The mask of a `w`-bit word that keeps the bits above the `k` lowest ones. -/
def highMask (w k : Nat) : Nat := ((2 ^ w - 1) >>> k) <<< k

theorem and_highMask {w k a : Nat} (ha : a < 2 ^ w) : a &&& highMask w k = clearLow k a := by
  apply Nat.eq_of_testBit_eq
  intro i
  rw [clearLow, ← Nat.shiftLeft_eq, ← Nat.shiftRight_eq_div_pow]
  simp only [highMask, Nat.testBit_and, Nat.testBit_shiftLeft, Nat.testBit_shiftRight,
    Nat.testBit_two_pow_sub_one]
  by_cases hik : k ≤ i
  · by_cases hiw : i < w
    · simp [hik, hiw]
    · have hbit : a.testBit i = false :=
        Nat.testBit_lt_two_pow (lt_of_lt_of_le ha (Nat.pow_le_pow_right (by omega) (by omega)))
      simp [hik, hiw, hbit]
  · simp [hik]

theorem and_zero_eq_clearLow {w a : Nat} (ha : a < 2 ^ w) : a &&& 0 = clearLow w a := by
  rw [Nat.and_zero, clearLow, Nat.div_eq_of_lt ha, Nat.zero_mul]

end Obliguard.HighBits
