import Mathlib.Data.UInt
import Mathlib.Tactic.Ring

/-! Shifts and masks of 32-bit words as arithmetic on their values: a mask of low bits is a
remainder, a right shift a quotient, and a disjunction with free low bits a sum. -/

namespace LibCxxExt.ProofKit

theorem toNat_and_low (a mask : UInt32) (k : Nat) (low : mask.toNat = 2 ^ k - 1) :
    (a &&& mask).toNat = a.toNat % 2 ^ k := by
  rw [UInt32.toNat_and, low, Nat.and_two_pow_sub_one_eq_mod]

theorem toNat_shiftRight_const (a k : UInt32) (small : k.toNat < 32) :
    (a >>> k).toNat = a.toNat / 2 ^ k.toNat := by
  rw [UInt32.toNat_shiftRight, Nat.mod_eq_of_lt small, Nat.shiftRight_eq_div_pow]

theorem toNat_shiftLeft_const (a k : UInt32) (small : k.toNat < 32)
    (fits : a.toNat * 2 ^ k.toNat < 2 ^ 32) :
    (a <<< k).toNat = a.toNat * 2 ^ k.toNat := by
  rw [UInt32.toNat_shiftLeft, Nat.mod_eq_of_lt small, Nat.shiftLeft_eq, Nat.mod_eq_of_lt fits]

theorem toNat_add_of_small (a b : UInt32) (fits : a.toNat + b.toNat < 2 ^ 32) :
    (a + b).toNat = a.toNat + b.toNat := by
  rw [UInt32.toNat_add, Nat.mod_eq_of_lt fits]

/-- A disjunction adds when the left word leaves the low `k` bits free. -/
theorem toNat_or_disjoint (a b : UInt32) (k : Nat) (high : 2 ^ k ∣ a.toNat)
    (low : b.toNat < 2 ^ k) : (a ||| b).toNat = a.toNat + b.toNat := by
  obtain ⟨q, hq⟩ := high
  rw [UInt32.toNat_or, hq, Nat.two_pow_add_eq_or_of_lt low]

/-- Shifting in the low six bits of a byte multiplies by 64 and adds them. -/
theorem toNat_shift_in (acc next : UInt32) (room : acc.toNat < 2 ^ 26) :
    ((acc <<< 6) ||| (next &&& 0x3F)).toNat = acc.toNat * 64 + next.toNat % 64 := by
  have shifted : (acc <<< 6).toNat = acc.toNat * 2 ^ 6 :=
    toNat_shiftLeft_const acc 6 (by decide) (by simp; omega)
  have masked : (next &&& 0x3F).toNat = next.toNat % 2 ^ 6 := toNat_and_low next 0x3F 6 rfl
  rw [toNat_or_disjoint _ _ 6 (shifted ▸ Dvd.intro_left _ rfl) (by rw [masked]; omega), shifted,
    masked]
  rfl

end LibCxxExt.ProofKit
