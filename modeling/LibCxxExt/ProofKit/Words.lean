import LibCxxExt.ProofKit.CInteger
import Mathlib.Data.BitVec

/-! Built-in integers as machine words. A conversion to a type that is not wider, and a bitwise
operator in a type that is not narrower, do to the words what the operators of `BitVec` do. -/

namespace LibCxxExt.ProofKit

open IntTy

/-- The value that a word of the type stands for. -/
def IntTy.value (T : IntTy) (x : BitVec T.bits) : Int := if T.signed then x.toInt else x.toNat

theorem IntTy.value_signed {T : IntTy} (signed : T.signed = true) (x : BitVec T.bits) :
    T.value x = x.toInt :=
  if_pos signed

theorem IntTy.value_unsigned {T : IntTy} (signed : ¬ T.signed = true) (x : BitVec T.bits) :
    T.value x = x.toNat :=
  if_neg signed

theorem IntTy.value_injective {T : IntTy} {x y : BitVec T.bits} (same : T.value x = T.value y) :
    x = y := by
  unfold value at same
  split_ifs at same
  · exact BitVec.eq_of_toInt_eq same
  · exact BitVec.eq_of_toNat_eq (Int.ofNat.inj same)

theorem ofInt_congr {w : Nat} {v v' : Int} (same : v ≡ v' [ZMOD 2 ^ w]) :
    BitVec.ofInt w v = BitVec.ofInt w v' := by
  apply BitVec.eq_of_toNat_eq
  rw [BitVec.toNat_ofInt, BitVec.toNat_ofInt, Nat.cast_pow, Nat.cast_ofNat]
  exact congrArg Int.toNat same

theorem ofInt_sub (w : Nat) (v v' : Int) :
    BitVec.ofInt w (v - v') = BitVec.ofInt w v - BitVec.ofInt w v' :=
  (Int.castRingHom (BitVec w)).map_sub v v'

/-- A word that is not wider than the type is not changed by wrapping. -/
theorem ofInt_wrap {T : IntTy} {w : Nat} (wide : w ≤ T.bits) (v : Int) :
    BitVec.ofInt w (T.wrap v) = BitVec.ofInt w v :=
  ofInt_congr ((T.wrap_modEq v).of_dvd (pow_dvd_pow 2 wide))

theorem value_ofInt {T : IntTy} {v : Int} (inside : T.InRange v) :
    T.value (BitVec.ofInt T.bits v) = v := by
  have := T.eight_le_bits
  obtain ⟨low, high⟩ := inside
  by_cases signed : T.signed = true
  · rw [value_signed signed]
    rw [lowest, if_pos signed] at low
    rw [highest, if_pos signed] at high
    exact BitVec.toInt_ofInt_eq_self (by omega) low (by omega)
  · rw [value_unsigned signed, BitVec.toNat_ofInt, Nat.cast_pow, Nat.cast_ofNat]
    rw [lowest, if_neg signed] at low
    rw [highest, if_neg signed] at high
    rw [Int.emod_eq_of_lt low (by omega), Int.toNat_of_nonneg low]

namespace CInt

variable {T U : IntTy}

@[simp] theorem value_rep (a : CInt T) : T.value a.rep = a.val := value_ofInt a.inRange

theorem rep_injective {a b : CInt T} (same : a.rep = b.rep) : a = b := by
  rw [CInt.ext_iff, ← value_rep a, same, value_rep]

theorem setWidth_ofInt {w n : Nat} (narrow : w ≤ n) (v : Int) :
    (BitVec.ofInt n v).setWidth w = BitVec.ofInt w v := by
  have nonneg : 0 ≤ v % (2 ^ n : Nat) := Int.emod_nonneg v (by have := Nat.two_pow_pos n; omega)
  have divides : ((2 ^ w : Nat) : Int) ∣ (2 ^ n : Nat) := by exact_mod_cast pow_dvd_pow 2 narrow
  apply BitVec.eq_of_toNat_eq
  rw [BitVec.toNat_setWidth, BitVec.toNat_ofInt, BitVec.toNat_ofInt,
    ← Int.emod_emod_of_dvd v divides, Int.toNat_emod nonneg (Int.natCast_nonneg _),
    Int.toNat_natCast]

theorem ofInt_ofRep {w : Nat} (wide : w ≤ T.bits) (x : BitVec T.bits) :
    BitVec.ofInt w (ofRep x).val = x.setWidth w := by
  rw [ofRep, ofInt_val, ofInt_wrap wide, BitVec.ofInt_natCast, BitVec.ofNat_toNat]

/-- The low bits of an operand after it was converted. -/
theorem setWidth_rep_cast {w : Nat} (wide : w ≤ U.bits) (a : CInt T) :
    (a.cast U).rep.setWidth w = BitVec.ofInt w a.val := by
  rw [rep, setWidth_ofInt wide, cast_val, ofInt_wrap wide]

section Bitwise

variable {w : Nat}

theorem ofInt_and (wide : w ≤ (T.common U).bits) (a : CInt T) (b : CInt U) :
    BitVec.ofInt w (a.and b).val = BitVec.ofInt w a.val &&& BitVec.ofInt w b.val := by
  rw [and, ofInt_ofRep wide, BitVec.setWidth_and, setWidth_rep_cast wide, setWidth_rep_cast wide]

theorem ofInt_or (wide : w ≤ (T.common U).bits) (a : CInt T) (b : CInt U) :
    BitVec.ofInt w (a.or b).val = BitVec.ofInt w a.val ||| BitVec.ofInt w b.val := by
  rw [or, ofInt_ofRep wide, BitVec.setWidth_or, setWidth_rep_cast wide, setWidth_rep_cast wide]

theorem ofInt_xor (wide : w ≤ (T.common U).bits) (a : CInt T) (b : CInt U) :
    BitVec.ofInt w (a.xor b).val = BitVec.ofInt w a.val ^^^ BitVec.ofInt w b.val := by
  rw [xor, ofInt_ofRep wide, BitVec.setWidth_xor, setWidth_rep_cast wide, setWidth_rep_cast wide]

theorem ofInt_compl (wide : w ≤ T.promoted.bits) (a : CInt T) :
    BitVec.ofInt w a.compl.val = ~~~ BitVec.ofInt w a.val := by
  rw [compl, ofInt_ofRep wide, BitVec.setWidth_not wide, setWidth_rep_cast wide]

end Bitwise

end CInt

end LibCxxExt.ProofKit
