import Mathlib.Data.Int.ModEq
import Mathlib.Tactic.Ring

/-! Built-in integers of the C family on a platform whose `int` has 32 bits. A typed value carries
its range, the operators apply the integer promotions and the usual arithmetic conversions to their
operands, and an operation without a defined result returns `none`. -/

namespace LibCxxExt.ProofKit

inductive Width
  | w8 | w16 | w32 | w64
deriving DecidableEq

@[simp] def Width.bits : Width → Nat
  | w8 => 8
  | w16 => 16
  | w32 => 32
  | w64 => 64

structure IntTy where
  width : Width
  signed : Bool
deriving DecidableEq

namespace IntTy

abbrev bits (T : IntTy) : Nat := T.width.bits

def modulus (T : IntTy) : Int := 2 ^ T.bits

def lowest (T : IntTy) : Int := if T.signed then -2 ^ (T.bits - 1) else 0

def highest (T : IntTy) : Int := if T.signed then 2 ^ (T.bits - 1) - 1 else 2 ^ T.bits - 1

def InRange (T : IntTy) (v : Int) : Prop := T.lowest ≤ v ∧ v ≤ T.highest

instance (T : IntTy) (v : Int) : Decidable (T.InRange v) :=
  inferInstanceAs (Decidable (_ ∧ _))

/-- The value of the type that agrees with `v` modulo the size of the type. -/
def wrap (T : IntTy) (v : Int) : Int := T.lowest + (v - T.lowest) % T.modulus

abbrev int : IntTy := ⟨.w32, true⟩

abbrev toSigned (T : IntTy) : IntTy := ⟨T.width, true⟩

abbrev toUnsigned (T : IntTy) : IntTy := ⟨T.width, false⟩

/-- The integer promotions: `int` holds every value of a narrower type. -/
def promoted (T : IntTy) : IntTy := if T.bits < int.bits then int else T

def common (T U : IntTy) : IntTy :=
  if T.promoted.bits < U.promoted.bits then U.promoted
  else if U.promoted.bits < T.promoted.bits then T.promoted
  else ⟨T.promoted.width, T.promoted.signed && U.promoted.signed⟩

theorem eight_le_bits (T : IntTy) : 8 ≤ T.bits := by
  rcases T with ⟨_ | _ | _ | _, _⟩ <;> simp [bits]

theorem modulus_pos (T : IntTy) : 0 < T.modulus :=
  Int.pow_pos (by decide)

theorem highest_eq (T : IntTy) : T.highest = T.lowest + T.modulus - 1 := by
  rcases T with ⟨_ | _ | _ | _, _ | _⟩ <;> rfl

theorem highest_eq_two_pow (T : IntTy) : ∃ m : Nat, T.highest = (2 ^ m : Nat) - 1 := by
  rcases T with ⟨_ | _ | _ | _, _ | _⟩
  exacts [⟨8, rfl⟩, ⟨7, rfl⟩, ⟨16, rfl⟩, ⟨15, rfl⟩, ⟨32, rfl⟩, ⟨31, rfl⟩, ⟨64, rfl⟩, ⟨63, rfl⟩]

theorem wrap_inRange (T : IntTy) (v : Int) : T.InRange (T.wrap v) := by
  have low := Int.emod_nonneg (v - T.lowest) T.modulus_pos.ne'
  have high := Int.emod_lt_of_pos (v - T.lowest) T.modulus_pos
  rw [InRange, highest_eq, wrap]
  omega

theorem wrap_of_inRange {T : IntTy} {v : Int} (h : T.InRange v) : T.wrap v = v := by
  rw [InRange, highest_eq] at h
  rw [wrap, Int.emod_eq_of_lt (by omega) (by omega)]
  omega

theorem wrap_modEq (T : IntTy) (v : Int) : T.wrap v ≡ v [ZMOD T.modulus] := by
  rw [wrap]
  calc T.lowest + (v - T.lowest) % T.modulus
      ≡ T.lowest + (v - T.lowest) [ZMOD T.modulus] := (Int.mod_modEq _ _).add_left _
    _ = v := by ring

theorem wrap_congr {T : IntTy} {v w : Int} (h : v ≡ w [ZMOD T.modulus]) :
    T.wrap v = T.wrap w := by
  rw [wrap, wrap, (h.sub_right T.lowest : _ % _ = _ % _)]

theorem modulus_dvd {T U : IntTy} (h : T.bits ≤ U.bits) : T.modulus ∣ U.modulus :=
  pow_dvd_pow 2 h

theorem wrap_wrap {T U : IntTy} (h : T.bits ≤ U.bits) (v : Int) :
    T.wrap (U.wrap v) = T.wrap v :=
  wrap_congr ((U.wrap_modEq v).of_dvd (modulus_dvd h))

theorem bits_le_promoted (T : IntTy) : T.bits ≤ T.promoted.bits := by
  rcases T with ⟨_ | _ | _ | _, _⟩ <;> decide +revert

theorem common_self (T : IntTy) : T.common T = T.promoted := by
  rcases T with ⟨_ | _ | _ | _, _ | _⟩ <;> rfl

theorem common_int (T : IntTy) : T.common int = T.promoted := by
  rcases T with ⟨_ | _ | _ | _, _ | _⟩ <;> rfl

theorem inRange_promoted {T : IntTy} {v : Int} (h : T.InRange v) : T.promoted.InRange v := by
  rcases T with ⟨_ | _ | _ | _, _ | _⟩ <;>
    simp [InRange, promoted, lowest, highest, bits] at h ⊢ <;> omega

theorem inRange_common {T : IntTy} {v : Int} (h : T.InRange v) : (T.common T).InRange v := by
  rw [common_self]
  exact inRange_promoted h

theorem inRange_amount (T : IntTy) {v : Int} (low : 0 ≤ v) (high : v < T.bits) : T.InRange v := by
  rcases T with ⟨_ | _ | _ | _, _ | _⟩ <;> simp [InRange, lowest, highest, bits] at high ⊢ <;> omega

theorem inRange_zero (T : IntTy) : T.InRange 0 :=
  T.inRange_amount (le_refl 0) (by have := T.eight_le_bits; omega)

theorem lowest_nonpos (T : IntTy) : T.lowest ≤ 0 := T.inRange_zero.1

theorem inRange_lowest (T : IntTy) : T.InRange T.lowest := by
  have := T.modulus_pos
  rw [InRange, highest_eq]
  omega

theorem inRange_highest (T : IntTy) : T.InRange T.highest := by
  have := T.modulus_pos
  rw [InRange, highest_eq]
  omega

/-- The value of the type that is closest to `v`. -/
def clamp (T : IntTy) (v : Int) : Int := max T.lowest (min v T.highest)

theorem clamp_of_inRange {T : IntTy} {v : Int} (h : T.InRange v) : T.clamp v = v := by
  rw [clamp, min_eq_left h.2, max_eq_right h.1]

theorem clamp_of_highest_le {T : IntTy} {v : Int} (above : T.highest ≤ v) :
    T.clamp v = T.highest := by
  rw [clamp, min_eq_right above, max_eq_right T.inRange_highest.1]

theorem clamp_of_le_lowest {T : IntTy} {v : Int} (below : v ≤ T.lowest) : T.clamp v = T.lowest := by
  rw [clamp, max_eq_left ((min_le_left _ _).trans below)]

theorem highest_lt_neg_lowest {T : IntTy} (signed : T.signed = true) :
    T.highest < -T.lowest := by
  rw [highest, lowest, if_pos signed, if_pos signed]
  omega

theorem toUnsigned_wrap (T : IntTy) (v : Int) : T.toUnsigned.wrap v = v % 2 ^ T.bits := by
  simp [wrap, lowest, modulus]

theorem inRange_neg {T : IntTy} {v : Int} (signed : T.signed = true) (h : T.InRange v)
    (fits : v ≠ T.lowest) : T.InRange (-v) := by
  rcases T with ⟨_ | _ | _ | _, _ | _⟩ <;> cases signed <;>
    simp [InRange, lowest, highest, bits] at h fits ⊢ <;> omega

theorem tdiv_lt_neg {v w : Int} (neg : v < 0) (other : w ≠ -1) : v.tdiv w < -v := by
  rcases lt_or_ge w 0 with below | above
  · have smaller : v.natAbs / w.natAbs < v.natAbs := Nat.div_lt_self (by omega) (by omega)
    have size : (v.tdiv w).natAbs = v.natAbs / w.natAbs := Int.natAbs_tdiv v w
    omega
  · have opposite := Int.tdiv_nonneg (Int.neg_nonneg.mpr neg.le) above
    rw [Int.neg_tdiv] at opposite
    omega

/-- The quotient of two values of a type is one, but for the lowest value and `-1`. -/
theorem inRange_tdiv {T : IntTy} {v w : Int} (hv : T.InRange v) (hw : T.InRange w)
    (fits : ¬ (v = T.lowest ∧ w = -1)) : T.InRange (v.tdiv w) := by
  have size := Int.natAbs_tdiv_le_natAbs v w
  have nonneg := Int.tdiv_nonneg (a := v) (b := w)
  have least : v < 0 → w ≠ -1 → v.tdiv w < -v := tdiv_lt_neg
  rcases T with ⟨_ | _ | _ | _, _ | _⟩ <;>
    simp [InRange, lowest, highest, bits] at hv hw fits ⊢ <;> omega

theorem inRange_tmod {T : IntTy} {v w : Int} (hv : T.InRange v) (hw : T.InRange w)
    (nonzero : w ≠ 0) : T.InRange (v.tmod w) := by
  have smaller : v.natAbs % w.natAbs < w.natAbs := Nat.mod_lt _ (by omega)
  have size : (v.tmod w).natAbs = v.natAbs % w.natAbs := Int.natAbs_tmod v w
  have nonneg := Int.tmod_nonneg (a := v) w
  rcases T with ⟨_ | _ | _ | _, _ | _⟩ <;>
    simp [InRange, lowest, highest, bits] at hv hw ⊢ <;> omega

end IntTy

/-- A value of a built-in integer type. -/
@[ext] structure CInt (T : IntTy) where
  val : Int
  inRange : T.InRange val
deriving DecidableEq

namespace CInt

open IntTy

variable {T U : IntTy}

/-- Conversion to `T`. -/
def ofInt (T : IntTy) (v : Int) : CInt T := ⟨T.wrap v, T.wrap_inRange v⟩

def cast (U : IntTy) (a : CInt T) : CInt U := ofInt U a.val

def ofBool (T : IntTy) (b : Bool) : CInt T := ofInt T b.toNat

/-- The result of an operation of type `T`: overflow wraps if `T` is unsigned and is undefined if it
is signed. -/
def arith (T : IntTy) (v : Int) : Option (CInt T) :=
  if T.signed then
    if h : T.InRange v then some ⟨v, h⟩ else none
  else
    some (ofInt T v)

def add (a : CInt T) (b : CInt U) : Option (CInt (T.common U)) :=
  arith _ ((a.cast (T.common U)).val + (b.cast (T.common U)).val)

def sub (a : CInt T) (b : CInt U) : Option (CInt (T.common U)) :=
  arith _ ((a.cast (T.common U)).val - (b.cast (T.common U)).val)

def mul (a : CInt T) (b : CInt U) : Option (CInt (T.common U)) :=
  arith _ ((a.cast (T.common U)).val * (b.cast (T.common U)).val)

def div (a : CInt T) (b : CInt U) : Option (CInt (T.common U)) :=
  if (b.cast (T.common U)).val = 0 then none
  else arith _ ((a.cast (T.common U)).val.tdiv (b.cast (T.common U)).val)

def mod (a : CInt T) (b : CInt U) : Option (CInt (T.common U)) := do
  let _ ← a.div b
  arith _ ((a.cast (T.common U)).val.tmod (b.cast (T.common U)).val)

def neg (a : CInt T) : Option (CInt T.promoted) :=
  arith _ (-(a.cast T.promoted).val)

/-- A left shift has to fit a signed type, as before C++20. -/
def shl (a : CInt T) (n : CInt U) : Option (CInt T.promoted) :=
  if 0 ≤ n.val ∧ n.val < T.promoted.bits then
    arith _ ((a.cast T.promoted).val * 2 ^ n.val.toNat)
  else none

def shr (a : CInt T) (n : CInt U) : Option (CInt T.promoted) :=
  if 0 ≤ n.val ∧ n.val < T.promoted.bits then
    arith _ ((a.cast T.promoted).val / 2 ^ n.val.toNat)
  else none

/-- The two's complement representation. -/
def rep (a : CInt T) : BitVec T.bits := BitVec.ofInt _ a.val

def ofRep (x : BitVec T.bits) : CInt T := ofInt T x.toNat

def compl (a : CInt T) : CInt T.promoted := ofRep (~~~(a.cast T.promoted).rep)

def and (a : CInt T) (b : CInt U) : CInt (T.common U) :=
  ofRep ((a.cast (T.common U)).rep &&& (b.cast (T.common U)).rep)

def or (a : CInt T) (b : CInt U) : CInt (T.common U) :=
  ofRep ((a.cast (T.common U)).rep ||| (b.cast (T.common U)).rep)

def xor (a : CInt T) (b : CInt U) : CInt (T.common U) :=
  ofRep ((a.cast (T.common U)).rep ^^^ (b.cast (T.common U)).rep)

def eq (a : CInt T) (b : CInt U) : Bool :=
  (a.cast (T.common U)).val = (b.cast (T.common U)).val

def lt (a : CInt T) (b : CInt U) : Bool :=
  (a.cast (T.common U)).val < (b.cast (T.common U)).val

def max (a b : CInt T) : CInt T := if a.lt b then b else a

def min (a b : CInt T) : CInt T := if b.lt a then b else a

@[simp] theorem ofInt_val (v : Int) : (ofInt T v).val = T.wrap v := rfl

@[simp] theorem cast_val (a : CInt T) : (a.cast U).val = U.wrap a.val := rfl

@[simp] theorem cast_promoted_val (a : CInt T) : T.promoted.wrap a.val = a.val :=
  wrap_of_inRange (inRange_promoted a.inRange)

@[simp] theorem cast_common_val (a : CInt T) : (T.common T).wrap a.val = a.val := by
  rw [common_self, cast_promoted_val]

/-- An operation is undefined exactly when its type is signed and does not hold the result. -/
theorem arith_isSome_iff (v : Int) :
    (arith T v).isSome ↔ (T.signed = true → T.InRange v) := by
  rw [arith]
  split_ifs <;> simp_all

theorem arith_val {v : Int} {x : CInt T} (h : arith T v = some x) : x.val = T.wrap v := by
  rw [arith] at h
  split_ifs at h with signed fits
  · rw [← Option.some.inj h, wrap_of_inRange fits]
  · rw [← Option.some.inj h, ofInt_val]

theorem arith_of_inRange {v : Int} (h : T.InRange v) : arith T v = some ⟨v, h⟩ := by
  rw [arith]
  split_ifs
  · rfl
  · rw [Option.some_inj, CInt.ext_iff, ofInt_val, wrap_of_inRange h]

/-- Computing in a type that is not narrower and converting back wraps. -/
theorem arith_cast {v : Int} {x : CInt T} (h : arith T v = some x) (wide : U.bits ≤ T.bits) :
    (x.cast U).val = U.wrap v := by
  rw [cast_val, arith_val h, wrap_wrap wide]

theorem div_eq {a b : CInt T} (nonzero : b.val ≠ 0) (fits : ¬ (a.val = T.lowest ∧ b.val = -1)) :
    ∃ q, a.div b = some q ∧ q.val = a.val.tdiv b.val := by
  have inside := inRange_common (inRange_tdiv a.inRange b.inRange fits)
  refine ⟨⟨_, inside⟩, ?_, rfl⟩
  simp only [div, cast_val, cast_common_val, if_neg nonzero, arith_of_inRange inside]

theorem mod_eq {a b : CInt T} (nonzero : b.val ≠ 0) (fits : ¬ (a.val = T.lowest ∧ b.val = -1)) :
    ∃ r, a.mod b = some r ∧ r.val = a.val.tmod b.val := by
  obtain ⟨quotient, defined, _⟩ := div_eq nonzero fits
  have inside := inRange_common (inRange_tmod a.inRange b.inRange nonzero)
  refine ⟨⟨_, inside⟩, ?_, rfl⟩
  simp only [mod, defined, Option.bind_eq_bind, Option.bind_some, cast_val, cast_common_val,
    arith_of_inRange inside]

theorem eq_iff (a b : CInt T) : a.eq b = true ↔ a = b := by
  simp [eq, CInt.ext_iff]

theorem lt_iff (a b : CInt T) : a.lt b = true ↔ a.val < b.val := by
  simp [lt]

theorem ofInt_zero : (ofInt T 0).val = 0 := wrap_of_inRange T.inRange_zero

theorem eq_zero_iff (a : CInt T) : a.eq (ofInt int 0) = true ↔ a.val = 0 := by
  have zero : T.promoted.wrap 0 = 0 := ofInt_zero
  simp only [eq, cast_val, common_int, cast_promoted_val, ofInt_zero, zero, decide_eq_true_eq]

theorem lt_zero_iff (a : CInt T) : a.lt (ofInt int 0) = true ↔ a.val < 0 := by
  have zero : T.promoted.wrap 0 = 0 := ofInt_zero
  simp only [lt, cast_val, common_int, cast_promoted_val, ofInt_zero, zero, decide_eq_true_eq]

theorem max_val (a b : CInt T) : (a.max b).val = Max.max a.val b.val := by
  rw [max]
  split_ifs with h
  · rw [max_eq_right (lt_iff a b |>.mp h).le]
  · rw [max_eq_left (not_lt.mp fun below => h ((lt_iff a b).mpr below))]

theorem min_val (a b : CInt T) : (a.min b).val = Min.min a.val b.val := by
  rw [min]
  split_ifs with h
  · rw [min_eq_right (lt_iff b a |>.mp h).le]
  · rw [min_eq_left (not_lt.mp fun below => h ((lt_iff b a).mpr below))]

theorem rep_toNat {a : CInt T} (nonneg : 0 ≤ a.val) : a.rep.toNat = a.val.toNat := by
  have fits : a.val < T.modulus := by
    have := a.inRange.2
    have := T.lowest_nonpos
    rw [highest_eq] at *
    omega
  rw [modulus] at fits
  rw [rep, BitVec.toNat_ofInt, Nat.cast_pow, Nat.cast_ofNat, Int.emod_eq_of_lt nonneg fits]

theorem rep_common_toNat {a : CInt T} (nonneg : 0 ≤ a.val) :
    (a.cast (T.common T)).rep.toNat = a.val.toNat := by
  rw [rep_toNat (by rwa [cast_val, cast_common_val]), cast_val, cast_common_val]

/-- On values that are not negative, `&` is the bitwise conjunction of natural numbers. -/
theorem and_val {a b : CInt T} (ha : 0 ≤ a.val) (hb : 0 ≤ b.val) :
    (a.and b).val = (a.val.toNat &&& b.val.toNat : Nat) := by
  have smaller : (a.val.toNat &&& b.val.toNat : Nat) ≤ a.val := by
    have : a.val.toNat &&& b.val.toNat ≤ a.val.toNat := Nat.and_le_left
    omega
  have fits : T.InRange (a.val.toNat &&& b.val.toNat : Nat) :=
    ⟨T.lowest_nonpos.trans (Int.natCast_nonneg _), smaller.trans a.inRange.2⟩
  rw [and, ofRep, ofInt_val, BitVec.toNat_and, rep_common_toNat ha, rep_common_toNat hb,
    wrap_of_inRange (inRange_common fits)]

/-- On values that are not negative, `|` is the bitwise disjunction of natural numbers. -/
theorem or_val {a b : CInt T} (ha : 0 ≤ a.val) (hb : 0 ≤ b.val) :
    (a.or b).val = (a.val.toNat ||| b.val.toNat : Nat) := by
  obtain ⟨m, top⟩ := T.highest_eq_two_pow
  have below (c : CInt T) : c.val.toNat < 2 ^ m := by
    have := c.inRange.2
    have := Nat.two_pow_pos m
    omega
  have fits : T.InRange (a.val.toNat ||| b.val.toNat : Nat) := by
    have := Nat.or_lt_two_pow (below a) (below b)
    exact ⟨T.lowest_nonpos.trans (Int.natCast_nonneg _), by omega⟩
  rw [or, ofRep, ofInt_val, BitVec.toNat_or, rep_common_toNat ha, rep_common_toNat hb,
    wrap_of_inRange (inRange_common fits)]

end CInt

end LibCxxExt.ProofKit
