import Mathlib.Algebra.Order.Field.Rat
import Mathlib.Data.Nat.Dist
import Mathlib.Data.Nat.Size
import Mathlib.Data.Rat.Floor
import Mathlib.Tactic.Linarith
import Mathlib.Tactic.Ring

/-! Binary floating-point formats with a significand of any size. Finite values are rationals, and
integers are converted by rounding to nearest, ties to even. -/

namespace LibCxxExt.ProofKit

/-- The multiplier of the multiple of `unit` that is nearest to `n`, the even one of two. -/
def nearestEven (n unit : Nat) : Nat :=
  if unit < 2 * (n % unit) ∨ 2 * (n % unit) = unit ∧ n / unit % 2 = 1 then n / unit + 1
  else n / unit

/-- `n` rounded to a significand of `digits` bits, with no bound on the exponent. -/
def roundNat (digits n : Nat) : Nat :=
  let unit := 2 ^ (n.size - digits)
  nearestEven n unit * unit

def roundInt (digits : Nat) (z : Int) : Int :=
  if z < 0 then -(roundNat digits z.natAbs : Int) else roundNat digits z.natAbs

/-- A format with `digits` significand bits whose normal numbers start at `2 ^ emin` and end below
`2 ^ (emax + 1)`, 1 among them. -/
structure BinaryFormat where
  digits : Nat
  emin : Int
  emax : Nat
  digits_pos : 0 < digits
  emin_le : emin ≤ 0

namespace BinaryFormat

/-- `x` has a significand that fits and is a multiple of the least subnormal number. -/
def Representable (f : BinaryFormat) (x : ℚ) : Prop :=
  |x| < 2 ^ (f.emax + 1) ∧
    ∃ m e : Int, |m| < 2 ^ f.digits ∧ f.emin - f.digits + 1 ≤ e ∧ x = m * 2 ^ e

structure Finite (f : BinaryFormat) where
  value : ℚ
  representable : f.Representable value

inductive Value (f : BinaryFormat) where
  | nan
  | infinite (negative : Bool)
  | finite (x : f.Finite)

variable {f : BinaryFormat}

def Value.isNan : f.Value → Bool
  | nan => true
  | _ => false

/-- The operator `<=`. -/
def Value.le : f.Value → f.Value → Bool
  | nan, _ | _, nan => false
  | infinite true, _ | _, infinite false => true
  | infinite false, _ | _, infinite true => false
  | finite x, finite y => x.value ≤ y.value

end BinaryFormat

/-! ### Rounding to nearest, ties to even -/

theorem mul_le_or_le (n m unit : Nat) :
    m * unit ≤ n / unit * unit ∨ n / unit * unit + unit ≤ m * unit := by
  rcases Nat.lt_or_ge (n / unit) m with above | below
  · right
    rw [← Nat.succ_mul]
    exact Nat.mul_le_mul_right unit above
  · exact .inl (Nat.mul_le_mul_right unit below)

theorem nearestEven_nearest {unit : Nat} (pos : 0 < unit) (n m : Nat) :
    n.dist (nearestEven n unit * unit) ≤ n.dist (m * unit) := by
  have parts := Nat.div_add_mod' n unit
  have small := Nat.mod_lt n pos
  have side := mul_le_or_le n m unit
  rw [nearestEven, Nat.dist, Nat.dist]
  split_ifs with up
  · rw [Nat.succ_mul]
    omega
  · omega

/-- Of two multiples that are equally near, the even one is taken. -/
theorem nearestEven_even {unit : Nat} (pos : 0 < unit) {n m : Nat}
    (tie : n.dist (nearestEven n unit * unit) = n.dist (m * unit))
    (other : m ≠ nearestEven n unit) : nearestEven n unit % 2 = 0 := by
  have parts := Nat.div_add_mod' n unit
  have small := Nat.mod_lt n pos
  rw [nearestEven] at tie other ⊢
  rw [Nat.dist, Nat.dist] at tie
  split_ifs at tie other ⊢ with up
  · rw [Nat.succ_mul] at tie
    rcases Nat.lt_or_ge m (n / unit + 1) with below | above
    · have := Nat.mul_le_mul_right unit (Nat.le_of_lt_succ below)
      omega
    · have := Nat.mul_le_mul_right unit (show n / unit + 2 ≤ m by omega)
      rw [Nat.add_mul] at this
      omega
  · rcases Nat.lt_or_ge m (n / unit) with below | above
    · have := Nat.mul_le_mul_right unit (Nat.succ_le_of_lt below)
      rw [Nat.succ_mul] at this
      omega
    · have := Nat.mul_le_mul_right unit (show n / unit + 1 ≤ m by omega)
      rw [Nat.succ_mul] at this
      omega

/-- `n` is a significand of `digits` bits with an exponent. -/
def HasDigits (digits n : Nat) : Prop := ∃ m k, m < 2 ^ digits ∧ n = m * 2 ^ k

theorem hasDigits_two_pow {digits : Nat} (pos : 0 < digits) (k : Nat) : HasDigits digits (2 ^ k) :=
  ⟨1, k, Nat.one_lt_two_pow pos.ne', (Nat.one_mul _).symm⟩

theorem hasDigits_of_lt {digits n : Nat} (small : n < 2 ^ digits) : HasDigits digits n :=
  ⟨n, 0, small, (Nat.mul_one n).symm⟩

theorem nearestEven_le (n unit : Nat) : nearestEven n unit ≤ n / unit + 1 := by
  rw [nearestEven]
  split_ifs <;> omega

theorem roundNat_hasDigits {digits : Nat} (pos : 0 < digits) (n : Nat) :
    HasDigits digits (roundNat digits n) := by
  have quotient : n / 2 ^ (n.size - digits) < 2 ^ digits := by
    rw [Nat.div_lt_iff_lt_mul (Nat.two_pow_pos _), ← Nat.pow_add]
    exact Nat.size_le.mp (by omega)
  have le := nearestEven_le n (2 ^ (n.size - digits))
  rw [roundNat]
  rcases Nat.lt_or_ge (nearestEven n (2 ^ (n.size - digits))) (2 ^ digits) with fits | carry
  · exact ⟨_, _, fits, rfl⟩
  · have full : nearestEven n (2 ^ (n.size - digits)) = 2 ^ digits := by omega
    rw [full, ← Nat.pow_add]
    exact hasDigits_two_pow pos _

/-- No number with such a significand is nearer. -/
theorem roundNat_nearest {digits : Nat} (pos : 0 < digits) (n : Nat) {r : Nat}
    (fits : HasDigits digits r) : n.dist (roundNat digits n) ≤ n.dist r := by
  obtain ⟨m, k, small, rfl⟩ := fits
  have nearest := nearestEven_nearest (Nat.two_pow_pos (n.size - digits)) n
  rw [roundNat]
  rcases Nat.lt_or_ge k (n.size - digits) with fine | coarse
  · -- `m * 2 ^ k` lies below the binade of `n`, which starts at a multiple of the unit
    have start := nearest (2 ^ (digits - 1))
    rw [← Nat.pow_add, show digits - 1 + (n.size - digits) = n.size - 1 by omega] at start
    have low : 2 ^ (n.size - 1) ≤ n := Nat.lt_size.mp (by omega)
    have below : m * 2 ^ k ≤ 2 ^ (n.size - 1) := calc
      m * 2 ^ k ≤ 2 ^ digits * 2 ^ k := Nat.mul_le_mul_right _ small.le
      _ = 2 ^ (digits + k) := (Nat.pow_add 2 digits k).symm
      _ ≤ 2 ^ (n.size - 1) := Nat.pow_le_pow_right Nat.two_pos (by omega)
    rw [Nat.dist, Nat.dist] at start ⊢
    omega
  · have whole := nearest (m * 2 ^ (k - (n.size - digits)))
    rwa [Nat.mul_assoc, ← Nat.pow_add, Nat.sub_add_cancel coarse] at whole

theorem roundNat_of_hasDigits {digits n : Nat} (pos : 0 < digits) (fits : HasDigits digits n) :
    roundNat digits n = n := by
  have nearest := roundNat_nearest pos n fits
  rw [Nat.dist_self] at nearest
  exact (Nat.eq_of_dist_eq_zero (Nat.le_zero.mp nearest)).symm

theorem size_two_pow_sub_one {width : Nat} (pos : 0 < width) : (2 ^ width - 1).size = width := by
  have twice := Nat.two_pow_pred_add_two_pow_pred pos
  have half := Nat.two_pow_pos (width - 1)
  have high : (2 ^ width - 1).size ≤ width := Nat.size_le.mpr (by omega)
  have low : width - 1 < (2 ^ width - 1).size := Nat.lt_size.mpr (by omega)
  omega

/-- The largest number of `width` bits is rounded up when the significand is shorter. -/
theorem roundNat_two_pow_sub_one {digits width : Nat} (pos : 0 < digits) (short : digits < width) :
    roundNat digits (2 ^ width - 1) = 2 ^ width := by
  have whole : 2 ^ digits * 2 ^ (width - digits) = 2 ^ width := by
    rw [← Nat.pow_add, Nat.add_sub_cancel' short.le]
  have unit_even : 2 ^ (width - digits) % 2 = 0 :=
    Nat.mod_eq_zero_of_dvd (dvd_pow_self 2 (by omega))
  have digits_even : 2 ^ digits % 2 = 0 := Nat.mod_eq_zero_of_dvd (dvd_pow_self 2 pos.ne')
  have unit_pos := Nat.two_pow_pos (width - digits)
  have nearest := nearestEven_nearest unit_pos (2 ^ width - 1) (2 ^ digits)
  have even := nearestEven_even unit_pos (n := 2 ^ width - 1) (m := 2 ^ digits)
  rw [roundNat, size_two_pow_sub_one (by omega)]
  generalize nearestEven (2 ^ width - 1) (2 ^ (width - digits)) = multiplier at nearest even ⊢
  rw [whole, Nat.dist, Nat.dist] at nearest even
  by_contra differs
  have other : 2 ^ digits ≠ multiplier := by
    rintro rfl
    exact differs whole
  have below : multiplier * 2 ^ (width - digits) + 2 ^ (width - digits) ≤ 2 ^ width := by
    rw [← whole, ← Nat.succ_mul]
    refine Nat.mul_le_mul_right _ (Nat.succ_le_of_lt ?_)
    refine lt_of_le_of_ne (Nat.le_of_mul_le_mul_right ?_ unit_pos) other.symm
    omega
  -- the unit is 2, so both neighbours are at distance 1 and the lower one is odd
  have two : 2 ^ (width - digits) = 2 := by omega
  rw [two] at whole nearest even below
  have := even (by omega) other
  omega

/-! ### Conversion of integers -/

theorem natAbs_roundInt (digits : Nat) (z : Int) :
    (roundInt digits z).natAbs = roundNat digits z.natAbs := by
  rw [roundInt]
  split_ifs <;> simp

theorem roundInt_natCast (digits n : Nat) : roundInt digits n = roundNat digits n := by
  rw [roundInt, if_neg (by omega), Int.natAbs_natCast]

theorem roundInt_of_hasDigits {digits : Nat} {z : Int} (pos : 0 < digits)
    (fits : HasDigits digits z.natAbs) : roundInt digits z = z := by
  rw [roundInt, roundNat_of_hasDigits pos fits]
  split_ifs <;> omega

namespace BinaryFormat

variable {f : BinaryFormat}

theorem Representable.neg {x : ℚ} (representable : f.Representable x) : f.Representable (-x) := by
  obtain ⟨small, m, e, fits, low, rfl⟩ := representable
  exact ⟨by rwa [abs_neg], -m, e, by rwa [abs_neg], low, by push_cast; ring⟩

theorem representable_natCast {n : Nat} (small : n < 2 ^ (f.emax + 1))
    (fits : HasDigits f.digits n) : f.Representable n := by
  obtain ⟨m, k, below, rfl⟩ := fits
  refine ⟨?_, m, k, ?_, ?_, ?_⟩
  · rw [Nat.abs_cast]
    exact_mod_cast small
  · rw [Nat.abs_cast]
    exact_mod_cast below
  · have := f.digits_pos
    have := f.emin_le
    omega
  · push_cast
    rw [zpow_natCast]

theorem representable_roundInt {z : Int} (small : |roundInt f.digits z| < 2 ^ (f.emax + 1)) :
    f.Representable (roundInt f.digits z) := by
  rw [Int.abs_eq_natAbs, natAbs_roundInt] at small
  have magnitude := representable_natCast (f := f) (by exact_mod_cast small)
    (roundNat_hasDigits f.digits_pos z.natAbs)
  rw [roundInt]
  split_ifs
  · rw [Int.cast_neg]
    exact magnitude.neg
  · exact magnitude

/-- The conversion of an integer: rounding to nearest, ties to even, with overflow to infinity. -/
def ofInt (f : BinaryFormat) (z : Int) : f.Value :=
  if small : |roundInt f.digits z| < 2 ^ (f.emax + 1) then
    .finite ⟨roundInt f.digits z, representable_roundInt small⟩
  else .infinite (z < 0)

theorem roundInt_overflow {z : Int} (large : ¬ |roundInt f.digits z| < 2 ^ (f.emax + 1)) :
    if z < 0 then (roundInt f.digits z : ℚ) ≤ -2 ^ (f.emax + 1)
    else 2 ^ (f.emax + 1) ≤ (roundInt f.digits z : ℚ) := by
  rw [Int.abs_eq_natAbs, natAbs_roundInt, not_lt] at large
  split_ifs with negative
  · rw [roundInt, if_pos negative]
    exact_mod_cast neg_le_neg large
  · rw [roundInt, if_neg negative]
    exact_mod_cast large

/-- An overflow does not change what a comparison with a finite value says. -/
theorem finite_le_ofInt (x : f.Finite) (z : Int) :
    (Value.finite x).le (f.ofInt z) = true ↔ x.value ≤ roundInt f.digits z := by
  have ⟨low, high⟩ := abs_lt.mp x.representable.1
  rw [ofInt]
  split_ifs with small
  · simp [Value.le]
  · have overflow := roundInt_overflow small
    by_cases negative : z < 0
    · rw [if_pos negative] at overflow
      simpa [negative, Value.le] using overflow.trans_lt low
    · rw [if_neg negative] at overflow
      simpa [negative, Value.le] using high.le.trans overflow

theorem ofInt_le_finite (x : f.Finite) (z : Int) :
    (f.ofInt z).le (Value.finite x) = true ↔ roundInt f.digits z ≤ x.value := by
  have ⟨low, high⟩ := abs_lt.mp x.representable.1
  rw [ofInt]
  split_ifs with small
  · simp [Value.le]
  · have overflow := roundInt_overflow small
    by_cases negative : z < 0
    · rw [if_pos negative] at overflow
      simpa [negative, Value.le] using overflow.trans low.le
    · rw [if_neg negative] at overflow
      simpa [negative, Value.le] using high.trans_le overflow

end BinaryFormat

/-! ### Truncation -/

/-- `x` rounded toward zero. -/
def truncate (x : ℚ) : Int := if 0 ≤ x then ⌊x⌋ else ⌈x⌉

theorem le_truncate_iff {x : ℚ} {low : Int} (nonpos : low ≤ 0) :
    low ≤ truncate x ↔ (low : ℚ) - 1 < x := by
  rw [truncate]
  split_ifs with sign
  · rw [Int.le_floor]
    have : (low : ℚ) ≤ 0 := by exact_mod_cast nonpos
    constructor
    · intro _
      linarith
    · intro _
      exact this.trans sign
  · rw [← Int.sub_one_lt_iff, Int.lt_ceil]
    push_cast
    rfl

theorem truncate_le_iff {x : ℚ} {high : Int} (nonneg : 0 ≤ high) :
    truncate x ≤ high ↔ x < high + 1 := by
  rw [truncate]
  split_ifs with sign
  · rw [← Int.lt_add_one_iff, Int.floor_lt]
    push_cast
    rfl
  · rw [Int.ceil_le]
    have : (0 : ℚ) ≤ high := by exact_mod_cast nonneg
    constructor
    · intro _
      linarith
    · intro _
      exact (not_le.mp sign).le.trans this

theorem truncate_le {x : ℚ} {z : Int} (le : x ≤ z) : truncate x ≤ z := by
  rw [truncate]
  split_ifs
  · exact_mod_cast (Int.floor_le x).trans le
  · exact Int.ceil_le.mpr le

theorem le_truncate {x : ℚ} {z : Int} (le : (z : ℚ) ≤ x) : z ≤ truncate x := by
  rw [truncate]
  split_ifs
  · exact Int.le_floor.mpr le
  · exact_mod_cast le.trans (Int.le_ceil x)

end LibCxxExt.ProofKit
