import LibCxxExt.ProofKit.Smearing
import LibCxxExt.Sys.IntegerShifts

/-! `nr2i32` and `nr2i64` (`BitTwiddling.h`), which round up to a power of two by smearing bits on
the wrapping signed integers. -/

namespace LibCxxExt.Sys

open LibCxxExt.ProofKit

abbrev i32 : IntTy := ⟨.w32, true⟩

abbrev i64 : IntTy := ⟨.w64, true⟩

namespace Integer

variable {For : IntTy}

/-- A literal with a suffix such as `_i32`. One that `For` does not hold is not compiled. -/
def literal (lit : Nat) : Integer For := saturating ((CInt.ofInt ⟨.w64, false⟩ lit).cast For)

/-- `v |= v >> amount`. -/
def orShifted (v : Integer For) (amount : Nat) : Option (Integer For) := do
  return v.or (← v.shr (literal amount))

/-- The assignments `v |= v >> amount`, for each amount in turn. -/
def smeared (amounts : List Nat) (v : Integer For) : Option (Integer For) :=
  amounts.foldlM orShifted v

/-- The common body of `nr2i32` and `nr2i64`. -/
def nr2 (amounts : List Nat) (v : Integer For) : Option (Integer For) := do
  (← smeared amounts (← v.preDec)).preInc

end Integer

open Integer

def nr2i32 (v : Integer i32) : Option (Integer i32) := nr2 [1, 2, 4, 8, 16] v

def nr2i64 (v : Integer i64) : Option (Integer i64) := nr2 [1, 2, 4, 8, 16, 32] v

namespace Integer

variable {For : IntTy}

theorem literal_val {lit : Nat} (small : lit < For.bits) :
    (literal lit : Integer For).underlying.val = lit := by
  have fits : For.InRange lit := For.inRange_amount (Int.natCast_nonneg _) (by omega)
  have wide : IntTy.InRange ⟨.w64, false⟩ lit := by
    refine IntTy.inRange_amount _ (Int.natCast_nonneg _) ?_
    rcases For with ⟨_ | _ | _ | _, _⟩ <;> simp [IntTy.bits] at small ⊢ <;> omega
  have same : ((CInt.ofInt ⟨.w64, false⟩ (lit : Int)).cast For).val = lit := by
    rw [CInt.cast_val, CInt.ofInt_val, IntTy.wrap_of_inRange wide, IntTy.wrap_of_inRange fits]
  rw [literal, saturating_val (by rwa [same]), same]

theorem u_of_nonneg {a : Integer For} (nonneg : 0 ≤ a.underlying.val) :
    a.u.val = a.underlying.val := by
  have below : a.underlying.val < 2 ^ For.bits := by
    have := a.underlying.inRange.2
    rcases For with ⟨_ | _ | _ | _, _ | _⟩ <;> simp [IntTy.highest, IntTy.bits] at this ⊢ <;> omega
  rw [u_val, Int.emod_eq_of_lt nonneg below]

/-- A value that the signed type holds too is read with the same sign. -/
theorem underlying_of_u {a : Integer For} {n : Nat} (same : a.u.val = n)
    (small : n ≤ For.highest) : a.underlying.val = n := by
  let b : Integer For := ⟨⟨n, For.lowest_nonpos.trans (Int.natCast_nonneg _), small⟩⟩
  have equal : a = b := u_injective (same.trans (u_of_nonneg (a := b) (Int.natCast_nonneg _)).symm)
  rw [equal]

theorem or_u (a b : Integer For) : (a.or b).u.val = (a.u.val.toNat ||| b.u.val.toNat : Nat) := by
  rw [or, u_truncating, CInt.or_val a.u_inRange.1 b.u_inRange.1, Int.emod_eq_of_lt
    (Int.natCast_nonneg _)]
  have below (c : Integer For) : c.u.val.toNat < 2 ^ For.bits :=
    (Int.toNat_lt c.u_inRange.1).mpr (by rw [Nat.cast_pow]; exact c.u_inRange.2)
  have := Nat.or_lt_two_pow (below a) (below b)
  exact_mod_cast this

/-- `v |= v >> amount` on a value that is not negative stays in the range. -/
theorem orShifted_val {v : Integer For} (nonneg : 0 ≤ v.underlying.val) {amount : Nat}
    (small : amount < For.bits) : ∃ r, orShifted v amount = some r ∧
      r.underlying.val = (v.underlying.val.toNat ||| v.underlying.val.toNat >>> amount : Nat) := by
  obtain ⟨s, hs, s_val⟩ := shr_u v (literal amount)
  obtain ⟨n, hn⟩ := Int.eq_ofNat_of_zero_le nonneg
  have inside : (0 : Int) ≤ amount ∧ (amount : Int) < For.bits := by omega
  have moved : s.u.val = (n >>> amount : Nat) := by
    rw [s_val, literal_val small, rightShifted, if_pos inside, u_of_nonneg nonneg, hn,
      Int.toNat_natCast, Nat.shiftRight_eq_div_pow, Int.natCast_ediv, Nat.cast_pow]
    rfl
  refine ⟨v.or s, by simp [orShifted, hs], ?_⟩
  rw [hn, Int.toNat_natCast]
  refine underlying_of_u ?_ ?_
  · rw [or_u, moved, u_of_nonneg nonneg, hn, Int.toNat_natCast, Int.toNat_natCast]
  · obtain ⟨m, top⟩ := For.highest_eq_two_pow
    have below : n < 2 ^ m := by
      have := v.underlying.inRange.2
      omega
    have := Nat.or_lt_two_pow below ((Nat.shiftRight_le n amount).trans_lt below)
    omega

theorem smeared_val {v : Integer For} (nonneg : 0 ≤ v.underlying.val) {amounts : List Nat}
    (small : ∀ amount ∈ amounts, amount < For.bits) : ∃ r, smeared amounts v = some r ∧
      r.underlying.val = smear v.underlying.val.toNat amounts := by
  induction amounts generalizing v with
  | nil => exact ⟨v, rfl, (Int.toNat_of_nonneg nonneg).symm⟩
  | cons amount amounts ih =>
    obtain ⟨w, hw, w_val⟩ := orShifted_val nonneg (small amount List.mem_cons_self)
    obtain ⟨r, hr, r_val⟩ := ih (v := w) (by omega)
      fun other member => small other (List.mem_cons_of_mem _ member)
    refine ⟨r, ?_, ?_⟩
    · rw [smeared, List.foldlM_cons, hw]
      exact hr
    · rw [r_val, w_val, Int.toNat_natCast]
      rfl

/-- `nr2` takes `v` to `r`, and every assignment on the way gives what it gives on unbounded
integers. -/
structure Unwrapped (amounts : List Nat) (v r : Integer For) : Prop where
  run : nr2 amounts v = some r
  assigned : ∃ below, v.preDec = some below ∧ below.underlying.val = v.underlying.val - 1 ∧
    ∀ n, ∃ w, smeared (amounts.take n) below = some w ∧
      w.underlying.val = smear (v.underlying.val - 1).toNat (amounts.take n)
  last : r.underlying.val = smear (v.underlying.val - 1).toNat amounts + 1

/-- `m` bounds the bits of the values whose next power of two the type holds. -/
theorem nr2_unwrapped {v : Integer For} {amounts : List Nat} {m : Nat}
    (small : ∀ amount ∈ amounts, amount < For.bits) (positive : 1 ≤ v.underlying.val)
    (inside : v.underlying.val ≤ 2 ^ m) (holds : 2 ^ m ≤ For.highest) :
    ∃ r, Unwrapped amounts v r := by
  have low := For.lowest_nonpos
  obtain ⟨below, hbelow, below_val⟩ := preDec_val v
  rw [IntTy.wrap_of_inRange ⟨by omega, by omega⟩] at below_val
  have nonneg : 0 ≤ below.underlying.val := by omega
  obtain ⟨filled, hfilled, filled_val⟩ := smeared_val nonneg small
  have filled_lt : (smear below.underlying.val.toNat amounts : Int) < 2 ^ m := by
    have start : below.underlying.val.toNat < 2 ^ m :=
      (Int.toNat_lt nonneg).mpr (by rw [Nat.cast_pow, Nat.cast_ofNat]; omega)
    exact_mod_cast smear_lt_two_pow start amounts
  obtain ⟨r, hr, r_val⟩ := preInc_val filled
  rw [IntTy.wrap_of_inRange ⟨by omega, by omega⟩, filled_val, below_val] at r_val
  refine ⟨r, by simp [nr2, hbelow, hfilled, hr], ⟨below, hbelow, below_val, fun n => ?_⟩, r_val⟩
  rw [← below_val]
  exact smeared_val nonneg fun amount member => small amount (List.mem_of_mem_take member)

/-- `r` is the least power of two that is at least `v`. -/
def NextPowerOfTwo (v r : Integer For) : Prop :=
  IsLeast {p : Int | v.underlying.val ≤ p ∧ ∃ e : Nat, p = 2 ^ e} r.underlying.val

theorem Unwrapped.nextPowerOfTwo {v r : Integer For} {k : Nat}
    (unwrapped : Unwrapped (doublings k) v r) (positive : 1 ≤ v.underlying.val)
    (small : v.underlying.val ≤ 2 ^ 2 ^ k) : NextPowerOfTwo v r := by
  obtain ⟨n, hn⟩ := Int.eq_ofNat_of_zero_le (show 0 ≤ v.underlying.val by omega)
  rw [hn] at small
  have least := isLeast_succ_smear (v := n) (k := k) (by omega) (by exact_mod_cast small)
  have result := unwrapped.last
  rw [hn, show ((n : Int) - 1).toNat = n - 1 by omega] at result
  obtain ⟨⟨enough, e, power⟩, lower⟩ := least
  rw [NextPowerOfTwo, hn, result]
  refine ⟨⟨by exact_mod_cast enough, e, by exact_mod_cast power⟩, ?_⟩
  rintro _ ⟨above, e, rfl⟩
  exact_mod_cast lower ⟨by exact_mod_cast above, e, rfl⟩

end Integer

/-- Up to the largest power of two of the type, `nr2i32` and `nr2i64` give the next power of two,
and no assignment leaves the range. -/
theorem nr2_correct :
    (∀ v : Integer i32, 1 ≤ v.underlying.val → v.underlying.val ≤ 2 ^ 30 →
      ∃ r, nr2i32 v = some r ∧ NextPowerOfTwo v r ∧ Unwrapped [1, 2, 4, 8, 16] v r) ∧
    (∀ v : Integer i64, 1 ≤ v.underlying.val → v.underlying.val ≤ 2 ^ 62 →
      ∃ r, nr2i64 v = some r ∧ NextPowerOfTwo v r ∧ Unwrapped [1, 2, 4, 8, 16, 32] v r) := by
  constructor
  · intro v positive inside
    have computed : ∃ r, Unwrapped (doublings 5) v r :=
      nr2_unwrapped (m := 30) (by decide) positive inside (by decide)
    obtain ⟨r, unwrapped⟩ := computed
    have least := unwrapped.nextPowerOfTwo positive (inside.trans (by decide))
    exact ⟨r, unwrapped.run, least, unwrapped⟩
  · intro v positive inside
    have computed : ∃ r, Unwrapped (doublings 6) v r :=
      nr2_unwrapped (m := 62) (by decide) positive inside (by decide)
    obtain ⟨r, unwrapped⟩ := computed
    have least := unwrapped.nextPowerOfTwo positive (inside.trans (by decide))
    exact ⟨r, unwrapped.run, least, unwrapped⟩

theorem nr2_correct_five : (∃ r, nr2i32 ⟨5, by decide⟩ = some r ∧ NextPowerOfTwo ⟨5, by decide⟩ r ∧
      Unwrapped [1, 2, 4, 8, 16] ⟨5, by decide⟩ r) ∧
    (∃ r, nr2i64 ⟨5, by decide⟩ = some r ∧ NextPowerOfTwo ⟨5, by decide⟩ r ∧
      Unwrapped [1, 2, 4, 8, 16, 32] ⟨5, by decide⟩ r) :=
  ⟨nr2_correct.1 ⟨5, by decide⟩ (by decide) (by decide),
    nr2_correct.2 ⟨5, by decide⟩ (by decide) (by decide)⟩

-- Zero, which the tests use too, comes back through `-1`.
example : nr2i32 ⟨0, by decide⟩ = some ⟨0, by decide⟩ := by decide +kernel

end LibCxxExt.Sys
