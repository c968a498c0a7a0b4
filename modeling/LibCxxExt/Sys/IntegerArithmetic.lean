import LibCxxExt.Sys.Integer
import Mathlib.Algebra.Order.Ring.Int

/-! What `+`, `-`, `*` and the negation of `integer<For>` compute. The binary operators wrap and the
negation saturates. The one undefined case is the product of two 16-bit values, which is computed in
`int`. -/

namespace LibCxxExt.Sys.Integer

open LibCxxExt.ProofKit

variable {For : IntTy}

theorem u_inRange (a : Integer For) : 0 ≤ a.u.val ∧ a.u.val < 2 ^ For.bits :=
  ⟨a.u.inRange.1, Int.lt_of_le_sub_one a.u.inRange.2⟩

theorem u_modEq (a : Integer For) : a.u.val ≡ a.underlying.val [ZMOD For.modulus] :=
  IntTy.wrap_modEq For.toUnsigned _

theorem u_val (a : Integer For) : a.u.val = a.underlying.val % 2 ^ For.bits :=
  For.toUnsigned_wrap _

theorem u_injective {a b : Integer For} (same : a.u.val = b.u.val) : a = b := by
  rw [Integer.ext_iff, CInt.ext_iff, ← IntTy.wrap_of_inRange a.underlying.inRange,
    ← IntTy.wrap_of_inRange b.underlying.inRange]
  exact IntTy.wrap_congr ((a.u_modEq.symm.trans (same ▸ Int.ModEq.refl _)).trans b.u_modEq)

theorem bits_le_common : For.bits ≤ (For.toUnsigned.common For.toUnsigned).bits := by
  rw [IntTy.common_self]
  exact For.toUnsigned.bits_le_promoted

theorem add_isSome (a b : Integer For) : (a.u.add b.u).isSome := by
  have ha := a.u_inRange
  have hb := b.u_inRange
  simp only [CInt.add, CInt.arith_isSome_iff, CInt.cast_val, CInt.cast_common_val]
  rcases For with ⟨_ | _ | _ | _, _⟩ <;>
    simp [IntTy.InRange, IntTy.common, IntTy.promoted, IntTy.lowest, IntTy.highest,
      IntTy.bits] at ha hb ⊢ <;> omega

theorem sub_isSome (a b : Integer For) : (a.u.sub b.u).isSome := by
  have ha := a.u_inRange
  have hb := b.u_inRange
  simp only [CInt.sub, CInt.arith_isSome_iff, CInt.cast_val, CInt.cast_common_val]
  rcases For with ⟨_ | _ | _ | _, _⟩ <;>
    simp [IntTy.InRange, IntTy.common, IntTy.promoted, IntTy.lowest, IntTy.highest,
      IntTy.bits] at ha hb ⊢ <;> omega

theorem mul_isSome_iff (a b : Integer For) :
    (a.u.mul b.u).isSome ↔ ¬ (For.width = .w16 ∧ 2 ^ 31 ≤ a.u.val * b.u.val) := by
  obtain ⟨a0, ha⟩ := a.u_inRange
  obtain ⟨b0, hb⟩ := b.u_inRange
  have nonneg := Int.mul_nonneg a0 b0
  simp only [CInt.mul, CInt.arith_isSome_iff, CInt.cast_val, CInt.cast_common_val]
  rcases For with ⟨_ | _ | _ | _, _⟩
  -- `int` holds every product of bytes, but not every product of 16-bit values.
  · have ha : a.u.val ≤ 255 := by simp [IntTy.bits] at ha; omega
    have hb : b.u.val ≤ 255 := by simp [IntTy.bits] at hb; omega
    have small := Int.mul_le_mul ha hb b0 (by decide)
    simp [IntTy.InRange, IntTy.common, IntTy.promoted, IntTy.lowest, IntTy.highest, IntTy.bits]
    omega
  · simp [IntTy.InRange, IntTy.common, IntTy.promoted, IntTy.lowest, IntTy.highest, IntTy.bits]
    omega
  · simp [IntTy.common, IntTy.promoted, IntTy.bits]
  · simp [IntTy.common, IntTy.promoted, IntTy.bits]

theorem u_add (a b : Integer For) : ∃ x, a.u.add b.u = some x ∧
    (x.cast For).val = For.wrap (a.underlying.val + b.underlying.val) := by
  obtain ⟨x, hx⟩ := Option.isSome_iff_exists.mp (add_isSome a b)
  refine ⟨x, hx, ?_⟩
  rw [CInt.arith_cast hx bits_le_common]
  simp only [CInt.cast_val, CInt.cast_common_val]
  exact IntTy.wrap_congr (a.u_modEq.add b.u_modEq)

theorem u_sub (a b : Integer For) : ∃ x, a.u.sub b.u = some x ∧
    (x.cast For).val = For.wrap (a.underlying.val - b.underlying.val) := by
  obtain ⟨x, hx⟩ := Option.isSome_iff_exists.mp (sub_isSome a b)
  refine ⟨x, hx, ?_⟩
  rw [CInt.arith_cast hx bits_le_common]
  simp only [CInt.cast_val, CInt.cast_common_val]
  exact IntTy.wrap_congr (a.u_modEq.sub b.u_modEq)

theorem u_mul {a b : Integer For} {x : CInt _} (hx : a.u.mul b.u = some x) :
    (x.cast For).val = For.wrap (a.underlying.val * b.underlying.val) := by
  rw [CInt.arith_cast hx bits_le_common]
  simp only [CInt.cast_val, CInt.cast_common_val]
  exact IntTy.wrap_congr (a.u_modEq.mul b.u_modEq)

theorem truncating_val (x : CInt For) :
    (truncating x : Integer For).underlying.val = x.val :=
  IntTy.wrap_of_inRange x.inRange

/-- The `_as(1, unsigned_t)` of the increments is `u()` of one. -/
theorem u_one (For : IntTy) :
    ∃ one : Integer For, one.underlying.val = 1 ∧ one.u = .ofInt For.toUnsigned 1 := by
  have fits := For.inRange_amount (v := 1) (by decide) (by have := For.eight_le_bits; omega)
  exact ⟨⟨⟨1, fits⟩⟩, rfl, rfl⟩

theorem preInc_val (a : Integer For) : ∃ r, a.preInc = some r ∧
    r.underlying.val = For.wrap (a.underlying.val + 1) := by
  obtain ⟨one, one_val, one_u⟩ := u_one For
  obtain ⟨x, hx, wraps⟩ := u_add a one
  rw [one_u, one_val] at *
  exact ⟨⟨x.cast For⟩, by simp [preInc, hx], wraps⟩

theorem preDec_val (a : Integer For) : ∃ r, a.preDec = some r ∧
    r.underlying.val = For.wrap (a.underlying.val - 1) := by
  obtain ⟨one, one_val, one_u⟩ := u_one For
  obtain ⟨x, hx, wraps⟩ := u_sub a one
  rw [one_u, one_val] at *
  exact ⟨⟨x.cast For⟩, by simp [preDec, hx], wraps⟩

/-- The postfix operators leave what the prefix ones do. -/
theorem postInc_eq (a : Integer For) : a.postInc = a.preInc.map (a, ·) := by
  rw [postInc, preInc]
  cases a.u.add (.ofInt For.toUnsigned 1) <;> rfl

theorem postDec_eq (a : Integer For) : a.postDec = a.preDec.map (a, ·) := by
  rw [postDec, preDec]
  cases a.u.sub (.ofInt For.toUnsigned 1) <;> rfl

theorem saturating_val {T : IntTy} {v : CInt T} (fits : For.InRange v.val) :
    (saturating v : Integer For).underlying.val = v.val := by
  rw [saturating, bnumericCast]
  split_ifs with narrower below above
  · exact IntTy.wrap_of_inRange fits
  · exact absurd fits.1 (not_le.mpr below)
  · exact absurd fits.2 (not_le.mpr above)
  · exact IntTy.wrap_of_inRange fits

theorem saturating_ofInt_val {v : Int} (fits : For.InRange v) :
    (saturating (.ofInt For v) : Integer For).underlying.val = v := by
  have same : (CInt.ofInt For v).val = v := IntTy.wrap_of_inRange fits
  rw [saturating_val (by rwa [same]), same]

theorem lowest_val : (lowest : Integer For).underlying.val = For.lowest :=
  saturating_ofInt_val For.inRange_lowest

theorem highest_val : (highest : Integer For).underlying.val = For.highest :=
  saturating_ofInt_val For.inRange_highest

theorem signed_of_negative {v : CInt For} (negative : v.val < 0) : For.signed = true := by
  by_contra signed
  have := v.inRange.1
  rw [IntTy.lowest, if_neg signed] at this
  omega

theorem negative_iff (v : CInt For) : (For.signed && v.lt (.ofInt .int 0)) = true ↔ v.val < 0 := by
  rw [Bool.and_eq_true, CInt.lt_zero_iff]
  exact ⟨And.right, fun negative => ⟨signed_of_negative negative, negative⟩⟩

theorem neg_val (signed : For.signed = true) (a : Integer For) :
    ∃ n, a.neg = some n ∧ n.underlying.val =
      if a.underlying.val = For.lowest then For.highest else -a.underlying.val := by
  have least : a.underlying.eq (.ofInt For For.lowest) = true ↔ a.underlying.val = For.lowest := by
    rw [CInt.eq_iff, CInt.ext_iff, CInt.ofInt_val, IntTy.wrap_of_inRange For.inRange_lowest]
  simp only [neg, least]
  split_ifs with extreme
  · have same : ((CInt.ofInt For For.highest).cast For.promoted).val = For.highest := by
      rw [CInt.cast_val, CInt.cast_promoted_val, CInt.ofInt_val,
        IntTy.wrap_of_inRange For.inRange_highest]
    exact ⟨_, rfl, by rw [saturating_val (by rw [same]; exact For.inRange_highest), same]⟩
  · have inside := IntTy.inRange_neg signed a.underlying.inRange extreme
    refine ⟨saturating ⟨_, IntTy.inRange_promoted inside⟩, ?_, saturating_val inside⟩
    rw [CInt.neg, CInt.cast_val, CInt.cast_promoted_val,
      CInt.arith_of_inRange (IntTy.inRange_promoted inside)]
    rfl

end LibCxxExt.Sys.Integer
