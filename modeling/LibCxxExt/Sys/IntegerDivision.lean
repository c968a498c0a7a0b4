import LibCxxExt.Sys.IntegerArithmetic

/-! Division and remainder of `integer<For>`. The quotient saturates and the remainder is exact, and
they make up the dividend wherever the product that relates them is defined. -/

namespace LibCxxExt.Sys.Integer

open LibCxxExt.ProofKit

variable {For : IntTy}

theorem eqBuiltin_iff {T : IntTy} (a : Integer For) (b : CInt T) :
    a.eqBuiltin b = true ↔ a.underlying.val = b.val := by
  rw [eqBuiltin]
  split_ifs with same
  · subst same
    rw [CInt.eq_iff, CInt.ext_iff]
  · rw [decide_eq_true_eq]

theorem overflows_eq (signed : For.signed = true) (a b : Integer For) :
    ∃ x, a.overflows b = some x ∧
      (x = true ↔ a.underlying.val = For.lowest ∧ b.underlying.val = -1) := by
  have inside : For.InRange 1 :=
    For.inRange_amount (by decide) (by have := For.eight_le_bits; omega)
  have one : (CInt.ofInt For 1).val = 1 := IntTy.wrap_of_inRange inside
  have other : (1 : Int) ≠ For.lowest := by
    rcases For with ⟨_ | _ | _ | _, _ | _⟩ <;> decide
  have fits := IntTy.inRange_promoted (IntTy.inRange_neg signed inside other)
  rw [overflows, CInt.neg, CInt.cast_val, CInt.cast_promoted_val, one, CInt.arith_of_inRange fits]
  split_ifs with least <;> rw [CInt.eq_iff, CInt.ext_iff, lowest_val] at least
  · exact ⟨_, rfl, by rw [eqBuiltin_iff]; simp [least]⟩
  · exact ⟨_, rfl, by simp [least]⟩

theorem fits_of_unsigned (signed : ¬ For.signed = true) (a b : Integer For) :
    ¬ (a.underlying.val = For.lowest ∧ b.underlying.val = -1) :=
  fun extreme => signed (signed_of_negative (v := b.underlying) (by omega))

/-- A signed quotient that does not fit is the only one that saturates. -/
theorem clamp_tdiv (a b : Integer For) :
    For.clamp (a.underlying.val.tdiv b.underlying.val) =
      if a.underlying.val = For.lowest ∧ b.underlying.val = -1 then For.highest
      else a.underlying.val.tdiv b.underlying.val := by
  split_ifs with extreme
  · rw [extreme.1, extreme.2, Int.tdiv_neg, Int.tdiv_one]
    by_cases signed : For.signed = true
    · exact IntTy.clamp_of_highest_le (IntTy.highest_lt_neg_lowest signed).le
    · exact absurd extreme (fits_of_unsigned signed a b)
  · exact IntTy.clamp_of_inRange
      (IntTy.inRange_tdiv a.underlying.inRange b.underlying.inRange extreme)

theorem tdiv_val {a b : Integer For} (nonzero : b.underlying.val ≠ 0)
    (fits : ¬ (a.underlying.val = For.lowest ∧ b.underlying.val = -1)) :
    ∃ x, a.underlying.div b.underlying = some x ∧
      (saturating (x.cast For) : Integer For).underlying.val =
        For.clamp (a.underlying.val.tdiv b.underlying.val) := by
  obtain ⟨x, hx, x_val⟩ := CInt.div_eq nonzero fits
  have inside := IntTy.inRange_tdiv a.underlying.inRange b.underlying.inRange fits
  refine ⟨x, hx, ?_⟩
  rw [saturating_val (x.cast For).inRange, CInt.cast_val, x_val, IntTy.wrap_of_inRange inside,
    IntTy.clamp_of_inRange inside]

theorem tmod_val {a b : Integer For} (nonzero : b.underlying.val ≠ 0)
    (fits : ¬ (a.underlying.val = For.lowest ∧ b.underlying.val = -1)) :
    ∃ x, a.underlying.mod b.underlying = some x ∧
      (saturating (x.cast For) : Integer For).underlying.val =
        a.underlying.val.tmod b.underlying.val := by
  obtain ⟨x, hx, x_val⟩ := CInt.mod_eq nonzero fits
  have inside := IntTy.inRange_tmod a.underlying.inRange b.underlying.inRange nonzero
  refine ⟨x, hx, ?_⟩
  rw [saturating_val (x.cast For).inRange, CInt.cast_val, x_val, IntTy.wrap_of_inRange inside]

/-- The quotient saturates, by zero towards the sign of the dividend. -/
theorem div_val (a b : Integer For) :
    ∃ q, a.div b = some q ∧ q.underlying.val =
      if b.underlying.val = 0 then if a.underlying.val < 0 then For.lowest else For.highest
      else For.clamp (a.underlying.val.tdiv b.underlying.val) := by
  rcases eq_or_ne b.underlying.val 0 with zero | nonzero
  · rw [div, if_pos ((CInt.eq_zero_iff _).mpr zero), if_pos zero]
    simp only [negative_iff]
    split_ifs
    · exact ⟨_, rfl, lowest_val⟩
    · exact ⟨_, rfl, highest_val⟩
  · rw [div, if_neg (mt (CInt.eq_zero_iff _).mp nonzero), if_neg nonzero]
    by_cases signed : For.signed = true
    · obtain ⟨x, hx, extreme⟩ := overflows_eq signed a b
      cases x with
      | true =>
        rw [clamp_tdiv, if_pos (extreme.mp rfl)]
        exact ⟨highest, by simp [signed, hx], highest_val⟩
      | false =>
        obtain ⟨q, hq, q_val⟩ := tdiv_val nonzero (by simpa using extreme)
        exact ⟨_, by simp [signed, hx, hq], q_val⟩
    · obtain ⟨q, hq, q_val⟩ := tdiv_val nonzero (fits_of_unsigned signed a b)
      exact ⟨_, by simp [signed, hq], q_val⟩

/-- The remainder is exact, that by zero and that of the quotient that does not fit included. -/
theorem mod_val (a b : Integer For) :
    ∃ r, a.mod b = some r ∧ r.underlying.val = a.underlying.val.tmod b.underlying.val := by
  rcases eq_or_ne b.underlying.val 0 with zero | nonzero
  · rw [mod, if_pos ((CInt.eq_zero_iff _).mpr zero), zero, Int.tmod_zero]
    exact ⟨a, rfl, rfl⟩
  · rw [mod, if_neg (mt (CInt.eq_zero_iff _).mp nonzero)]
    by_cases signed : For.signed = true
    · obtain ⟨x, hx, extreme⟩ := overflows_eq signed a b
      cases x with
      | true =>
        have zero : For.InRange 0 :=
          For.inRange_amount (le_refl 0) (by have := For.eight_le_bits; omega)
        refine ⟨saturating (.ofInt For 0), by simp [signed, hx], ?_⟩
        rw [saturating_ofInt_val zero, (extreme.mp rfl).2, Int.tmod_neg, Int.tmod_one]
      | false =>
        obtain ⟨r, hr, r_val⟩ := tmod_val nonzero (by simpa using extreme)
        exact ⟨_, by simp [signed, hx, hr], r_val⟩
    · obtain ⟨r, hr, r_val⟩ := tmod_val nonzero (fits_of_unsigned signed a b)
      exact ⟨_, by simp [signed, hr], r_val⟩

/-- Quotient and remainder of `a` by `b` are those of truncated division, but for a quotient that
saturates, and `a` is the product of quotient and divisor plus the remainder. -/
def DividesExactly (a b : Integer For) : Prop :=
  ∃ q r, a.div b = some q ∧ a.mod b = some r ∧
    (¬ (a.underlying.val = For.lowest ∧ b.underlying.val = -1) →
      ∃ p, q.mul b = some p ∧ p.add r = some a) ∧
    (b.underlying.val ≠ 0 → r.underlying.val.natAbs < b.underlying.val.natAbs ∧
      (r.underlying.val = 0 ∨ r.underlying.val.sign = a.underlying.val.sign)) ∧
    (b.underlying.val ≠ 0 →
      q.underlying.val = For.clamp (a.underlying.val.tdiv b.underlying.val))

theorem natAbs_tmod_lt {v w : Int} (nonzero : w ≠ 0) : (v.tmod w).natAbs < w.natAbs := by
  rw [Int.natAbs_tmod]
  exact Nat.mod_lt _ (Int.natAbs_pos.mpr nonzero)

theorem sign_tmod_eq (v w : Int) : v.tmod w = 0 ∨ (v.tmod w).sign = v.sign := by
  have sign := Int.sign_tmod v w
  split_ifs at sign
  · exact .inl (Int.sign_eq_zero_iff_zero.mp sign)
  · exact .inr sign

/-- Where the product of quotient and divisor is defined, adding the remainder gives `a`. -/
theorem mul_add_mod {a b q r : Integer For} {x : CInt _} (hx : q.u.mul b.u = some x)
    (whole : q.underlying.val * b.underlying.val + r.underlying.val = a.underlying.val) :
    ∃ p, q.mul b = some p ∧ p.add r = some a := by
  refine ⟨truncating (x.cast For), by simp [mul, hx], ?_⟩
  obtain ⟨y, hy, y_val⟩ := u_add (truncating (x.cast For)) r
  have sum : truncating (y.cast For) = a := by
    rw [Integer.ext_iff, CInt.ext_iff, truncating_val, y_val, truncating_val, u_mul hx,
      ← IntTy.wrap_of_inRange a.underlying.inRange, ← whole]
    exact IntTy.wrap_congr ((IntTy.wrap_modEq _ _).add_right _)
  simp [add, hy, sum]

/-- The part of `v` that `w` does not divide lies between zero and `v`. -/
theorem tmod_between (v w : Int) :
    (0 ≤ v → 0 ≤ v.tmod w ∧ v.tmod w ≤ v) ∧ (v ≤ 0 → v ≤ v.tmod w ∧ v.tmod w ≤ 0) := by
  have size : (v.tmod w).natAbs ≤ v.natAbs := by
    rw [Int.natAbs_tmod]
    exact Nat.mod_le _ _
  have nonneg := Int.tmod_nonneg (a := v) w
  have nonpos := Int.tmod_nonneg (a := -v) w
  rw [Int.neg_tmod] at nonpos
  omega

/-- The unsigned product of the quotient and the divisor of 16-bit values reaches `2 ^ 31` exactly
when a negative quotient meets a negative divisor. -/
theorem product_reaches_iff {v w q : Int} (hv : v ≤ 32767) (hw : -32768 ≤ w ∧ w ≤ 32767)
    (hq : -32768 ≤ q ∧ q ≤ 32767) (nonzero : w ≠ 0) (quotient : q = v.tdiv w) :
    2 ^ 31 ≤ (if q < 0 then q + 65536 else q) * (if w < 0 then w + 65536 else w) ↔
      w < 0 ∧ -w ≤ v := by
  have whole : q * w + v.tmod w = v := quotient ▸ Int.tdiv_mul_add_tmod v w
  have small := natAbs_tmod_lt (v := v) nonzero
  have between := tmod_between v w
  split_ifs with q_neg w_neg w_neg
  · have tight := Int.mul_nonneg_of_nonpos_of_nonpos (a := q + 1) (b := w + 1) (by omega) (by omega)
    have large := Int.mul_nonneg_of_nonpos_of_nonpos (a := q + 1) (b := w) (by omega) (by omega)
    have product : (q + 65536) * (w + 65536) = q * w + 65536 * (q + w) + 2 ^ 32 := by ring
    rw [product]
    rw [Int.add_mul] at large
    have : (q + 1) * (w + 1) = q * w + q + w + 1 := by ring
    omega
  · have := Int.mul_nonpos_of_nonpos_of_nonneg q_neg.le (not_lt.mp w_neg)
    rw [Int.add_mul]
    omega
  · have := Int.mul_nonpos_of_nonneg_of_nonpos (not_lt.mp q_neg) w_neg.le
    rw [Int.mul_add]
    omega
  · omega

theorem u_val_signed {width : Width} (a : Integer ⟨width, true⟩) :
    a.u.val = if a.underlying.val < 0 then a.underlying.val + 2 ^ width.bits
      else a.underlying.val := by
  have inside := a.underlying.inRange
  rw [u_val]
  rcases width <;> simp [IntTy.InRange, IntTy.lowest, IntTy.highest, IntTy.bits] at inside ⊢ <;>
    split_ifs <;> omega

/-- When the product of the quotient and the divisor is defined. -/
theorem quotient_mul_isSome_iff {a b q : Integer For}
    (quotient : b.underlying.val ≠ 0 → q.underlying.val = a.underlying.val.tdiv b.underlying.val) :
    (q.u.mul b.u).isSome ↔
      ¬ (For = ⟨.w16, true⟩ ∧ b.underlying.val < 0 ∧ -b.underlying.val ≤ a.underlying.val) := by
  rw [mul_isSome_iff, not_iff_not]
  rcases eq_or_ne b.underlying.val 0 with zero | nonzero
  · simp [u_val b, zero]
  have quotient := quotient nonzero
  by_cases narrow : For.width = .w16
  · obtain ⟨_, signed⟩ := For
    obtain rfl : _ = Width.w16 := narrow
    have ha := a.underlying.inRange
    have hb := b.underlying.inRange
    have hq := q.underlying.inRange
    cases signed with
    | true =>
      have reaches := product_reaches_iff ha.2 hb hq nonzero quotient
      simp only [u_val_signed, true_and]
      exact reaches
    | false =>
      have product := Int.tdiv_mul_le a.underlying.val nonzero
      rw [if_pos (show 0 ≤ a.underlying.val from ha.1), ← quotient] at product
      have small := ha.2
      have q_u : q.u.val = q.underlying.val := IntTy.wrap_of_inRange q.underlying.inRange
      have b_u : b.u.val = b.underlying.val := IntTy.wrap_of_inRange b.underlying.inRange
      simp [IntTy.highest, IntTy.bits] at small
      rw [q_u, b_u]
      simp
      omega
  · refine iff_of_false (fun bad => narrow bad.1) fun bad => narrow ?_
    rw [bad.1]

/-- Division and remainder are consistent, but for signed 16-bit values of which a positive one is
divided by a negative one that is not larger. -/
theorem dividesExactly_iff (a b : Integer For) :
    DividesExactly a b ↔
      ¬ (For = ⟨.w16, true⟩ ∧ b.underlying.val < 0 ∧ -b.underlying.val ≤ a.underlying.val) := by
  obtain ⟨q, hq, q_val⟩ := div_val a b
  obtain ⟨r, hr, r_val⟩ := mod_val a b
  have product_iff (fits : ¬ (a.underlying.val = For.lowest ∧ b.underlying.val = -1)) :=
    quotient_mul_isSome_iff (a := a) (b := b) (q := q) fun nonzero => by
      rw [q_val, if_neg nonzero, clamp_tdiv, if_neg fits]
  constructor
  · rintro ⟨q', _, hq', _, law, _⟩ reached
    obtain rfl : q = q' := Option.some.inj (hq.symm.trans hq')
    have fits : ¬ (a.underlying.val = For.lowest ∧ b.underlying.val = -1) := by
      have := For.lowest_nonpos
      omega
    obtain ⟨p, hp, _⟩ := law fits
    obtain ⟨x, hx, _⟩ := Option.bind_eq_some_iff.mp hp
    exact (product_iff fits).mp (Option.isSome_of_eq_some hx) reached
  · intro defined
    refine ⟨q, r, hq, hr, fun fits => ?_, fun nonzero => ?_, fun nonzero => ?_⟩
    · obtain ⟨x, hx⟩ := Option.isSome_iff_exists.mp ((product_iff fits).mpr defined)
      refine mul_add_mod hx ?_
      rw [r_val, q_val]
      split_ifs with zero
      · rw [zero, Int.mul_zero, Int.zero_add, Int.tmod_zero]
      · rw [zero, Int.mul_zero, Int.zero_add, Int.tmod_zero]
      · rw [clamp_tdiv, if_neg fits, Int.tdiv_mul_add_tmod]
    · rw [r_val]
      exact ⟨natAbs_tmod_lt nonzero, sign_tmod_eq _ _⟩
    · rw [q_val, if_neg nonzero]

/-- `1 / -1` is `-1`, whose product with the divisor is computed as `65535 * 65535`. -/
theorem not_dividesExactly : ∃ a b : Integer ⟨.w16, true⟩, a.underlying.val = 1 ∧
    b.underlying.val = -1 ∧ a.div b = some b ∧ b.mul b = none ∧ ¬ DividesExactly a b := by
  let a : Integer ⟨.w16, true⟩ := ⟨1, by decide⟩
  let b : Integer ⟨.w16, true⟩ := ⟨-1, by decide⟩
  have quotient : a.div b = some b := by decide
  have undefined : b.mul b = none := by decide
  refine ⟨a, b, rfl, rfl, quotient, undefined, ?_⟩
  rintro ⟨q, r, hq, _, law, _⟩
  obtain rfl : b = q := Option.some.inj (quotient.symm.trans hq)
  obtain ⟨p, hp, _⟩ := law (by decide)
  exact nomatch undefined.symm.trans hp

end LibCxxExt.Sys.Integer
