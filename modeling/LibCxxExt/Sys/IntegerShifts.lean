import LibCxxExt.Sys.IntegerArithmetic

/-! The shifts of `integer<For>` are total, logical and symmetric: they move the bits of the value
read without its sign, an amount as large as the width clears them, and a negative amount shifts in
the opposite direction. -/

namespace LibCxxExt.Sys.Integer

open LibCxxExt.ProofKit

variable {For : IntTy}

theorem u_truncating {T : IntTy} (x : CInt T) :
    (truncating (x.cast For) : Integer For).u.val = x.val % 2 ^ For.bits := by
  rw [u_val, truncating, CInt.cast_val, CInt.cast_val, IntTy.wrap_wrap (le_refl _)]
  exact IntTy.wrap_modEq For _

/-- `&` with the mask of a comparison keeps the bits or clears them. -/
theorem and_mask (a : Integer For) (inside : Bool) :
    ∃ m, mask inside = some m ∧ (a.and m).u.val = if inside then a.u.val else 0 := by
  have mask : ∃ m : Integer For, mask inside = some m ∧
      m.u.val = if inside then 2 ^ For.bits - 1 else 0 := by
    rcases For with ⟨_ | _ | _ | _, _ | _⟩ <;> cases inside <;> exact ⟨_, rfl, rfl⟩
  obtain ⟨m, hm, m_val⟩ := mask
  obtain ⟨nonneg, small⟩ := a.u_inRange
  refine ⟨m, hm, ?_⟩
  rw [and, u_truncating, CInt.and_val nonneg m.u_inRange.1, m_val]
  cases inside with
  | false => simp
  | true =>
    have ones : (2 : Int) ^ For.bits - 1 = (2 ^ For.bits - 1 : Nat) := by
      rw [Int.ofNat_sub Nat.one_le_two_pow, Nat.cast_pow, Nat.cast_ofNat, Nat.cast_one]
    have below : a.u.val.toNat < 2 ^ For.bits :=
      (Int.toNat_lt nonneg).mpr (by rwa [Nat.cast_pow, Nat.cast_ofNat])
    rw [if_pos rfl, if_pos rfl, ones, Int.toNat_natCast,
      Nat.and_two_pow_sub_one_of_lt_two_pow below,
      Int.toNat_of_nonneg nonneg, Int.emod_eq_of_lt nonneg small]

theorem fixedWidth_val {T : IntTy} (same : T.width = For.width) :
    (fixedWidth For T).val = For.bits := by
  refine IntTy.wrap_of_inRange ?_
  obtain ⟨width, signed⟩ := T
  subst same
  rcases For with ⟨_ | _ | _ | _, _⟩ <;> cases signed <;> decide +revert

theorem fixedWidth_neg (signed : For.signed = true) :
    ∃ x, (fixedWidth For For).neg = some x ∧ x.val = -For.bits := by
  have fits : For.promoted.InRange (-For.bits) := by
    rcases For with ⟨_ | _ | _ | _, _ | _⟩ <;> cases signed <;> decide
  refine ⟨⟨_, fits⟩, ?_, rfl⟩
  rw [CInt.neg, CInt.cast_val, CInt.cast_promoted_val, fixedWidth_val rfl,
    CInt.arith_of_inRange fits]

theorem shiftLeft_isSome (a : Integer For) {count : CInt For.toUnsigned}
    (low : 0 ≤ count.val) (high : count.val < For.bits) : (a.u.shl count).isSome := by
  obtain ⟨a0, ha⟩ := a.u_inRange
  have wide : For.bits ≤ For.toUnsigned.promoted.bits := For.toUnsigned.bits_le_promoted
  have inside : 0 ≤ count.val ∧ count.val < For.toUnsigned.promoted.bits := ⟨low, by omega⟩
  rw [CInt.shl, if_pos inside, CInt.arith_isSome_iff, CInt.cast_val, CInt.cast_promoted_val]
  have power : (0 : Int) ≤ 2 ^ count.val.toNat := Int.pow_nonneg (by decide)
  have bound : (2 : Int) ^ count.val.toNat ≤ 2 ^ (For.bits - 1) :=
    pow_le_pow_right₀ (by decide) (by omega)
  have nonneg := Int.mul_nonneg a0 power
  rcases For with ⟨_ | _ | _ | _, _⟩
  · have ha : a.u.val ≤ 255 := by simp [IntTy.bits] at ha; omega
    have small := Int.mul_le_mul ha bound power (by decide)
    simp [IntTy.InRange, IntTy.promoted, IntTy.lowest, IntTy.highest, IntTy.bits] at small ⊢
    omega
  · have ha : a.u.val ≤ 65535 := by simp [IntTy.bits] at ha; omega
    have small := Int.mul_le_mul ha bound power (by decide)
    simp [IntTy.InRange, IntTy.promoted, IntTy.lowest, IntTy.highest, IntTy.bits] at small ⊢
    omega
  · simp [IntTy.promoted, IntTy.bits]
  · simp [IntTy.promoted, IntTy.bits]

theorem shiftRight_isSome (a : Integer For) {count : CInt For.toUnsigned}
    (low : 0 ≤ count.val) (high : count.val < For.bits) : (a.u.shr count).isSome := by
  have wide : For.bits ≤ For.toUnsigned.promoted.bits := For.toUnsigned.bits_le_promoted
  have inside : 0 ≤ count.val ∧ count.val < For.toUnsigned.promoted.bits := ⟨low, by omega⟩
  rw [CInt.shr, if_pos inside, CInt.arith_isSome_iff, CInt.cast_val, CInt.cast_promoted_val]
  refine fun _ => IntTy.inRange_promoted ⟨?_, ?_⟩
  · exact Int.ediv_nonneg a.u_inRange.1 (Int.pow_nonneg (by decide))
  · exact (Int.ediv_le_self _ a.u_inRange.1).trans a.u.inRange.2

theorem least_val (signed : For.signed = true) {width : CInt For.promoted}
    (hwidth : width.val = -For.bits) :
    ∃ x, width.add (.ofInt For 1) = some x ∧ (x.cast For).val = 1 - For.bits := by
  have fits : (For.promoted.common For).InRange ((width.cast (For.promoted.common For)).val +
      ((CInt.ofInt For 1).cast (For.promoted.common For)).val) := by
    rw [CInt.cast_val, hwidth]
    rcases For with ⟨_ | _ | _ | _, _ | _⟩ <;> cases signed <;> decide
  refine ⟨_, CInt.arith_of_inRange fits, ?_⟩
  simp only [CInt.cast_val, hwidth]
  rcases For with ⟨_ | _ | _ | _, _ | _⟩ <;> cases signed <;> decide

theorem count_val {m : CInt For} (low : 1 - For.bits ≤ m.val) (negative : m.val < 0) :
    ∃ x, m.neg = some x ∧ (x.cast For.toUnsigned).val = -m.val := by
  have fits : For.InRange (-m.val) := For.inRange_amount (by omega) (by omega)
  have fits' : For.toUnsigned.InRange (-m.val) :=
    For.toUnsigned.inRange_amount (by omega) (show _ < (For.bits : Int) by omega)
  refine ⟨⟨_, IntTy.inRange_promoted fits⟩, ?_, IntTy.wrap_of_inRange fits'⟩
  rw [CInt.neg, CInt.cast_val, CInt.cast_promoted_val,
    CInt.arith_of_inRange (IntTy.inRange_promoted fits)]

theorem most_val (For : IntTy) :
    ∃ x, (fixedWidth For For.toUnsigned).sub (.ofInt For.toUnsigned 1) = some x ∧
    (x.cast For.toUnsigned).val = For.bits - 1 := by
  have positive := For.eight_le_bits
  have one : (CInt.ofInt For.toUnsigned 1).val = 1 := IntTy.wrap_of_inRange
    (For.toUnsigned.inRange_amount (by decide) (show _ < (For.bits : Int) by omega))
  have fits : For.toUnsigned.InRange (For.bits - 1) :=
    For.toUnsigned.inRange_amount (by omega) (show _ < (For.bits : Int) by omega)
  refine ⟨⟨_, IntTy.inRange_common fits⟩, ?_, IntTy.wrap_of_inRange fits⟩
  have width : (fixedWidth For For.toUnsigned).val = For.bits := fixedWidth_val rfl
  rw [CInt.sub, CInt.cast_val, CInt.cast_val, CInt.cast_common_val, CInt.cast_common_val, width,
    one, CInt.arith_of_inRange (IntTy.inRange_common fits)]

/-- `shift` moves the bits as `bits` says, for the counts of a defined shift. -/
def ShiftsTo (shift : CInt For.toUnsigned → Option (CInt For.toUnsigned.promoted))
    (bits : Nat → Int) : Prop :=
  ∀ count : CInt For.toUnsigned, 0 ≤ count.val → count.val < For.bits →
    ∃ x, shift count = some x ∧ x.val % 2 ^ For.bits = bits count.val.toNat

theorem shiftLeft_bits (a : Integer For) :
    ShiftsTo a.u.shl fun n => a.u.val * 2 ^ n % 2 ^ For.bits := by
  intro count low high
  obtain ⟨x, hx⟩ := Option.isSome_iff_exists.mp (a.shiftLeft_isSome low high)
  refine ⟨x, hx, ?_⟩
  rw [CInt.shl] at hx
  split_ifs at hx
  rw [CInt.cast_val, CInt.cast_promoted_val] at hx
  rw [CInt.arith_val hx]
  exact (IntTy.wrap_modEq _ _).of_dvd (IntTy.modulus_dvd For.toUnsigned.bits_le_promoted)

theorem shiftRight_bits (a : Integer For) :
    ShiftsTo a.u.shr fun n => a.u.val / 2 ^ n := by
  intro count low high
  obtain ⟨nonneg, small⟩ := a.u_inRange
  obtain ⟨x, hx⟩ := Option.isSome_iff_exists.mp (a.shiftRight_isSome low high)
  refine ⟨x, hx, ?_⟩
  have quotient_nonneg : 0 ≤ a.u.val / 2 ^ count.val.toNat :=
    Int.ediv_nonneg nonneg (Int.pow_nonneg (by decide))
  have quotient_le := Int.ediv_le_self (2 ^ count.val.toNat) nonneg
  rw [CInt.shr] at hx
  split_ifs at hx
  rw [CInt.cast_val, CInt.cast_promoted_val] at hx
  rw [CInt.arith_val hx, IntTy.wrap_of_inRange, Int.emod_eq_of_lt quotient_nonneg (by omega)]
  exact IntTy.inRange_promoted ⟨quotient_nonneg, quotient_le.trans a.u.inRange.2⟩

section Clamped

variable {b : Integer For} {bits : Nat → Int}
  {shift : CInt For.toUnsigned → Option (CInt For.toUnsigned.promoted)}

theorem shiftAlong_u (nonneg : 0 ≤ b.underlying.val) (shifts : ShiftsTo shift bits) :
    ∃ r, b.shiftAlong shift = some r ∧
      r.u.val = if b.underlying.val < For.bits then bits b.underlying.val.toNat else 0 := by
  obtain ⟨most, hmost, most_val⟩ := most_val For
  have clamped := CInt.min_val b.u (most.cast For.toUnsigned)
  have positive := For.eight_le_bits
  have u_nonneg := b.u_inRange.1
  obtain ⟨x, hx, x_val⟩ := shifts (b.u.min (most.cast _)) (by omega) (by omega)
  obtain ⟨m, hm, masked⟩ := and_mask (truncating (x.cast For) : Integer For)
    (b.underlying.lt (fixedWidth For For))
  refine ⟨(truncating (x.cast For)).and m, by simp [shiftAlong, hmost, hx, hm], ?_⟩
  simp only [masked, u_truncating, x_val, CInt.lt_iff, fixedWidth_val]
  split_ifs with inside
  · have same : b.u.val = b.underlying.val := IntTy.wrap_of_inRange
      (For.toUnsigned.inRange_amount nonneg inside)
    rw [clamped, most_val, same, min_eq_left (by omega)]
  · rfl

theorem width_lt_iff (signed : For.signed = true) {width : CInt For.promoted}
    (hwidth : width.val = -For.bits) (c : CInt For) :
    width.lt c = true ↔ -For.bits < c.val := by
  have wide : For.promoted.common For = For.promoted := by
    rcases For with ⟨_ | _ | _ | _, _ | _⟩ <;> rfl
  rw [CInt.lt, decide_eq_true_eq, CInt.cast_val, CInt.cast_val, wide, CInt.cast_promoted_val,
    IntTy.wrap_of_inRange width.inRange, hwidth]

theorem shiftOpposite_u (signed : For.signed = true) (negative : b.underlying.val < 0)
    (shifts : ShiftsTo shift bits) :
    ∃ r, b.shiftOpposite shift = some r ∧
      r.u.val = if -For.bits < b.underlying.val then bits (-b.underlying.val).toNat else 0 := by
  obtain ⟨width, hwidth, width_val⟩ := fixedWidth_neg signed
  obtain ⟨least, hleast, least_val⟩ := least_val signed width_val
  have clamped := CInt.max_val b.underlying (least.cast For)
  have positive := For.eight_le_bits
  obtain ⟨count, hcount, count_val⟩ := count_val (m := b.underlying.max (least.cast For))
    (by omega) (by omega)
  obtain ⟨x, hx, x_val⟩ := shifts (count.cast _) (by omega) (by omega)
  obtain ⟨m, hm, masked⟩ := and_mask (truncating (x.cast For) : Integer For)
    (width.lt b.underlying)
  refine ⟨(truncating (x.cast For)).and m,
    by simp [shiftOpposite, hwidth, hleast, hcount, hx, hm], ?_⟩
  simp only [masked, u_truncating, x_val, width_lt_iff signed width_val]
  split_ifs with inside
  · rw [count_val, clamped, least_val, max_eq_left (by omega)]
  · rfl

/-- Both shift operators: `along` for an amount that is not negative, `opposite` for another. -/
theorem shiftBy_u {along opposite : CInt For.toUnsigned → Option (CInt For.toUnsigned.promoted)}
    {alongBits oppositeBits : Nat → Int} (shiftsAlong : ShiftsTo along alongBits)
    (shiftsOpposite : ShiftsTo opposite oppositeBits) (b : Integer For) :
    ∃ r, (if For.signed && b.underlying.lt (.ofInt .int 0) then b.shiftOpposite opposite
        else b.shiftAlong along) = some r ∧
      r.u.val = if 0 ≤ b.underlying.val ∧ b.underlying.val < For.bits
          then alongBits b.underlying.val.toNat
        else if -For.bits < b.underlying.val ∧ b.underlying.val < 0
          then oppositeBits (-b.underlying.val).toNat
        else 0 := by
  rcases lt_or_ge b.underlying.val 0 with negative | nonneg
  · obtain ⟨r, hr, r_val⟩ := shiftOpposite_u (signed_of_negative negative) negative shiftsOpposite
    rw [if_pos ((negative_iff _).mpr negative), if_neg (by omega)]
    exact ⟨r, hr, by simp only [r_val, negative, and_true]⟩
  · obtain ⟨r, hr, r_val⟩ := shiftAlong_u nonneg shiftsAlong
    have above : ¬ b.underlying.val < 0 := not_lt.mpr nonneg
    rw [if_neg (mt (negative_iff _).mp above)]
    exact ⟨r, hr, by simp [r_val, nonneg, above]⟩

end Clamped

/-- The bits of `a << b` for a type of `w` bits, where `a` is read without a sign. -/
def leftShifted (w : Nat) (a b : Int) : Int :=
  if 0 ≤ b ∧ b < w then a * 2 ^ b.toNat % 2 ^ w
  else if -w < b ∧ b < 0 then a / 2 ^ (-b).toNat
  else 0

/-- The bits of `a >> b`. -/
def rightShifted (w : Nat) (a b : Int) : Int :=
  if 0 ≤ b ∧ b < w then a / 2 ^ b.toNat
  else if -w < b ∧ b < 0 then a * 2 ^ (-b).toNat % 2 ^ w
  else 0

theorem shl_u (a b : Integer For) :
    ∃ r, a.shl b = some r ∧ r.u.val = leftShifted For.bits a.u.val b.underlying.val :=
  shiftBy_u a.shiftLeft_bits a.shiftRight_bits b

theorem shr_u (a b : Integer For) :
    ∃ r, a.shr b = some r ∧ r.u.val = rightShifted For.bits a.u.val b.underlying.val :=
  shiftBy_u a.shiftRight_bits a.shiftLeft_bits b

/-- A right shift is a left shift by the opposite amount. -/
theorem leftShifted_neg {w : Nat} {a : Int} (wide : 0 < w) (nonneg : 0 ≤ a) (small : a < 2 ^ w)
    (b : Int) : leftShifted w a (-b) = rightShifted w a b := by
  rcases eq_or_ne b 0 with rfl | nonzero
  · simp [leftShifted, rightShifted, wide, Int.emod_eq_of_lt nonneg small]
  · have along : (0 ≤ -b ∧ -b < w) ↔ (-w < b ∧ b < 0) := by omega
    have opposite : (-w < -b ∧ -b < 0) ↔ (0 ≤ b ∧ b < w) := by omega
    simp only [leftShifted, rightShifted, along, opposite, neg_neg]
    split_ifs <;> first | rfl | omega

/-- The negation of `lowest()` saturates to an amount that clears the bits as well. -/
theorem leftShifted_of_neg (signed : For.signed = true) (a : Integer For) {b n : Integer For}
    (hn : n.underlying.val =
      if b.underlying.val = For.lowest then For.highest else -b.underlying.val) :
    leftShifted For.bits a.u.val n.underlying.val =
      rightShifted For.bits a.u.val b.underlying.val ∧
    rightShifted For.bits a.u.val n.underlying.val =
      leftShifted For.bits a.u.val b.underlying.val := by
  have mirrored := leftShifted_neg (by have := For.eight_le_bits; omega) a.u_inRange.1 a.u_inRange.2
  split_ifs at hn with extreme
  · have far : For.lowest ≤ -For.bits ∧ For.bits ≤ For.highest := by
      rcases For with ⟨_ | _ | _ | _, _ | _⟩ <;> cases signed <;> decide
    rw [hn, extreme]
    simp only [leftShifted, rightShifted]
    split_ifs <;> first | exact ⟨rfl, rfl⟩ | omega
  · rw [hn]
    refine ⟨mirrored b.underlying.val, ?_⟩
    rw [← mirrored, neg_neg]

/-- Every shift is defined, and moves the bits of `a` by `b`. With a signed amount, a shift is the
other one by the negated amount, also where the negation saturates. -/
theorem shifts (a b : Integer For) :
    (∃ r, a.shl b = some r ∧ r.u.val = leftShifted For.bits a.u.val b.underlying.val) ∧
    (∃ r, a.shr b = some r ∧ r.u.val = rightShifted For.bits a.u.val b.underlying.val) ∧
    (For.signed = true → ∃ n, b.neg = some n ∧ a.shr b = a.shl n ∧ a.shl b = a.shr n) := by
  refine ⟨shl_u a b, shr_u a b, fun signed => ?_⟩
  obtain ⟨n, hn, n_val⟩ := neg_val signed b
  obtain ⟨left_n, right_n⟩ := leftShifted_of_neg signed a n_val
  obtain ⟨left, hleft, left_u⟩ := shl_u a b
  obtain ⟨right, hright, right_u⟩ := shr_u a b
  obtain ⟨left', hleft', left'_u⟩ := shl_u a n
  obtain ⟨right', hright', right'_u⟩ := shr_u a n
  refine ⟨n, hn, ?_, ?_⟩
  · rw [hright, hleft', u_injective (right_u.trans (left_n.symm.trans left'_u.symm))]
  · rw [hleft, hright', u_injective (left_u.trans (right_n.symm.trans right'_u.symm))]

end LibCxxExt.Sys.Integer
