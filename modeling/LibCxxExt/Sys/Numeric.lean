import LibCxxExt.ProofKit.BinaryFloat
import LibCxxExt.ProofKit.CInteger

/-! The casts of floating-point values to integers. The limits of the integer type are converted to
the floating-point type before they are compared, and its maximum is rounded up when it has more
bits than the significand. -/

namespace LibCxxExt.Sys.Numeric

open LibCxxExt.ProofKit LibCxxExt.ProofKit.BinaryFormat

variable {f : BinaryFormat}

/-- `bsentinel<T>()`, of a character type or of another one. -/
def bsentinel (T : IntTy) (character : Bool) : Int :=
  if character then 0 else if T.signed then T.lowest else T.highest

/-- `To(value)`, which is undefined when `To` does not hold the truncated value. -/
def convert (To : IntTy) : f.Value → Option Int
  | .finite x => if To.InRange (truncate x.value) then some (truncate x.value) else none
  | _ => none

/-- The saturating `bnumeric_cast<To>(value, unsafe)`. -/
def bnumericCastUnsafe (To : IntTy) (character : Bool) (value : f.Value) : Option Int :=
  if value.isNan then some (bsentinel To character)
  else if value.le (f.ofInt To.lowest) then some To.lowest
  else if (f.ofInt To.highest).le value then some To.highest
  else convert To value

/-- `bnumeric_cast<To>(value)`: a value, or `nullptr`. -/
def bnumericCast (To : IntTy) (value : f.Value) : Option (Except Unit Int) :=
  if (f.ofInt To.lowest).le value && value.le (f.ofInt To.highest) then do
    return .ok (← convert To value)
  else some (.error ())

/-! ### The limits -/

/-- `numeric_limits<T>::digits`. -/
def valueBits (T : IntTy) : Nat := if T.signed then T.bits - 1 else T.bits

theorem highest_eq (T : IntTy) : T.highest = ((2 ^ valueBits T - 1 : Nat) : Int) := by
  rcases T with ⟨_ | _ | _ | _, _ | _⟩ <;> rfl

theorem highest_add_one (T : IntTy) : (T.highest : ℚ) + 1 = 2 ^ valueBits T := by
  have pos := Nat.two_pow_pos (valueBits T)
  have same : T.highest + 1 = ((2 ^ valueBits T : Nat) : Int) := by
    rw [highest_eq]
    omega
  exact_mod_cast same

theorem lowest_natAbs (T : IntTy) :
    T.lowest.natAbs = 0 ∨ T.lowest.natAbs = 2 ^ valueBits T := by
  rcases T with ⟨_ | _ | _ | _, _ | _⟩ <;> simp [IntTy.lowest, valueBits]

theorem roundInt_lowest (T : IntTy) : roundInt f.digits T.lowest = T.lowest := by
  refine roundInt_of_hasDigits f.digits_pos ?_
  rcases lowest_natAbs T with zero | power
  · rw [zero]
    exact hasDigits_of_lt (Nat.two_pow_pos _)
  · rw [power]
    exact hasDigits_two_pow f.digits_pos _

theorem roundInt_highest (T : IntTy) : roundInt f.digits T.highest =
    if f.digits < valueBits T then T.highest + 1 else T.highest := by
  rw [highest_eq]
  have pos := Nat.two_pow_pos (valueBits T)
  split_ifs with short
  · rw [roundInt_natCast, roundNat_two_pow_sub_one f.digits_pos short]
    omega
  · refine roundInt_of_hasDigits f.digits_pos (hasDigits_of_lt ?_)
    have := Nat.pow_le_pow_right Nat.two_pos (Nat.not_lt.mp short)
    omega

theorem inRange_truncate_iff (T : IntTy) (x : ℚ) :
    T.InRange (truncate x) ↔ (T.lowest : ℚ) - 1 < x ∧ x < T.highest + 1 := by
  have zero := T.inRange_zero
  rw [IntTy.InRange, le_truncate_iff zero.1, truncate_le_iff zero.2]

theorem convert_of_inRange {To : IntTy} {v : f.Finite} (inside : To.InRange (truncate v.value)) :
    convert To (.finite v) = some (truncate v.value) :=
  if_pos inside

/-! ### The casts of finite values -/

/-- The saturating cast is always defined: it compares the maximum the other way, so that a value it
converts is below the rounded one. -/
theorem bnumericCastUnsafe_finite (To : IntTy) (character : Bool) (v : f.Finite) :
    bnumericCastUnsafe To character (.finite v) = some (To.clamp (truncate v.value)) := by
  have notNan : (Value.finite v).isNan = false := rfl
  rw [bnumericCastUnsafe, notNan, if_neg Bool.false_ne_true]
  simp only [finite_le_ofInt, ofInt_le_finite, roundInt_lowest, roundInt_highest]
  by_cases low : v.value ≤ To.lowest
  · rw [if_pos low, IntTy.clamp_of_le_lowest (truncate_le low)]
  rw [if_neg low]
  split_ifs with short high high
  · push_cast at high
    rw [IntTy.clamp_of_highest_le (le_truncate (by linarith))]
  · push_cast at high
    have inside := (inRange_truncate_iff To v.value).mpr ⟨by linarith, not_le.mp high⟩
    rw [convert_of_inRange inside, IntTy.clamp_of_inRange inside]
  · rw [IntTy.clamp_of_highest_le (le_truncate high)]
  · have inside := (inRange_truncate_iff To v.value).mpr ⟨by linarith, by linarith⟩
    rw [convert_of_inRange inside, IntTy.clamp_of_inRange inside]

theorem bnumericCast_eq (To : IntTy) (v : f.Finite) : bnumericCast To (.finite v) =
    if (To.lowest : ℚ) ≤ v.value ∧ v.value ≤ (roundInt f.digits To.highest : ℚ) then
      (convert To (.finite v)).map .ok
    else some (.error ()) := by
  simp only [bnumericCast, Bool.and_eq_true, finite_le_ofInt, ofInt_le_finite, roundInt_lowest]
  cases convert To (.finite v) <;> rfl

/-- The cast of `v` reports an error, or returns `v` truncated toward zero, which `To` holds. -/
def ConvertsInRange (To : IntTy) (v : f.Finite) : Prop :=
  bnumericCast To (.finite v) ≠ some (.error ()) →
    To.InRange (truncate v.value) ∧
      bnumericCast To (.finite v) = some (.ok (truncate v.value))

/-- The power of two above the maximum passes the comparison when the significand is shorter, and
its conversion is undefined. -/
theorem bnumericCast_two_pow {To : IntTy} {v : f.Finite} (short : f.digits < valueBits To)
    (edge : v.value = 2 ^ valueBits To) : bnumericCast To (.finite v) = none := by
  have low : (To.lowest : ℚ) ≤ 0 := by exact_mod_cast To.lowest_nonpos
  have pos : (0 : ℚ) < 2 ^ valueBits To := by positivity
  have outside : ¬ To.InRange (truncate v.value) := by
    rw [inRange_truncate_iff, highest_add_one, edge]
    exact fun inside => lt_irrefl _ inside.2
  rw [bnumericCast_eq, roundInt_highest, if_pos short, Int.cast_add, Int.cast_one,
    highest_add_one, edge, if_pos ⟨low.trans pos.le, le_refl _⟩, convert, if_neg outside]
  rfl

theorem ConvertsInRange.not_edge {To : IntTy} {v : f.Finite} (converts : ConvertsInRange To v) :
    ¬ (f.digits < valueBits To ∧ v.value = 2 ^ valueBits To) := by
  rintro ⟨short, edge⟩
  rw [ConvertsInRange, bnumericCast_two_pow short edge] at converts
  exact absurd (converts (by simp)).2 (by simp)

/-- The cast is in order for every value but the power of two above the maximum, to which the
maximum is rounded when it has more bits than the significand. -/
theorem convertsInRange_iff (To : IntTy) (v : f.Finite) :
    ConvertsInRange To v ↔ ¬ (f.digits < valueBits To ∧ v.value = 2 ^ valueBits To) := by
  constructor
  · exact ConvertsInRange.not_edge
  · intro safe accepted
    rw [bnumericCast_eq] at accepted ⊢
    split_ifs at accepted ⊢ with bounds
    · have below : v.value < (To.highest : ℚ) + 1 := by
        rw [roundInt_highest] at bounds
        split_ifs at bounds with short
        · push_cast at bounds
          refine lt_of_le_of_ne bounds.2 fun edge => safe ⟨short, ?_⟩
          rw [edge, highest_add_one]
        · linarith [bounds.2]
      have inside := (inRange_truncate_iff To v.value).mpr ⟨by linarith [bounds.1], below⟩
      exact ⟨inside, by rw [convert_of_inRange inside]; rfl⟩
    · exact absurd rfl accepted

def binary32 : BinaryFormat where
  digits := 24
  emin := -126
  emax := 127
  digits_pos := by decide
  emin_le := by decide

/-- `2147483648.0f`, one more than the largest `int32_t`. -/
def twoPow31 : binary32.Finite where
  value := 2 ^ 31
  representable := by
    refine ⟨?_, 1, 31, by decide, by decide, by norm_num⟩
    rw [abs_of_nonneg (by positivity)]
    exact pow_lt_pow_right₀ (by norm_num) (by decide)

theorem not_convertsInRange : ¬ ConvertsInRange ⟨.w32, true⟩ twoPow31 :=
  fun converts => converts.not_edge ⟨by decide, rfl⟩

end LibCxxExt.Sys.Numeric
