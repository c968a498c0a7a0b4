import LibCxxExt.ProofKit.Words
import LibCxxExt.Sys.IntegerDefined

/-! The operators of `integer<For>` on the words that its values are stored in. Where an operator is
defined, it is the one of the machine, with the saturation that the wrapper documents. -/

namespace LibCxxExt.Sys.Integer

open LibCxxExt.ProofKit

variable {For : IntTy}

def word (a : Integer For) : BitVec For.bits := a.underlying.rep

@[simp] theorem value_word (a : Integer For) : For.value a.word = a.underlying.val :=
  CInt.value_rep a.underlying

theorem word_injective {a b : Integer For} (same : a.word = b.word) : a = b :=
  Integer.ext (CInt.rep_injective same)

theorem word_eq (a : Integer For) : a.word = BitVec.ofInt For.bits a.underlying.val := rfl

theorem ofInt_u (a : Integer For) : BitVec.ofInt For.bits a.u.val = a.word :=
  ofInt_wrap (T := For.toUnsigned) (le_refl _) _

theorem word_of_wraps {r : Integer For} {v : Int} (wraps : r.underlying.val = For.wrap v) :
    r.word = BitVec.ofInt For.bits v := by
  rw [word_eq, wraps, ofInt_wrap (le_refl _)]

theorem word_truncating {T : IntTy} (x : CInt T) :
    (truncating x : Integer For).word = BitVec.ofInt For.bits x.val :=
  word_of_wraps rfl

theorem word_truncating_cast {T : IntTy} (x : CInt T) :
    (truncating (x.cast For) : Integer For).word = BitVec.ofInt For.bits x.val :=
  word_of_wraps (truncating_val _)

/-! ### The operators of the machine -/

/-- The least value of the type. -/
def lowestWord (T : IntTy) : BitVec T.bits := BitVec.ofInt _ T.lowest

def highestWord (T : IntTy) : BitVec T.bits := BitVec.ofInt _ T.highest

/-- A negative amount shifts in the opposite direction. -/
def shlWord (T : IntTy) (x y : BitVec T.bits) : BitVec T.bits :=
  if T.value y < 0 then x >>> (T.value y).natAbs else x <<< (T.value y).natAbs

def shrWord (T : IntTy) (x y : BitVec T.bits) : BitVec T.bits :=
  if T.value y < 0 then x <<< (T.value y).natAbs else x >>> (T.value y).natAbs

def divWord (T : IntTy) (x y : BitVec T.bits) : BitVec T.bits :=
  if y = 0 then if T.value x < 0 then lowestWord T else highestWord T
  else if T.signed then
    if x = lowestWord T ∧ y = -1 then highestWord T else x.sdiv y
  else x / y

def modWord (T : IntTy) (x y : BitVec T.bits) : BitVec T.bits :=
  if T.signed then x.srem y else x % y

def negWord (T : IntTy) (x : BitVec T.bits) : BitVec T.bits :=
  if x = lowestWord T then highestWord T else -x

/-- What the operator does to the words. -/
def Operator.onWords (T : IntTy) : Operator → BitVec T.bits → BitVec T.bits → BitVec T.bits
  | .preInc, x, _ | .postInc, x, _ => x + 1
  | .preDec, x, _ | .postDec, x, _ => x - 1
  | .neg, x, _ => negWord T x
  | .add, x, y => x + y
  | .sub, x, y => x - y
  | .mul, x, y => x * y
  | .div, x, y => divWord T x y
  | .mod, x, y => modWord T x y
  | .compl, x, _ => ~~~ x
  | .and, x, y => x &&& y
  | .or, x, y => x ||| y
  | .xor, x, y => x ^^^ y
  | .shl, x, y => shlWord T x y
  | .shr, x, y => shrWord T x y

/-! ### Arithmetic -/

theorem word_one : (BitVec.ofInt For.bits 1) = 1 := rfl

theorem word_preInc (a : Integer For) : ∃ r, a.preInc = some r ∧ r.word = a.word + 1 := by
  obtain ⟨r, run, wraps⟩ := preInc_val a
  exact ⟨r, run, by rw [word_of_wraps wraps, BitVec.ofInt_add, ← word_eq, word_one]⟩

theorem word_preDec (a : Integer For) : ∃ r, a.preDec = some r ∧ r.word = a.word - 1 := by
  obtain ⟨r, run, wraps⟩ := preDec_val a
  exact ⟨r, run, by rw [word_of_wraps wraps, ofInt_sub, ← word_eq, word_one]⟩

theorem word_add (a b : Integer For) : ∃ r, a.add b = some r ∧ r.word = a.word + b.word := by
  obtain ⟨x, hx, wraps⟩ := u_add a b
  refine ⟨truncating (x.cast For), by simp [add, hx], ?_⟩
  rw [word_of_wraps ((truncating_val _).trans wraps), BitVec.ofInt_add, ← word_eq, ← word_eq]

theorem word_sub (a b : Integer For) : ∃ r, a.sub b = some r ∧ r.word = a.word - b.word := by
  obtain ⟨x, hx, wraps⟩ := u_sub a b
  refine ⟨truncating (x.cast For), by simp [sub, hx], ?_⟩
  rw [word_of_wraps ((truncating_val _).trans wraps), ofInt_sub, ← word_eq, ← word_eq]

theorem word_mul {a b r : Integer For} (run : a.mul b = some r) : r.word = a.word * b.word := by
  obtain ⟨x, hx, result⟩ := Option.bind_eq_some_iff.mp run
  obtain rfl : truncating (x.cast For) = r := Option.some.inj result
  rw [word_of_wraps ((truncating_val _).trans (u_mul hx)), BitVec.ofInt_mul, ← word_eq, ← word_eq]

/-- Products are defined in every type that `int` holds the products of, or that is not narrower
than `int`. -/
theorem mul_defined (wide : For.width ≠ .w16) (a b : Integer For) : ∃ r, a.mul b = some r := by
  have defined := (mul_isSome_iff a b).mpr fun bad => wide bad.1
  obtain ⟨x, hx⟩ := Option.isSome_iff_exists.mp defined
  exact ⟨truncating (x.cast For), by simp [mul, hx]⟩

theorem word_eq_iff {v : Int} (inside : For.InRange v) (a : Integer For) :
    a.word = BitVec.ofInt For.bits v ↔ a.underlying.val = v := by
  rw [← value_word]
  constructor
  · intro same
    rw [same, value_ofInt inside]
  · intro same
    exact IntTy.value_injective (same.trans (value_ofInt inside).symm)

theorem word_of_val {a : Integer For} {v : Int} (same : a.underlying.val = v) :
    a.word = BitVec.ofInt For.bits v := by
  rw [word_eq, same]

theorem word_neg (signed : For.signed = true) (a : Integer For) :
    ∃ r, a.neg = some r ∧ r.word = negWord For a.word := by
  obtain ⟨r, run, val⟩ := neg_val signed a
  refine ⟨r, run, ?_⟩
  simp only [negWord, lowestWord, word_eq_iff For.inRange_lowest]
  split_ifs at val ⊢
  · exact word_of_val val
  · rw [word_of_val val, BitVec.ofInt_neg, ← word_eq]

theorem word_eq_zero_iff (a : Integer For) : a.word = 0 ↔ a.underlying.val = 0 :=
  word_eq_iff For.inRange_zero a

theorem inRange_minus_one (signed : For.signed = true) : For.InRange (-1) := by
  rcases For with ⟨_ | _ | _ | _, _ | _⟩ <;> cases signed <;> decide

theorem minus_one_word_iff (signed : For.signed = true) (a : Integer For) :
    a.word = -1 ↔ a.underlying.val = -1 := by
  rw [← word_eq_iff (inRange_minus_one signed), BitVec.ofInt_neg, word_one]

theorem word_div (a b : Integer For) :
    ∃ r, a.div b = some r ∧ r.word = divWord For a.word b.word := by
  obtain ⟨r, run, val⟩ := div_val a b
  refine ⟨r, run, ?_⟩
  simp only [divWord, word_eq_zero_iff, value_word]
  by_cases zero : b.underlying.val = 0
  · rw [if_pos zero] at val ⊢
    split_ifs at val ⊢ <;> exact word_of_val val
  rw [if_neg zero, clamp_tdiv] at val
  rw [if_neg zero]
  by_cases signed : For.signed = true
  · simp only [if_pos signed, lowestWord, word_eq_iff For.inRange_lowest,
      minus_one_word_iff signed]
    split_ifs at val ⊢ with extreme
    · exact word_of_val val
    · apply BitVec.eq_of_toInt_eq
      rw [BitVec.toInt_sdiv, ← IntTy.value_signed signed a.word, ← IntTy.value_signed signed b.word,
        value_word, value_word, word_of_val val, BitVec.toInt_ofInt]
  · rw [if_neg signed]
    rw [if_neg (fits_of_unsigned signed a b)] at val
    apply BitVec.eq_of_toNat_eq
    have left := value_word a
    have right := value_word b
    have result := value_word r
    rw [IntTy.value_unsigned signed] at left right result
    rw [BitVec.toNat_udiv]
    rw [val, ← left, ← right, Int.tdiv_eq_ediv_of_nonneg (Int.natCast_nonneg _)] at result
    exact_mod_cast result

theorem word_mod (a b : Integer For) :
    ∃ r, a.mod b = some r ∧ r.word = modWord For a.word b.word := by
  obtain ⟨r, run, val⟩ := mod_val a b
  refine ⟨r, run, ?_⟩
  have left := value_word a
  have right := value_word b
  have result := value_word r
  rw [modWord]
  split_ifs with signed
  · rw [IntTy.value_signed signed] at left right result
    apply BitVec.eq_of_toInt_eq
    rw [BitVec.toInt_srem, result, left, right, val]
  · rw [IntTy.value_unsigned signed] at left right result
    apply BitVec.eq_of_toNat_eq
    rw [BitVec.toNat_umod]
    rw [val, ← left, ← right, Int.tmod_eq_emod_of_nonneg (Int.natCast_nonneg _)] at result
    exact_mod_cast result

/-! ### Bits -/

theorem word_and (a b : Integer For) : (a.and b).word = a.word &&& b.word := by
  rw [and, word_truncating_cast, CInt.ofInt_and bits_le_common, ofInt_u, ofInt_u]

theorem word_or (a b : Integer For) : (a.or b).word = a.word ||| b.word := by
  rw [or, word_truncating_cast, CInt.ofInt_or bits_le_common, ofInt_u, ofInt_u]

theorem word_xor (a b : Integer For) : (a.xor b).word = a.word ^^^ b.word := by
  rw [xor, word_truncating_cast, CInt.ofInt_xor bits_le_common, ofInt_u, ofInt_u]

theorem word_compl (a : Integer For) : a.compl.word = ~~~ a.word := by
  rw [compl, word_truncating_cast]
  exact (CInt.ofInt_compl For.toUnsigned.bits_le_promoted a.u).trans (congrArg _ a.ofInt_u)

theorem word_toNat (a : Integer For) : (a.word.toNat : Int) = a.u.val := by
  rw [word_eq, BitVec.toNat_ofInt, Nat.cast_pow, Nat.cast_ofNat, ← u_val]
  exact Int.toNat_of_nonneg a.u_inRange.1

theorem word_of_u {r : Integer For} {x : BitVec For.bits} (same : r.u.val = x.toNat) :
    r.word = x := by
  apply BitVec.eq_of_toNat_eq
  exact Int.ofNat.inj ((word_toNat r).trans same)

/-- The amounts that clear the bits are those from the width on. -/
theorem leftShifted_word (x : BitVec For.bits) (amount : Int) :
    leftShifted For.bits x.toNat amount =
      (if amount < 0 then x >>> amount.natAbs else x <<< amount.natAbs).toNat := by
  have small := x.isLt
  unfold leftShifted
  split_ifs with inside negative opposite negative negative
  · omega
  · rw [BitVec.toNat_shiftLeft, Nat.shiftLeft_eq, ← Int.toNat_of_nonneg inside.1,
      Int.natAbs_natCast]
    push_cast
    rfl
  · rw [BitVec.toNat_ushiftRight, Nat.shiftRight_eq_div_pow,
      show (-amount).toNat = amount.natAbs by omega]
    push_cast
    rfl
  · omega
  · rw [BitVec.ushiftRight_eq_zero (by omega)]
    rfl
  · rw [BitVec.shiftLeft_eq_zero (by omega)]
    rfl

theorem rightShifted_word (x : BitVec For.bits) (amount : Int) :
    rightShifted For.bits x.toNat amount =
      (if amount < 0 then x <<< amount.natAbs else x >>> amount.natAbs).toNat := by
  have wide : 0 < For.bits := by have := For.eight_le_bits; omega
  have small : (x.toNat : Int) < 2 ^ For.bits := by exact_mod_cast x.isLt
  rw [← leftShifted_neg wide (Int.natCast_nonneg _) small, leftShifted_word, Int.natAbs_neg]
  rcases lt_trichotomy amount 0 with negative | rfl | positive
  · rw [if_neg (by omega), if_pos negative]
  · simp
  · rw [if_pos (by omega), if_neg (by omega)]

theorem word_shl (a b : Integer For) :
    ∃ r, a.shl b = some r ∧ r.word = shlWord For a.word b.word := by
  obtain ⟨r, run, bits⟩ := shl_u a b
  refine ⟨r, run, word_of_u ?_⟩
  rw [bits, ← word_toNat, leftShifted_word, shlWord, value_word]

theorem word_shr (a b : Integer For) :
    ∃ r, a.shr b = some r ∧ r.word = shrWord For a.word b.word := by
  obtain ⟨r, run, bits⟩ := shr_u a b
  refine ⟨r, run, word_of_u ?_⟩
  rw [bits, ← word_toNat, rightShifted_word, shrWord, value_word]

/-! ### Every operator -/

/-- A product of 16-bit values, the one operator that is not always defined. -/
def Operator.Risky (For : IntTy) (op : Operator) : Prop := op = .mul ∧ For.width = .w16

theorem computes_of_total {result : Option (Integer For)} {x : BitVec For.bits} {safe : Prop}
    (total : ∃ r, result = some r ∧ r.word = x) :
    (∀ r, result = some r → r.word = x) ∧ (safe → ∃ r, result = some r) := by
  obtain ⟨r, run, word⟩ := total
  exact ⟨fun r' run' => Option.some.inj (run.symm.trans run') ▸ word, fun _ => ⟨r, run⟩⟩

/-- What an operator returns is what the one of the machine does to the words. -/
theorem word_run {op : Operator} (declared : op.Declared For) (a b : Integer For) :
    (∀ r, op.run a b = some r → r.word = op.onWords For a.word b.word) ∧
      (¬ op.Risky For → ∃ r, op.run a b = some r) := by
  cases op with
  | mul =>
    exact ⟨fun r run => word_mul run, fun safe => mul_defined (fun wide => safe ⟨rfl, wide⟩) a b⟩
  | preInc => exact computes_of_total (word_preInc a)
  | preDec => exact computes_of_total (word_preDec a)
  | postInc =>
    obtain ⟨r, run, word⟩ := word_preInc a
    exact computes_of_total ⟨r, by simp [Operator.run, postInc_eq, run], word⟩
  | postDec =>
    obtain ⟨r, run, word⟩ := word_preDec a
    exact computes_of_total ⟨r, by simp [Operator.run, postDec_eq, run], word⟩
  | neg => exact computes_of_total (word_neg (declared rfl) a)
  | add => exact computes_of_total (word_add a b)
  | sub => exact computes_of_total (word_sub a b)
  | div => exact computes_of_total (word_div a b)
  | mod => exact computes_of_total (word_mod a b)
  | compl => exact computes_of_total ⟨_, rfl, word_compl a⟩
  | and => exact computes_of_total ⟨_, rfl, word_and a b⟩
  | or => exact computes_of_total ⟨_, rfl, word_or a b⟩
  | xor => exact computes_of_total ⟨_, rfl, word_xor a b⟩
  | shl => exact computes_of_total (word_shl a b)
  | shr => exact computes_of_total (word_shr a b)

end LibCxxExt.Sys.Integer
