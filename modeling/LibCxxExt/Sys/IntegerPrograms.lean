import LibCxxExt.Sys.IntegerWords
import LibCxxExt.Sys.BitTwiddling

/-! Whole computations with `integer`: expressions that mix types through the saturating and the
truncating conversions, and the assignments that client code makes of them. They do to the values
what the machine does to the words, with the saturation that the wrapper documents. -/

namespace LibCxxExt.Sys

open LibCxxExt.ProofKit

namespace Integer

theorem saturating_clamp {T For : IntTy} (v : CInt T) :
    (saturating v : Integer For).underlying.val = For.clamp v.val := by
  rw [saturating, bnumericCast]
  split_ifs with narrower below above
  · have inside : For.InRange v.val :=
      ⟨narrower.1.trans v.inRange.1, v.inRange.2.trans narrower.2⟩
    rw [CInt.cast_val, IntTy.wrap_of_inRange inside, IntTy.clamp_of_inRange inside]
  · rw [CInt.ofInt_val, IntTy.wrap_of_inRange For.inRange_lowest,
      IntTy.clamp_of_le_lowest below.le]
  · rw [CInt.ofInt_val, IntTy.wrap_of_inRange For.inRange_highest,
      IntTy.clamp_of_highest_le above.le]
  · have inside : For.InRange v.val := ⟨not_lt.mp below, not_lt.mp above⟩
    rw [CInt.cast_val, IntTy.wrap_of_inRange inside, IntTy.clamp_of_inRange inside]

namespace Operator

/-- The operators with one operand that leave it as it is. -/
def unary : Operator → Bool
  | neg | compl => true
  | _ => false

def binary : Operator → Bool
  | preInc | preDec | postInc | postDec | neg | compl => false
  | _ => true

end Operator

end Integer

open Integer

/-- An expression of type `integer<T>` that changes no variable. -/
inductive IntegerExpr : IntTy → Type
  | var {T : IntTy} (x : Nat) : IntegerExpr T
  | const {T : IntTy} (c : Integer T) : IntegerExpr T
  | unary {T : IntTy} (op : Operator) (unary : op.unary = true) (declared : op.Declared T)
    (e : IntegerExpr T) : IntegerExpr T
  | binary {T : IntTy} (op : Operator) (binary : op.binary = true) (declared : op.Declared T)
    (e e' : IntegerExpr T) : IntegerExpr T
  | saturate {T U : IntTy} (e : IntegerExpr T) : IntegerExpr U
  | truncate {T U : IntTy} (e : IntegerExpr T) : IntegerExpr U

/-- The variables of each type. -/
abbrev Variables := (T : IntTy) → Nat → Integer T

/-- What the variables are stored in. -/
abbrev Words := (T : IntTy) → Nat → BitVec T.bits

def Variables.words (vars : Variables) : Words := fun T x => (vars T x).word

namespace IntegerExpr

def eval (vars : Variables) : {T : IntTy} → IntegerExpr T → Option (Integer T)
  | T, var x => some (vars T x)
  | _, const c => some c
  | _, unary op _ _ e => do
    let a ← e.eval vars
    op.run a a
  | _, binary op _ _ e e' => do
    let a ← e.eval vars
    let b ← e'.eval vars
    op.run a b
  | _, saturate e => (e.eval vars).map fun a => saturating a.underlying
  | _, truncate e => (e.eval vars).map fun a => truncating a.underlying

/-- What the operators of the machine compute, with the documented saturation. -/
def onWords (words : Words) : {T : IntTy} → IntegerExpr T → BitVec T.bits
  | T, var x => words T x
  | _, const c => c.word
  | T, unary op _ _ e => op.onWords T (e.onWords words) (e.onWords words)
  | T, binary op _ _ e e' => op.onWords T (e.onWords words) (e'.onWords words)
  | U, saturate (T := T) e => BitVec.ofInt U.bits (U.clamp (T.value (e.onWords words)))
  | U, truncate (T := T) e => BitVec.ofInt U.bits (T.value (e.onWords words))

/-- No product of 16-bit values is taken. -/
def Safe : {T : IntTy} → IntegerExpr T → Prop
  | _, var _ | _, const _ => True
  | T, unary op _ _ e => ¬ op.Risky T ∧ e.Safe
  | T, binary op _ _ e e' => ¬ op.Risky T ∧ e.Safe ∧ e'.Safe
  | _, saturate e | _, truncate e => e.Safe

variable {T : IntTy} {vars : Variables}

theorem eval_word (e : IntegerExpr T) {r : Integer T} (run : e.eval vars = some r) :
    r.word = e.onWords vars.words := by
  induction e with
  | var x =>
    obtain rfl := Option.some.inj run
    rfl
  | const c =>
    obtain rfl := Option.some.inj run
    rfl
  | unary op _ declared e ih =>
    obtain ⟨a, ha, applied⟩ := Option.bind_eq_some_iff.mp run
    rw [onWords, ← ih ha]
    exact (word_run declared a a).1 r applied
  | binary op _ declared e e' ih ih' =>
    obtain ⟨a, ha, rest⟩ := Option.bind_eq_some_iff.mp run
    obtain ⟨b, hb, applied⟩ := Option.bind_eq_some_iff.mp rest
    rw [onWords, ← ih ha, ← ih' hb]
    exact (word_run declared a b).1 r applied
  | saturate e ih =>
    obtain ⟨a, ha, rfl⟩ := Option.map_eq_some_iff.mp run
    rw [onWords, ← ih ha, value_word]
    exact word_of_val (saturating_clamp a.underlying)
  | truncate e ih =>
    obtain ⟨a, ha, rfl⟩ := Option.map_eq_some_iff.mp run
    rw [onWords, ← ih ha, value_word]
    exact word_truncating a.underlying

theorem eval_defined (e : IntegerExpr T) (safe : e.Safe) : ∃ r, e.eval vars = some r := by
  induction e with
  | var x => exact ⟨_, rfl⟩
  | const c => exact ⟨c, rfl⟩
  | unary op _ declared e ih =>
    obtain ⟨a, ha⟩ := ih safe.2
    rw [eval, ha]
    exact (word_run declared a a).2 safe.1
  | binary op _ declared e e' ih ih' =>
    obtain ⟨a, ha⟩ := ih safe.2.1
    obtain ⟨b, hb⟩ := ih' safe.2.2
    rw [eval, ha, hb]
    exact (word_run declared a b).2 safe.1
  | saturate e ih =>
    obtain ⟨a, ha⟩ := ih safe
    exact ⟨_, congrArg _ ha⟩
  | truncate e ih =>
    obtain ⟨a, ha⟩ := ih safe
    exact ⟨_, congrArg _ ha⟩

end IntegerExpr

/-- `x = e`, `x op= e`, `++x`, `--x`, `y = x++` and `y = x--`. -/
inductive Assignment
  | assign {T : IntTy} (x : Nat) (e : IntegerExpr T)
  | compound {T : IntTy} (x : Nat) (op : Operator) (binary : op.binary = true)
    (declared : op.Declared T) (e : IntegerExpr T)
  | increment (T : IntTy) (x : Nat)
  | decrement (T : IntTy) (x : Nat)
  | postIncrement (T : IntTy) (y x : Nat)
  | postDecrement (T : IntTy) (y x : Nat)

/-- The assignment to one variable. -/
def store {V : IntTy → Type} (vars : (T : IntTy) → Nat → V T) {T : IntTy} (x : Nat) (v : V T) :
    (T : IntTy) → Nat → V T :=
  Function.update vars T (Function.update (vars T) x v)

namespace Assignment

def run (vars : Variables) : Assignment → Option Variables
  | assign x e => (e.eval vars).map (store vars x)
  | compound (T := T) x op _ _ e => do
    let b ← e.eval vars
    let r ← op.run (vars T x) b
    return store vars x r
  | increment T x => (vars T x).preInc.map (store vars x)
  | decrement T x => (vars T x).preDec.map (store vars x)
  -- The increment comes before the assignment of the old value, also where `y` is `x`.
  | postIncrement T y x => (vars T x).postInc.map fun (ret, left) => store (store vars x left) y ret
  | postDecrement T y x => (vars T x).postDec.map fun (ret, left) => store (store vars x left) y ret

def onWords (words : Words) : Assignment → Words
  | assign x e => store words x (e.onWords words)
  | compound (T := T) x op _ _ e => store words x (op.onWords T (words T x) (e.onWords words))
  | increment T x => store words x (words T x + 1)
  | decrement T x => store words x (words T x - 1)
  | postIncrement T y x => store (store words x (words T x + 1)) y (words T x)
  | postDecrement T y x => store (store words x (words T x - 1)) y (words T x)

def Safe : Assignment → Prop
  | assign _ e => e.Safe
  | compound (T := T) _ op _ _ e => ¬ op.Risky T ∧ e.Safe
  | increment _ _ | decrement _ _ | postIncrement _ _ _ | postDecrement _ _ _ => True

end Assignment

theorem words_store (vars : Variables) {T : IntTy} (x : Nat) (v : Integer T) :
    Variables.words (store vars x v) = store vars.words x v.word := by
  funext U y
  unfold Variables.words store
  by_cases same : U = T
  · subst same
    by_cases here : y = x
    · subst here
      simp
    · simp [Function.update_of_ne here]
  · simp [Function.update_of_ne same]

namespace Assignment

variable {vars vars' : Variables}

theorem run_words (step : Assignment) (run : step.run vars = some vars') :
    vars'.words = step.onWords vars.words := by
  cases step with
  | assign x e =>
    obtain ⟨r, hr, rfl⟩ := Option.map_eq_some_iff.mp run
    rw [words_store, e.eval_word hr, onWords]
  | compound x op _ declared e =>
    obtain ⟨b, hb, rest⟩ := Option.bind_eq_some_iff.mp run
    obtain ⟨r, hr, result⟩ := Option.bind_eq_some_iff.mp rest
    obtain rfl := Option.some.inj result
    rw [words_store, (word_run declared _ b).1 r hr, e.eval_word hb, onWords]
    rfl
  | increment T x =>
    obtain ⟨r, hr, word⟩ := word_preInc (vars T x)
    rw [Assignment.run, hr] at run
    obtain rfl := Option.some.inj run
    rw [words_store, word, onWords]
    rfl
  | decrement T x =>
    obtain ⟨r, hr, word⟩ := word_preDec (vars T x)
    rw [Assignment.run, hr] at run
    obtain rfl := Option.some.inj run
    rw [words_store, word, onWords]
    rfl
  | postIncrement T y x =>
    obtain ⟨r, hr, word⟩ := word_preInc (vars T x)
    rw [Assignment.run, postInc_eq, hr] at run
    obtain rfl := Option.some.inj run
    rw [words_store, words_store, word, onWords]
    rfl
  | postDecrement T y x =>
    obtain ⟨r, hr, word⟩ := word_preDec (vars T x)
    rw [Assignment.run, postDec_eq, hr] at run
    obtain rfl := Option.some.inj run
    rw [words_store, words_store, word, onWords]
    rfl

theorem run_defined (step : Assignment) (safe : step.Safe) :
    ∃ vars', step.run vars = some vars' := by
  cases step with
  | assign x e =>
    obtain ⟨r, hr⟩ := e.eval_defined safe
    exact ⟨store vars x r, by rw [Assignment.run, hr]; rfl⟩
  | compound x op _ declared e =>
    obtain ⟨b, hb⟩ := e.eval_defined safe.2
    obtain ⟨r, hr⟩ := (word_run declared (vars _ x) b).2 safe.1
    exact ⟨_, by rw [Assignment.run, hb, Option.bind_eq_bind, Option.bind_some, hr]; rfl⟩
  | increment T x =>
    obtain ⟨r, hr, -⟩ := word_preInc (vars T x)
    exact ⟨store vars x r, by rw [Assignment.run, hr]; rfl⟩
  | decrement T x =>
    obtain ⟨r, hr, -⟩ := word_preDec (vars T x)
    exact ⟨store vars x r, by rw [Assignment.run, hr]; rfl⟩
  | postIncrement T y x =>
    obtain ⟨r, hr, -⟩ := word_preInc (vars T x)
    exact ⟨store (store vars x r) y (vars T x), by rw [Assignment.run, postInc_eq, hr]; rfl⟩
  | postDecrement T y x =>
    obtain ⟨r, hr, -⟩ := word_preDec (vars T x)
    exact ⟨store (store vars x r) y (vars T x), by rw [Assignment.run, postDec_eq, hr]; rfl⟩

end Assignment

/-- Code without products of 16-bit values is defined, and whatever is defined leaves in every
variable of every type the word that two's complement arithmetic leaves there, apart from what the
wrapper documents: the negation of the lowest value and its quotient by -1 are the highest value, a
quotient by zero is the lowest value for a negative dividend and else the highest one, the remainder
by zero is the dividend, and shifts are logical, in the opposite direction by a negative amount. -/
theorem programs_on_words (code : List Assignment) (vars : Variables) :
    (∀ vars', code.foldlM (fun vars step => step.run vars) vars = some vars' →
      vars'.words = code.foldl (fun words step => step.onWords words) vars.words) ∧
    ((∀ step ∈ code, step.Safe) →
      ∃ vars', code.foldlM (fun vars step => step.run vars) vars = some vars') := by
  induction code generalizing vars with
  | nil =>
    refine ⟨fun vars' run => ?_, fun _ => ⟨vars, rfl⟩⟩
    obtain rfl := Option.some.inj run
    rfl
  | cons step code ih =>
    constructor
    · intro vars' run
      rw [List.foldlM_cons] at run
      obtain ⟨middle, first, rest⟩ := Option.bind_eq_some_iff.mp run
      rw [List.foldl_cons, ← step.run_words first]
      exact (ih middle).1 vars' rest
    · intro safe
      obtain ⟨middle, first⟩ : ∃ middle, step.run vars = some middle :=
        step.run_defined (safe step List.mem_cons_self)
      obtain ⟨vars', rest⟩ := (ih middle).2 fun other mem => safe other (List.mem_cons_of_mem _ mem)
      exact ⟨vars', by rw [List.foldlM_cons, first]; exact rest⟩

/-! ### Pairs of bytes -/

abbrev u8 : IntTy := ⟨.w8, false⟩

abbrev u16 : IntTy := ⟨.w16, false⟩

abbrev i16 : IntTy := ⟨.w16, true⟩

def s16fb2 (msb lsb : Integer u8) : Option (Integer i16) := do
  let high ← (truncating msb.underlying : Integer u16).shl (literal 8)
  return truncating (high.or (truncating lsb.underlying)).underlying

def hbfs16 (val : Integer i16) : Option (Integer u8) := do
  let high ← (truncating val.underlying : Integer u16).shr (literal 8)
  return truncating high.underlying

def lbfs16 (val : Integer i16) : Integer u8 := truncating val.underlying

theorem word_truncating_narrow {T For : IntTy} (narrow : For.bits ≤ T.bits) (a : Integer T) :
    (truncating a.underlying : Integer For).word = a.word.setWidth For.bits := by
  rw [word_truncating, word_eq, CInt.setWidth_ofInt narrow]

/-- A wider type repeats no sign of an unsigned one. -/
theorem word_truncating_unsigned {T For : IntTy} (signed : ¬ T.signed = true) (a : Integer T) :
    (truncating a.underlying : Integer For).word = a.word.setWidth For.bits := by
  rw [word_truncating, ← value_word, IntTy.value_unsigned signed, BitVec.ofInt_natCast,
    BitVec.ofNat_toNat]

theorem value_eight : IntTy.value u16 (literal 8 : Integer u16).word = 8 := by
  rw [value_word, literal_val (by decide)]
  rfl

theorem s16fb2_word (msb lsb : Integer u8) : ∃ r, s16fb2 msb lsb = some r ∧
    r.word = msb.word ++ lsb.word := by
  obtain ⟨high, run, word⟩ := word_shl (truncating msb.underlying : Integer u16) (literal 8)
  refine ⟨truncating (high.or (truncating lsb.underlying)).underlying, by simp [s16fb2, run], ?_⟩
  rw [word_truncating_narrow (by decide), word_or, word, shlWord, value_eight,
    word_truncating_unsigned (by decide), word_truncating_unsigned (by decide),
    if_neg (by decide), BitVec.setWidth_eq]
  exact BitVec.setWidth_append_eq_shiftLeft_setWidth_or.symm.trans (BitVec.setWidth_eq _)

theorem hbfs16_word (val : Integer i16) : ∃ r, hbfs16 val = some r ∧
    r.word = val.word.extractLsb' 8 8 := by
  obtain ⟨high, run, word⟩ := word_shr (truncating val.underlying : Integer u16) (literal 8)
  refine ⟨truncating high.underlying, by simp [hbfs16, run], ?_⟩
  rw [word_truncating_narrow (by decide), word, shrWord, value_eight,
    word_truncating_narrow (by decide), if_neg (by decide), BitVec.setWidth_eq]
  exact BitVec.setWidth_ushiftRight_eq_extractLsb

theorem lbfs16_word (val : Integer i16) : (lbfs16 val).word = val.word.extractLsb' 0 8 := by
  rw [lbfs16, word_truncating_narrow (by decide)]
  exact BitVec.setWidth_eq_extractLsb' (by decide)

/-- A 16-bit integer and its two bytes stand for each other: every pair of bytes comes back out of
the integer that was made of it, and every integer is the one that is made of its bytes. -/
theorem bytes_roundtrip :
    (∀ msb lsb : Integer u8, ∃ val, s16fb2 msb lsb = some val ∧ hbfs16 val = some msb ∧
      lbfs16 val = lsb) ∧
    ∀ val : Integer i16, ∃ msb, hbfs16 val = some msb ∧ s16fb2 msb (lbfs16 val) = some val := by
  constructor
  · intro msb lsb
    obtain ⟨val, made, word⟩ := s16fb2_word msb lsb
    obtain ⟨high, taken, high_word⟩ := hbfs16_word val
    have same : high = msb := by
      apply word_injective
      rw [high_word, word]
      exact BitVec.extractLsb'_append_eq_left
    refine ⟨val, made, same ▸ taken, word_injective ?_⟩
    rw [lbfs16_word, word]
    exact BitVec.extractLsb'_append_eq_right
  · intro val
    obtain ⟨msb, taken, high⟩ := hbfs16_word val
    obtain ⟨back, made, word⟩ := s16fb2_word msb (lbfs16 val)
    have same : back = val := by
      apply word_injective
      rw [word, high, lbfs16_word]
      exact BitVec.extractLsb'_append_extractLsb'
    exact ⟨msb, taken, made.trans (congrArg some same)⟩

end LibCxxExt.Sys
