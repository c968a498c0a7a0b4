import LibCxxExt.ProofKit.CInteger

/-! `sys::integer<For>` (`Integer.h`) and the saturating conversion that it is built on
(`Numeric.h`). An operator returns `none` where its C++ expression is undefined. -/

namespace LibCxxExt.Sys

open LibCxxExt.ProofKit

def NarrowerThan (narrower wider : IntTy) : Prop :=
  wider.lowest ≤ narrower.lowest ∧ narrower.highest ≤ wider.highest

instance (T U : IntTy) : Decidable (NarrowerThan T U) :=
  inferInstanceAs (Decidable (_ ∧ _))

/-- `bnumeric_cast<To>(value, unsafe)` for an integer `value`. -/
def bnumericCast {T : IntTy} (To : IntTy) (value : CInt T) : CInt To :=
  if value.val < To.lowest then .ofInt To To.lowest
  else if To.highest < value.val then .ofInt To To.highest
  else value.cast To

@[ext] structure Integer (For : IntTy) where
  underlying : CInt For
deriving DecidableEq

namespace Integer

variable {For : IntTy}

def saturating {T : IntTy} (v : CInt T) : Integer For :=
  if NarrowerThan T For then ⟨v.cast For⟩ else ⟨bnumericCast For v⟩

/-- `integer(v, unsafe)`. -/
def truncating {T : IntTy} (v : CInt T) : Integer For := ⟨v.cast For⟩

def u (a : Integer For) : CInt For.toUnsigned := a.underlying.cast _

def fixedWidth (For T : IntTy) : CInt T := .ofInt T For.bits

def highest : Integer For := saturating (.ofInt For For.highest)

def lowest : Integer For := saturating (.ofInt For For.lowest)

/-- `operator==(integer<T>, IBuiltinInteger auto)`. -/
def eqBuiltin {T : IntTy} (a : Integer For) (b : CInt T) : Bool :=
  if T = For then a.underlying.eq b else a.underlying.val = b.val

def preInc (a : Integer For) : Option (Integer For) := do
  return ⟨(← a.u.add (.ofInt For.toUnsigned 1)).cast For⟩

def preDec (a : Integer For) : Option (Integer For) := do
  return ⟨(← a.u.sub (.ofInt For.toUnsigned 1)).cast For⟩

/-- `operator++(int)`: what is returned and what `*this` becomes. -/
def postInc (a : Integer For) : Option (Integer For × Integer For) := do
  return (a, truncating (← a.u.add (.ofInt For.toUnsigned 1)))

def postDec (a : Integer For) : Option (Integer For × Integer For) := do
  return (a, truncating (← a.u.sub (.ofInt For.toUnsigned 1)))

/-- Declared for signed types only. -/
def neg (a : Integer For) : Option (Integer For) := do
  if a.underlying.eq (.ofInt For For.lowest) then
    return saturating ((CInt.ofInt For For.highest).cast For.promoted)
  else
    return saturating (← a.underlying.neg)

def add (a b : Integer For) : Option (Integer For) := do
  return truncating ((← a.u.add b.u).cast For)

def sub (a b : Integer For) : Option (Integer For) := do
  return truncating ((← a.u.sub b.u).cast For)

def mul (a b : Integer For) : Option (Integer For) := do
  return truncating ((← a.u.mul b.u).cast For)

/-- The test of `operator/` and `operator%` for a quotient that does not fit. -/
def overflows (a b : Integer For) : Option Bool := do
  if a.underlying.eq (lowest : Integer For).underlying then
    return b.eqBuiltin (← (CInt.ofInt For 1).neg)
  else
    return false

def div (a b : Integer For) : Option (Integer For) := do
  if b.underlying.eq (.ofInt .int 0) then
    if For.signed && a.underlying.lt (.ofInt .int 0) then
      return lowest
    return highest
  else
    if For.signed then
      if ← a.overflows b then
        return highest
    return saturating ((← a.underlying.div b.underlying).cast For)

def mod (a b : Integer For) : Option (Integer For) := do
  if b.underlying.eq (.ofInt .int 0) then
    return a
  else
    if For.signed then
      if ← a.overflows b then
        return saturating (.ofInt For 0)
    return saturating ((← a.underlying.mod b.underlying).cast For)

def compl (a : Integer For) : Integer For := truncating (a.u.compl.cast For)

def and (a b : Integer For) : Integer For := truncating ((a.u.and b.u).cast For)

def or (a b : Integer For) : Integer For := truncating ((a.u.or b.u).cast For)

def xor (a b : Integer For) : Integer For := truncating ((a.u.xor b.u).cast For)

/-- `integer(_as(-_as(inside, signed_t), For), unsafe)`: all ones or all zeros. -/
def mask (inside : Bool) : Option (Integer For) := do
  return truncating ((← (CInt.ofBool For.toSigned inside).neg).cast For)

/-- The shift by a negative `b` in the opposite direction, by `shift`. -/
def shiftOpposite (b : Integer For)
    (shift : CInt For.toUnsigned → Option (CInt For.toUnsigned.promoted)) :
    Option (Integer For) := do
  let least := (← (← (fixedWidth For For).neg).add (.ofInt For 1)).cast For
  let count := (← (b.underlying.max least).neg).cast For.toUnsigned
  let shifted := truncating ((← shift count).cast For)
  let inside := (← (fixedWidth For For).neg).lt b.underlying
  return shifted.and (← mask inside)

/-- The shift by a `b` that is not negative, by `shift`. -/
def shiftAlong (b : Integer For)
    (shift : CInt For.toUnsigned → Option (CInt For.toUnsigned.promoted)) :
    Option (Integer For) := do
  let most := (← (fixedWidth For For.toUnsigned).sub (.ofInt For.toUnsigned 1)).cast For.toUnsigned
  let shifted := truncating ((← shift (b.u.min most)).cast For)
  let inside := b.underlying.lt (fixedWidth For For)
  return shifted.and (← mask inside)

def shl (a b : Integer For) : Option (Integer For) :=
  if For.signed && b.underlying.lt (.ofInt .int 0) then b.shiftOpposite a.u.shr
  else b.shiftAlong a.u.shl

def shr (a b : Integer For) : Option (Integer For) :=
  if For.signed && b.underlying.lt (.ofInt .int 0) then b.shiftOpposite a.u.shl
  else b.shiftAlong a.u.shr

end Integer

end LibCxxExt.Sys
