import LibCxxExt.Text.Char

/-! The shape of the functions `dchar_to_lower_special`, `dchar_to_upper_special` and
`dchar_fold_special` (`UnicodeCasing.h`): a chain of conditional rules, a `switch` over the
unconditional mappings and a simple mapping behind them. -/

namespace LibCxxExt.Text

structure ForwardCasingContext where
  isPrecededByCased : Bool := false
  afterSoftDotted : Bool := false
  afterI : Bool := false
  deriving DecidableEq, Repr

structure LookaheadCasingContext where
  followedByCased : Bool := false
  moreAbove : Bool := false
  beforeDot : Bool := false
  deriving DecidableEq, Repr

/-- The languages that the rules ask for. -/
inductive Language
  | tr
  | az
  | lt
  deriving DecidableEq, Repr

/-- The literal that `lang` is compared with. -/
def Language.tag : Language → List UInt8
  | tr => [0x74, 0x72]
  | az => [0x61, 0x7A]
  | lt => [0x6C, 0x74]

/-- The keys of `CONDITION_MAP` in `generate_unicode_casing.py`. -/
inductive Condition
  | finalSigma
  | afterSoftDotted
  | moreAbove
  | afterI
  | beforeDot
  | notBeforeDot
  deriving DecidableEq, Repr

/-- The values of `CONDITION_MAP`. -/
def Condition.eval (fctx : ForwardCasingContext) (lctx : LookaheadCasingContext) :
    Condition → Bool
  | finalSigma => fctx.isPrecededByCased && !lctx.followedByCased
  | afterSoftDotted => fctx.afterSoftDotted
  | moreAbove => lctx.moreAbove
  | afterI => fctx.afterI
  | beforeDot => lctx.beforeDot
  | notBeforeDot => !lctx.beforeDot

/-- The test of `if (c == … && lang == … && …)`. -/
structure Guard where
  cp : UInt32
  language : Option Language
  condition : Option Condition
  deriving DecidableEq, Repr

def Guard.holds (g : Guard) (c : UInt32) (lang : List UInt8) (fctx : ForwardCasingContext)
    (lctx : LookaheadCasingContext) : Bool :=
  c == g.cp && g.language.all (fun l => lang == l.tag) && g.condition.all (·.eval fctx lctx)

/-- A conditional rule: its test, and what its block stores before it returns. -/
structure Rule extends Guard where
  mapping : List UInt32
  deriving DecidableEq, Repr

/-- What a special mapping function stores for `c`. -/
def specialMapping (rules : List Rule) (cases : UInt32 → Option (List UInt32))
    (simple : UInt32 → UInt32) (c : UInt32) (lang : List UInt8) (fctx : ForwardCasingContext)
    (lctx : LookaheadCasingContext) : List UInt32 :=
  match rules.find? (·.holds c lang fctx lctx) with
  | some rule => rule.mapping
  | none => (cases c).getD [simple c]

/-- The stores `out[0] = …; out[1] = …;` and the number that is returned. -/
def storeMapping (out mapping : List UInt32) : Option (List UInt32 × Nat) := do
  return (← copy out 0 mapping, mapping.length)

end LibCxxExt.Text
