import LibCxxExt.Sys.IntegerDivision
import LibCxxExt.Sys.IntegerShifts

/-! The operators of `integer<For>` are defined for every width, signedness and pair of operands,
and the additive ones and `*` wrap, with one exception: the product of two 16-bit values is computed
in `int`, which does not hold every such product. -/

namespace LibCxxExt.Sys.Integer

open LibCxxExt.ProofKit

variable {For : IntTy}

/-- The operators that the wrapper declares; the assigning forms are defined by these. -/
inductive Operator
  | preInc | preDec | postInc | postDec | neg | add | sub | mul | div | mod
  | compl | and | or | xor | shl | shr

namespace Operator

/-- The result, or for an increment the value that is left in `*this`. -/
def run : Operator → Integer For → Integer For → Option (Integer For)
  | preInc, a, _ => a.preInc
  | preDec, a, _ => a.preDec
  | postInc, a, _ => a.postInc.map Prod.snd
  | postDec, a, _ => a.postDec.map Prod.snd
  | neg, a, _ => a.neg
  | add, a, b => a.add b
  | sub, a, b => a.sub b
  | mul, a, b => a.mul b
  | div, a, b => a.div b
  | mod, a, b => a.mod b
  | compl, a, _ => some a.compl
  | and, a, b => some (a.and b)
  | or, a, b => some (a.or b)
  | xor, a, b => some (a.xor b)
  | shl, a, b => a.shl b
  | shr, a, b => a.shr b

def Declared (For : IntTy) (op : Operator) : Prop := op = neg → For.signed = true

/-- The exact result that a documented wrapping operator wraps. -/
def exact : Operator → Int → Int → Option Int
  | preInc, a, _ | postInc, a, _ => some (a + 1)
  | preDec, a, _ | postDec, a, _ => some (a - 1)
  | add, a, b => some (a + b)
  | sub, a, b => some (a - b)
  | mul, a, b => some (a * b)
  | _, _, _ => none

/-- The operator is defined on the operands and wraps where it is documented to. -/
def DefinedAt (op : Operator) (a b : Integer For) : Prop :=
  op.Declared For → ∃ r, op.run a b = some r ∧
    ∀ v, op.exact a.underlying.val b.underlying.val = some v → r.underlying.val = For.wrap v

theorem definedAt_of_run {op : Operator} {a b r : Integer For} (run : op.run a b = some r)
    (unspecified : ∀ x y, op.exact x y = none) : op.DefinedAt a b :=
  fun _ => ⟨r, run, fun v hv => by simp [unspecified] at hv⟩

theorem definedAt_of_wraps {op : Operator} {a b r : Integer For} {v : Int}
    (run : op.run a b = some r) (wraps : r.underlying.val = For.wrap v)
    (exact : op.exact a.underlying.val b.underlying.val = some v) : op.DefinedAt a b :=
  fun _ => ⟨r, run, fun _ hw => Option.some.inj (exact.symm.trans hw) ▸ wraps⟩

theorem mul_definedAt_iff (a b : Integer For) :
    mul.DefinedAt a b ↔ ¬ (For.width = .w16 ∧ 2 ^ 31 ≤ a.u.val * b.u.val) := by
  rw [← mul_isSome_iff]
  constructor
  · intro defined
    obtain ⟨r, run, _⟩ := defined nofun
    rw [Option.isSome_iff_exists]
    exact Option.bind_eq_some_iff.mp run |>.imp fun _ => And.left
  · intro defined
    obtain ⟨x, hx⟩ := Option.isSome_iff_exists.mp defined
    exact definedAt_of_wraps (by simp [run, Integer.mul, hx])
      ((truncating_val _).trans (u_mul hx)) rfl

/-- An operator is defined and wraps, but for products of 16-bit values that `int` does not hold. -/
theorem definedAt_iff (op : Operator) (a b : Integer For) :
    op.DefinedAt a b ↔ ¬ (op = mul ∧ For.width = .w16 ∧ 2 ^ 31 ≤ a.u.val * b.u.val) := by
  by_cases product : op = mul
  · subst product
    rw [mul_definedAt_iff]
    simp
  refine iff_of_true ?_ fun bad => product bad.1
  cases op with
  | preInc =>
    obtain ⟨r, run, wraps⟩ := preInc_val a
    exact definedAt_of_wraps run wraps rfl
  | preDec =>
    obtain ⟨r, run, wraps⟩ := preDec_val a
    exact definedAt_of_wraps run wraps rfl
  | postInc =>
    obtain ⟨r, prefixed, wraps⟩ := preInc_val a
    exact definedAt_of_wraps (by simp [run, postInc_eq, prefixed]) wraps rfl
  | postDec =>
    obtain ⟨r, prefixed, wraps⟩ := preDec_val a
    exact definedAt_of_wraps (by simp [run, postDec_eq, prefixed]) wraps rfl
  | add =>
    obtain ⟨x, hx, wraps⟩ := u_add a b
    exact definedAt_of_wraps (by simp [run, Integer.add, hx])
      ((truncating_val _).trans wraps) rfl
  | sub =>
    obtain ⟨x, hx, wraps⟩ := u_sub a b
    exact definedAt_of_wraps (by simp [run, Integer.sub, hx])
      ((truncating_val _).trans wraps) rfl
  | mul => exact absurd rfl product
  | neg =>
    intro declared
    obtain ⟨n, hn, _⟩ := neg_val (declared rfl) a
    exact definedAt_of_run hn (fun _ _ => rfl) declared
  | div => exact definedAt_of_run (div_val a b).choose_spec.1 fun _ _ => rfl
  | mod => exact definedAt_of_run (mod_val a b).choose_spec.1 fun _ _ => rfl
  | shl => exact definedAt_of_run (shl_u a b).choose_spec.1 fun _ _ => rfl
  | shr => exact definedAt_of_run (shr_u a b).choose_spec.1 fun _ _ => rfl
  | compl | and | or | xor => exact definedAt_of_run rfl fun _ _ => rfl

/-- The square of the 16-bit `-1` is computed as `65535 * 65535`. -/
theorem mul_undefined : ∃ a : Integer ⟨.w16, true⟩, a.underlying.val = -1 ∧ a.mul a = none ∧
    ¬ mul.DefinedAt a a := by
  let a : Integer ⟨.w16, true⟩ := ⟨-1, by decide⟩
  have undefined : a.mul a = none := by decide
  refine ⟨a, rfl, undefined, fun defined => ?_⟩
  obtain ⟨r, run, _⟩ := defined nofun
  exact nomatch undefined.symm.trans run

end Operator

end LibCxxExt.Sys.Integer
