import LibCxxExt.Text.Casing

/-! The forward casing context by positions: each flag of `update_fcontext_for_char` tells whether
some codepoint before the current one counts and nothing strictly between the two interferes. -/

namespace LibCxxExt.Text

open LibCxxExt.ProofKit

/-- Some codepoint before position `i` satisfies `set`, and all strictly between satisfy `keeps`. -/
def Earlier (cps : List UInt32) (i : Nat) (set keeps : UInt32 → Prop) : Prop :=
  ∃ j < i, (∃ c, cps[j]? = some c ∧ set c) ∧
    ∀ k, j < k → k < i → ∀ d, cps[k]? = some d → keeps d

/-- The combining class is neither 0 nor 230. -/
def KeepsCombining (d : UInt32) : Prop := (dcharCcc d).value ≠ 0 ∧ (dcharCcc d).value ≠ 230

theorem interrupts_eq_false_iff (d : UInt32) : interrupts d = false ↔ KeepsCombining d := by
  rw [interrupts, KeepsCombining]
  cases dcharCcc d
  simp [resetsCombining, CanonicalCombiningClass.notReordered, CanonicalCombiningClass.above]

theorem notCaseIgnorable_eq_false_iff (d : UInt32) :
    notCaseIgnorable d = false ↔ dcharIsCaseIgnorable d = true := by
  simp [notCaseIgnorable]

/-- The loop over a list extends what the context knows by the list. -/
theorem foldl_updateFcontextForChar (before cps : List UInt32) :
    cps.foldl updateFcontextForChar (forwardContext before) =
      forwardContext (cps.reverse ++ before) := by
  induction cps generalizing before with
  | nil => rfl
  | cons c behind ih =>
    rw [List.foldl_cons, updateFcontextForChar_eq, ih, List.reverse_cons, List.append_assoc,
      List.singleton_append]

theorem sees_iff_earlier {cps : List UInt32} {i : Nat} {set reset : UInt32 → Bool}
    {keeps : UInt32 → Prop} (same : ∀ d, reset d = false ↔ keeps d) :
    Sees set reset (cps.take i).reverse ↔ Earlier cps i (set · = true) keeps := by
  rw [sees_reverse_take, Earlier]
  simp only [same]

/-- The context before position `i`, from the default one. -/
def contextAt (cps : List UInt32) (i : Nat) : ForwardCasingContext :=
  (cps.take i).foldl updateFcontextForChar {}

theorem contextAt_eq (cps : List UInt32) (i : Nat) :
    contextAt cps i = forwardContext (cps.take i).reverse := by
  rw [contextAt, ← forwardContext_nil, foldl_updateFcontextForChar, List.append_nil]

/-- The three flags, at every position of every list. -/
theorem contextAt_exact (cps : List UInt32) (i : Nat) :
    ((contextAt cps i).isPrecededByCased = true ↔
      Earlier cps i (dcharIsCased · = true) (dcharIsCaseIgnorable · = true)) ∧
    ((contextAt cps i).afterSoftDotted = true ↔
      Earlier cps i (dcharIsSoftDotted · = true) KeepsCombining) ∧
    ((contextAt cps i).afterI = true ↔ Earlier cps i (· = 0x49) KeepsCombining) := by
  rw [contextAt_eq]
  refine ⟨?_, ?_, ?_⟩
  · exact decide_eq_true_iff.trans (sees_iff_earlier notCaseIgnorable_eq_false_iff)
  · exact decide_eq_true_iff.trans (sees_iff_earlier interrupts_eq_false_iff)
  · refine decide_eq_true_iff.trans ((sees_iff_earlier interrupts_eq_false_iff).trans ?_)
    simp only [isI, beq_iff_eq]

end LibCxxExt.Text
