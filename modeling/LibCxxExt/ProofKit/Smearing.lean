import Mathlib.Data.Nat.Size
import Mathlib.Order.Bounds.Defs
import Mathlib.Tactic.Ring

/-! Bits of a natural number that spread downwards. A disjunction with right shifts by 1, 2, 4 and
so on fills every position below the highest bit, and the successor of the filled number is the next
power of two. -/

namespace LibCxxExt.ProofKit

/-- `n` after a disjunction with itself shifted right, for each amount in turn. -/
def smear (n : Nat) (amounts : List Nat) : Nat :=
  amounts.foldl (fun n amount => n ||| n >>> amount) n

/-- The amounts 1, 2, 4 and so on, `k` of them. -/
def doublings (k : Nat) : List Nat := (List.range k).map (2 ^ ·)

theorem smear_append_singleton (n : Nat) (amounts : List Nat) (amount : Nat) :
    smear n (amounts ++ [amount]) = smear n amounts ||| smear n amounts >>> amount := by
  rw [smear, List.foldl_append]
  rfl

theorem doublings_succ (k : Nat) : doublings (k + 1) = doublings k ++ [2 ^ k] := by
  rw [doublings, List.range_succ, List.map_append]
  rfl

/-- No amount brings in a bit above the highest one. -/
theorem smear_lt_two_pow {n b : Nat} (small : n < 2 ^ b) (amounts : List Nat) :
    smear n amounts < 2 ^ b := by
  induction amounts generalizing n with
  | nil => exact small
  | cons amount amounts ih =>
    have shifted : n >>> amount < 2 ^ b := (Nat.shiftRight_le n amount).trans_lt small
    exact ih (Nat.or_lt_two_pow small shifted)

/-- After `k` doublings a bit is set if one of the `2 ^ k` bits from its position on was. -/
theorem testBit_smear_doublings (n k i : Nat) :
    (smear n (doublings k)).testBit i = true ↔ ∃ j < 2 ^ k, n.testBit (i + j) = true := by
  induction k generalizing i with
  | zero => simp [smear, doublings]
  | succ k ih =>
    rw [doublings_succ, smear_append_singleton, Nat.testBit_or, Nat.testBit_shiftRight,
      Bool.or_eq_true, ih, ih, pow_succ]
    constructor
    · rintro (⟨j, below, bit⟩ | ⟨j, below, bit⟩)
      · exact ⟨j, by omega, bit⟩
      · exact ⟨2 ^ k + j, by omega, by rwa [← Nat.add_assoc, Nat.add_comm i]⟩
    · rintro ⟨j, below, bit⟩
      rcases lt_or_ge j (2 ^ k) with near | far
      · exact .inl ⟨j, near, bit⟩
      · refine .inr ⟨j - 2 ^ k, by omega, ?_⟩
        rwa [show 2 ^ k + i + (j - 2 ^ k) = i + j by omega]

/-- Enough doublings fill every position below the highest bit. -/
theorem smear_doublings {n k : Nat} (small : n < 2 ^ 2 ^ k) :
    smear n (doublings k) = 2 ^ n.size - 1 := by
  refine Nat.eq_of_testBit_eq fun i => ?_
  rw [Nat.testBit_two_pow_sub_one, Bool.eq_iff_iff, testBit_smear_doublings, decide_eq_true_eq,
    Nat.lt_size]
  constructor
  · rintro ⟨j, _, bit⟩
    exact (Nat.pow_le_pow_right (by decide) (Nat.le_add_right i j)).trans
      (Nat.ge_two_pow_of_testBit bit)
  · intro large
    obtain ⟨top, above, bit⟩ := Nat.exists_ge_and_testBit_of_ge_two_pow large
    have inside : top < 2 ^ k := by
      by_contra outside
      have high := (Nat.pow_le_pow_right (by decide) (not_lt.mp outside)).trans
        (Nat.ge_two_pow_of_testBit bit)
      exact absurd small (not_lt.mpr high)
    exact ⟨top - i, by omega, by rwa [show i + (top - i) = top by omega]⟩

/-- The least power of two that is at least `v`. -/
theorem isLeast_two_pow_size {v : Nat} (positive : 1 ≤ v) :
    IsLeast {p | v ≤ p ∧ ∃ e, p = 2 ^ e} (2 ^ (v - 1).size) := by
  refine ⟨⟨?_, _, rfl⟩, ?_⟩
  · have := Nat.lt_size_self (v - 1)
    omega
  · rintro _ ⟨enough, e, rfl⟩
    exact Nat.pow_le_pow_right (by decide) (Nat.size_le.mpr (by omega))

theorem isLeast_succ_smear {v k : Nat} (positive : 1 ≤ v) (small : v ≤ 2 ^ 2 ^ k) :
    IsLeast {p | v ≤ p ∧ ∃ e, p = 2 ^ e} (smear (v - 1) (doublings k) + 1) := by
  have filled : smear (v - 1) (doublings k) = 2 ^ (v - 1).size - 1 := smear_doublings (by omega)
  rw [filled, Nat.sub_add_cancel Nat.one_le_two_pow]
  exact isLeast_two_pow_size positive

end LibCxxExt.ProofKit
