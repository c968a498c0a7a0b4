import Mathlib.Data.Nat.Bitwise

/-! Finite sets of natural numbers as the bits of one number, so that two long lists are shown to
have no common element by one conjunction. -/

namespace LibCxxExt.ProofKit

def bitSet (ns : List Nat) : Nat := ns.foldr (fun n set => 1 <<< n ||| set) 0

theorem testBit_bitSet (ns : List Nat) (n : Nat) : (bitSet ns).testBit n = true ↔ n ∈ ns := by
  induction ns with
  | nil => simp [bitSet]
  | cons m ns ih =>
    have bits : bitSet (m :: ns) = 2 ^ m ||| bitSet ns := by rw [← Nat.one_shiftLeft]; rfl
    rw [bits, Nat.testBit_or, Bool.or_eq_true, ih, Nat.testBit_two_pow, decide_eq_true_eq,
      List.mem_cons, eq_comm]

theorem not_mem_of_bitSet_and {ns ms : List Nat} (apart : bitSet ns &&& bitSet ms = 0) {n : Nat}
    (member : n ∈ ms) : n ∉ ns := by
  intro both
  have bit : (bitSet ns &&& bitSet ms).testBit n = true := by
    rw [Nat.testBit_and, (testBit_bitSet ns n).mpr both, (testBit_bitSet ms n).mpr member]
    rfl
  rw [apart, Nat.zero_testBit] at bit
  exact Bool.noConfusion bit

end LibCxxExt.ProofKit
