import Mathlib.Data.List.Lex
import Mathlib.Order.Lattice

/-! Codes that keep an order. When the words of two symbols in order differ at some unit, and are in
order at the first such unit, texts are in lexicographic order exactly if their lists of symbols
are. -/

namespace LibCxxExt.ProofKit

variable {α γ κ : Type*} [LinearOrder α] [LinearOrder κ]

/-- The lists differ at some unit, the first list having the lesser one there. -/
def Diverges (s t : List α) : Prop :=
  ∃ (common : List α) (a b : α) (u v : List α), s = common ++ a :: u ∧ t = common ++ b :: v ∧ a < b

theorem Diverges.here {a b : α} (less : a < b) (u v : List α) : Diverges (a :: u) (b :: v) :=
  ⟨[], a, b, u, v, rfl, rfl, less⟩

theorem Diverges.cons {s t : List α} (a : α) (diverges : Diverges s t) :
    Diverges (a :: s) (a :: t) := by
  obtain ⟨common, x, y, u, v, rfl, rfl, less⟩ := diverges
  exact ⟨a :: common, x, y, u, v, rfl, rfl, less⟩

/-- What follows does not matter. -/
theorem Diverges.append_lt {s t : List α} (diverges : Diverges s t) (u v : List α) :
    s ++ u < t ++ v := by
  obtain ⟨common, a, b, x, y, rfl, rfl, less⟩ := diverges
  induction common with
  | nil => exact List.cons_lt_cons_iff.mpr (.inl less)
  | cons c common ih => exact List.cons_lt_cons_iff.mpr (.inr ⟨rfl, ih⟩)

/-- The words `enc c` of the valid symbols are in the order of `rank`. -/
structure OrderedCode (valid : γ → Prop) (enc : γ → List α) (rank : γ → κ) : Prop where
  nonempty : ∀ c, valid c → enc c ≠ []
  diverges : ∀ c d, valid c → valid d → rank c < rank d → Diverges (enc c) (enc d)
  injective : ∀ c d, valid c → valid d → rank c = rank d → c = d

namespace OrderedCode

variable {valid : γ → Prop} {enc : γ → List α} {rank : γ → κ} {cs ds : List γ}

theorem flatMap_lt (code : OrderedCode valid enc rank) (hcs : ∀ c ∈ cs, valid c)
    (hds : ∀ d ∈ ds, valid d) (less : cs.map rank < ds.map rank) :
    cs.flatMap enc < ds.flatMap enc := by
  induction cs generalizing ds with
  | nil =>
    cases ds with
    | nil => exact absurd less (List.not_lt_nil _)
    | cons d ds =>
      obtain ⟨a, word, shape⟩ := List.exists_cons_of_ne_nil (code.nonempty d (hds d (by simp)))
      rw [List.flatMap_cons, shape]
      exact List.nil_lt_cons _ _
  | cons c cs ih =>
    cases ds with
    | nil => exact absurd less (List.not_lt_nil _)
    | cons d ds =>
      obtain ⟨hc, hcs⟩ := List.forall_mem_cons.mp hcs
      obtain ⟨hd, hds⟩ := List.forall_mem_cons.mp hds
      rw [List.map_cons, List.map_cons, List.cons_lt_cons_iff] at less
      rcases less with first | ⟨same, rest⟩
      · exact (code.diverges c d hc hd first).append_lt _ _
      · rw [code.injective c d hc hd same]
        exact List.append_left_lt (ih hcs hds rest)

theorem map_rank_inj (code : OrderedCode valid enc rank) (hcs : ∀ c ∈ cs, valid c)
    (hds : ∀ d ∈ ds, valid d) (same : cs.map rank = ds.map rank) : cs = ds := by
  induction cs generalizing ds with
  | nil => simpa using same.symm
  | cons c cs ih =>
    cases ds with
    | nil => simp at same
    | cons d ds =>
      obtain ⟨hc, hcs⟩ := List.forall_mem_cons.mp hcs
      obtain ⟨hd, hds⟩ := List.forall_mem_cons.mp hds
      obtain ⟨first, rest⟩ := List.cons.inj same
      rw [code.injective c d hc hd first, ih hcs hds rest]

end OrderedCode

end LibCxxExt.ProofKit
