import Mathlib.Data.List.Basic

/-! Lists that are read from the front, where what happens to an element depends on the elements
before it. -/

namespace LibCxxExt.ProofKit

section Filter

variable {α : Type*} (keep : List α → α → Bool)

/-- The elements that are kept by a test that also sees the elements before. -/
def filterAfter (before : List α) : List α → List α
  | [] => []
  | x :: xs =>
    if keep before x then x :: filterAfter (before ++ [x]) xs else filterAfter (before ++ [x]) xs

variable {keep}

theorem filterAfter_append (before xs ys : List α) :
    filterAfter keep before (xs ++ ys) =
      filterAfter keep before xs ++ filterAfter keep (before ++ xs) ys := by
  induction xs generalizing before with
  | nil => simp [filterAfter]
  | cons x xs ih =>
    simp only [List.cons_append, filterAfter, ih, List.append_assoc, List.nil_append]
    split <;> simp

theorem filterAfter_snoc (before xs : List α) (x : α) :
    filterAfter keep before (xs ++ [x]) =
      filterAfter keep before xs ++ if keep (before ++ xs) x then [x] else [] :=
  filterAfter_append before xs [x]

theorem filterAfter_sublist (before xs : List α) : (filterAfter keep before xs).Sublist xs := by
  induction xs generalizing before with
  | nil => exact .slnil
  | cons y ys ih =>
    unfold filterAfter
    split
    · exact (ih _).cons_cons y
    · exact (ih _).cons y

/-- On a kind of elements for which the test does not look back it is a filter. -/
theorem filter_filterAfter {kind test : α → Bool}
    (same : ∀ before x, kind x = true → keep before x = test x) (before xs : List α) :
    (filterAfter keep before xs).filter kind = (xs.filter kind).filter test := by
  induction xs generalizing before with
  | nil => rfl
  | cons y ys ih =>
    unfold filterAfter
    by_cases hy : kind y = true
    · rw [same before y hy]
      by_cases ty : test y = true <;> simp [hy, ty, ih]
    · split <;> simp [hy, ih]

theorem mem_filterAfter {x : α} (always : ∀ before, keep before x = true) {before xs : List α}
    (mem : x ∈ xs) : x ∈ filterAfter keep before xs := by
  induction xs generalizing before with
  | nil => exact absurd mem nofun
  | cons y ys ih =>
    unfold filterAfter
    rcases List.mem_cons.mp mem with rfl | behind
    · simp [always before]
    · split
      · exact List.mem_cons_of_mem y (ih behind)
      · exact ih behind

theorem getLast?_filter {test : α → Bool} {xs : List α} {x : α} (last : xs.getLast? = some x)
    (met : test x = true) : (xs.filter test).getLast? = some x := by
  obtain ⟨front, rfl⟩ := List.getLast?_eq_some_iff.mp last
  simp [List.filter_append, met]

end Filter

section Fold

variable {α β ε : Type}

/-- Two folds that may fail, done in one pass. -/
theorem foldlM_pair (f : α → ε → Option α) (g : β → ε → Option β) (es : List ε) (a : α) (b : β) :
    es.foldlM (fun t e => do return (← f t.1 e, ← g t.2 e)) (a, b) =
      (do return (← es.foldlM f a, ← es.foldlM g b)) := by
  induction es generalizing a b with
  | nil => rfl
  | cons e es ih =>
    simp only [List.foldlM_cons]
    cases hf : f a e with
    | none => rfl
    | some a' =>
      cases hg : g b e with
      | none => cases ha : es.foldlM f a' <;> simp [ha]
      | some b' => exact ih a' b'

end Fold

end LibCxxExt.ProofKit
