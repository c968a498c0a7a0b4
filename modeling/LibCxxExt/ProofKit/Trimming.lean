import Mathlib.Data.List.DropRight

/-! Lists without the elements of some kind at their ends. It makes no difference at which end they
are dropped first. -/

namespace LibCxxExt.ProofKit

variable {α : Type*} {p : α → Bool}

theorem rdropWhile_cons (a : α) (l : List α) :
    (a :: l).rdropWhile p =
      if p a = true ∧ l.rdropWhile p = [] then [] else a :: l.rdropWhile p := by
  have split : (a :: l).reverse.dropWhile p =
      if (l.reverse.dropWhile p).isEmpty then [a].dropWhile p
      else l.reverse.dropWhile p ++ [a] := by
    rw [List.reverse_cons, List.dropWhile_append]
  rw [List.rdropWhile, List.rdropWhile, split]
  by_cases gone : l.reverse.dropWhile p = [] <;> by_cases here : p a = true <;> simp [gone, here]

theorem dropWhile_rdropWhile (l : List α) :
    (l.rdropWhile p).dropWhile p = (l.dropWhile p).rdropWhile p := by
  induction l with
  | nil => rfl
  | cons a l ih =>
    rw [rdropWhile_cons, List.dropWhile_cons]
    by_cases here : p a = true
    · by_cases gone : l.rdropWhile p = []
      · rw [gone] at ih
        simp [here, gone, ← ih]
      · simp [here, gone, ih]
    · simp [here, rdropWhile_cons]

/-- What is dropped in front does not depend on the other end, unless everything is dropped. -/
theorem takeWhile_rdropWhile {l : List α} (left : l.rdropWhile p ≠ []) :
    (l.rdropWhile p).takeWhile p = l.takeWhile p := by
  induction l with
  | nil => rfl
  | cons a l ih =>
    rw [rdropWhile_cons] at left ⊢
    by_cases here : p a = true
    · by_cases gone : l.rdropWhile p = []
      · simp [here, gone] at left
      · simp [here, gone, ih gone]
    · simp [here]

theorem takeWhile_dropWhile (l : List α) : (l.dropWhile p).takeWhile p = [] := by
  induction l with
  | nil => rfl
  | cons a l ih => by_cases here : p a = true <;> simp [here, ih]

theorem exists_rtail (l : List α) : ∃ tail, l = l.rdropWhile p ++ tail := by
  obtain ⟨tail, split⟩ := l.rdropWhile_prefix p
  exact ⟨tail, split.symm⟩

end LibCxxExt.ProofKit
