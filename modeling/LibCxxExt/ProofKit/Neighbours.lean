import Mathlib.Data.List.Basic

/-! Maps over a list that look at what surrounds each element. The surroundings of an element are
the list before it and the list behind it, both with the nearest element first. A flag that is
raised and cleared in a pass over such a list tells which kind of element is the nearest decisive
one. -/

namespace LibCxxExt.ProofKit

variable {α β γ : Type*}

/-- The nearest elements of `l` up to one in `set` hold none in `reset`. -/
def Sees (set reset : α → Bool) (l : List α) : Prop :=
  ∃ between c far, l = between ++ c :: far ∧ set c = true ∧ ∀ x ∈ between, reset x = false

/-- A flag that `set` raises and `reset` clears. An element in both raises it. -/
def latch (set reset : α → Bool) (c : α) (flag : Bool) : Bool :=
  if set c then true else if reset c then false else flag

section Sees

variable {set reset : α → Bool}

theorem sees_nil : ¬ Sees set reset [] := by
  rintro ⟨between, c, far, h, -⟩
  simp at h

theorem sees_cons {c : α} {l : List α} :
    Sees set reset (c :: l) ↔ set c = true ∨ reset c = false ∧ Sees set reset l := by
  constructor
  · rintro ⟨between, d, far, split, isSet, between_clear⟩
    cases between with
    | nil =>
      obtain ⟨rfl, rfl⟩ := by simpa using split
      exact .inl isSet
    | cons x between =>
      obtain ⟨rfl, rfl⟩ := by simpa using split
      have clear := List.forall_mem_cons.mp between_clear
      exact .inr ⟨clear.1, between, d, far, rfl, isSet, clear.2⟩
  · rintro (isSet | ⟨clear, between, d, far, rfl, isSet, between_clear⟩)
    · exact ⟨[], c, l, rfl, isSet, by simp⟩
    · exact ⟨c :: between, d, far, rfl, isSet, List.forall_mem_cons.mpr ⟨clear, between_clear⟩⟩

theorem foldr_latch (l : List α) :
    l.foldr (latch set reset) false = true ↔ Sees set reset l := by
  induction l with
  | nil => simp [sees_nil]
  | cons c l ih =>
    rw [sees_cons, List.foldr_cons, ← ih, latch]
    cases set c <;> cases reset c <;> simp

instance (set reset : α → Bool) : DecidablePred (Sees set reset) := fun l =>
  decidable_of_iff _ (foldr_latch l)

/-- The nearest position before `i` in `S`, with all positions between in `K`, one position on. -/
theorem nearest_succ {S K : Nat → Prop} {i : Nat} :
    (∃ j < i + 1, S j ∧ ∀ k, j < k → k < i + 1 → K k) ↔
      S i ∨ K i ∧ ∃ j < i, S j ∧ ∀ k, j < k → k < i → K k := by
  constructor
  · rintro ⟨j, below, here, between⟩
    rcases Nat.lt_succ_iff_lt_or_eq.mp below with earlier | rfl
    · exact .inr ⟨between i earlier (Nat.lt_succ_self i), j, earlier, here,
        fun k above inside => between k above (Nat.lt_succ_of_lt inside)⟩
    · exact .inl here
  · rintro (here | ⟨last, j, below, here, between⟩)
    · exact ⟨i, Nat.lt_succ_self i, here, fun k above inside => absurd inside (by omega)⟩
    · refine ⟨j, Nat.lt_succ_of_lt below, here, fun k above inside => ?_⟩
      rcases Nat.lt_succ_iff_lt_or_eq.mp inside with earlier | rfl
      · exact between k above earlier
      · exact last

/-- The same by positions: of the first `i` elements, with the nearest to `i` first. -/
theorem sees_reverse_take {l : List α} {i : Nat} :
    Sees set reset (l.take i).reverse ↔ ∃ j < i, (∃ c, l[j]? = some c ∧ set c = true) ∧
      ∀ k, j < k → k < i → ∀ x, l[k]? = some x → reset x = false := by
  induction i with
  | zero => simp [sees_nil]
  | succ i ih =>
    rw [List.take_add_one, List.reverse_append, nearest_succ, ← ih]
    cases last : l[i]? with
    | none => simp
    | some c => simp [sees_cons]

end Sees

/-! ### Maps -/

/-- Replaces every element of a list by a list that may depend on the elements around it. -/
def flatMapAround (f : List α → α → List α → List β) (before : List α) : List α → List β
  | [] => []
  | c :: behind => f before c behind ++ flatMapAround f (c :: before) behind

theorem flatMap_flatMapAround (f : List α → α → List α → List β) (g : β → List γ)
    (before l : List α) :
    (flatMapAround f before l).flatMap g =
      flatMapAround (fun before c behind => (f before c behind).flatMap g) before l := by
  induction l generalizing before with
  | nil => rfl
  | cons c behind ih => simp [flatMapAround, ih]

/-- What is in the result was written for some element of the list. -/
theorem mem_flatMapAround {f : List α → α → List α → List β} {before l : List α} {b : β}
    (written : b ∈ flatMapAround f before l) :
    ∃ past c behind, l = past ++ c :: behind ∧ b ∈ f (past.reverse ++ before) c behind := by
  induction l generalizing before with
  | nil => simp [flatMapAround] at written
  | cons c behind ih =>
    rw [flatMapAround, List.mem_append] at written
    rcases written with here | later
    · exact ⟨[], c, behind, rfl, here⟩
    · obtain ⟨past, d, rest, rfl, mem⟩ := ih later
      exact ⟨c :: past, d, rest, rfl, by simpa using mem⟩

theorem flatMapAround_of_fixed {f : List α → α → List α → List α} {before l : List α}
    (fixed : ∀ c ∈ l, ∀ before behind, f before c behind = [c]) :
    flatMapAround f before l = l := by
  induction l generalizing before with
  | nil => rfl
  | cons c behind ih =>
    rw [flatMapAround, fixed c List.mem_cons_self,
      ih fun d member => fixed d (List.mem_cons_of_mem c member), List.singleton_append]

/-- `P` holds of every element of `l` and what surrounds it. -/
def ForallAround (P : List α → α → List α → Prop) (before l : List α) : Prop :=
  ∀ past c behind, l = past ++ c :: behind → P (past.reverse ++ before) c behind

variable {P : List α → α → List α → Prop} {f g : List α → α → List α → List β}

theorem forallAround_nil {before : List α} : ForallAround P before [] := by
  intro past c behind h
  simp at h

theorem forallAround_cons {before l : List α} {c : α} :
    ForallAround P before (c :: l) ↔ P before c l ∧ ForallAround P (c :: before) l := by
  constructor
  · intro all
    refine ⟨by simpa using all [] c l rfl, fun past d behind split => ?_⟩
    simpa using all (c :: past) d behind (by rw [split, List.cons_append])
  · rintro ⟨first, rest⟩ past d behind split
    cases past with
    | nil =>
      obtain ⟨rfl, rfl⟩ := by simpa using split
      simpa using first
    | cons x past =>
      obtain ⟨rfl, rfl⟩ := by simpa using split
      simpa using rest past d behind rfl

theorem flatMapAround_congr {before l : List α}
    (same : ForallAround (fun before c behind => f before c behind = g before c behind) before l) :
    flatMapAround f before l = flatMapAround g before l := by
  induction l generalizing before with
  | nil => rfl
  | cons c behind ih =>
    obtain ⟨here, rest⟩ := forallAround_cons.mp same
    rw [flatMapAround, flatMapAround, here, ih rest]

/-- A map that erases elements and otherwise agrees with `f` gives the same list only if nothing is
lost. -/
theorem flatMapAround_eq_iff {before l : List α}
    (erases : ∀ before c behind, g before c behind = f before c behind ∨ g before c behind = []) :
    flatMapAround f before l = flatMapAround g before l ↔
      ForallAround (fun before c behind => f before c behind = g before c behind) before l := by
  refine ⟨fun same => ?_, flatMapAround_congr⟩
  have shorter (before l : List α) :
      (flatMapAround g before l).length ≤ (flatMapAround f before l).length := by
    induction l generalizing before with
    | nil => exact Nat.le_refl _
    | cons c behind ih =>
      have tail := ih (c :: before)
      rcases erases before c behind with kept | erased
      · simp [flatMapAround, kept, tail]
      · simp [flatMapAround, erased]
        omega
  induction l generalizing before with
  | nil => exact forallAround_nil
  | cons c behind ih =>
    rw [flatMapAround, flatMapAround] at same
    have here : f before c behind = g before c behind := by
      rcases erases before c behind with kept | erased
      · exact kept.symm
      · rw [erased, List.nil_append] at same
        have lengths := congrArg List.length same
        have tail := shorter (c :: before) behind
        rw [List.length_append] at lengths
        rw [erased, List.eq_nil_iff_length_eq_zero]
        omega
    rw [here, List.append_cancel_left_eq] at same
    exact forallAround_cons.mpr ⟨here, ih same⟩

end LibCxxExt.ProofKit
