import Mathlib.Logic.Equiv.Basic

/-! Tokens that places hand on to each other. The tokens that are owed are those that some place
holds, and no two places hold one token. A token may be issued again once it is not owed. -/

namespace LibCxxExt.ProofKit

variable {Place Token : Type*}

structure Tokens (held : Place → Option Token) (owed : Token → Prop) : Prop where
  apart : ∀ p q x, held p = some x → held q = some x → p = q
  owed_iff : ∀ x, owed x ↔ ∃ p, held p = some x

namespace Tokens

variable {held : Place → Option Token} {owed owed' : Token → Prop}

theorem empty (none : ∀ x, ¬ owed x) : Tokens (fun _ : Place => Option.none) owed where
  apart := by simp
  owed_iff := by simpa using none

theorem congr (h : Tokens held owed) (same : ∀ x, owed' x ↔ owed x) : Tokens held owed' where
  apart := h.apart
  owed_iff x := (same x).trans (h.owed_iff x)

variable [DecidableEq Place] {p q : Place} {x : Token}

theorem swap (h : Tokens held owed) : Tokens (held ∘ Equiv.swap p q) owed where
  apart _ _ x here there := (Equiv.swap p q).injective (h.apart _ _ x here there)
  owed_iff x := by
    rw [h.owed_iff]
    constructor
    · rintro ⟨r, here⟩
      exact ⟨Equiv.swap p q r, by simpa using here⟩
    · rintro ⟨r, here⟩
      exact ⟨Equiv.swap p q r, here⟩

theorem clear (h : Tokens held owed) (free : held p = none) :
    Tokens (Function.update held p none) owed := by
  rwa [← free, Function.update_eq_self]

theorem put (h : Tokens held owed) (free : held p = none) (fresh : ¬ owed x)
    (issued : ∀ y, owed' y ↔ y = x ∨ owed y) :
    Tokens (Function.update held p (some x)) owed' where
  apart := by
    have unheld (r : Place) : held r ≠ some x := fun here => fresh ((h.owed_iff x).mpr ⟨r, here⟩)
    intro r s y here there
    by_cases hr : r = p <;> by_cases hs : s = p
    · rw [hr, hs]
    · obtain rfl : x = y := by simpa [hr] using here
      exact absurd (by simpa [hs] using there) (unheld s)
    · obtain rfl : x = y := by simpa [hs] using there
      exact absurd (by simpa [hr] using here) (unheld r)
    · exact h.apart r s y (by simpa [hr] using here) (by simpa [hs] using there)
  owed_iff y := by
    rw [issued, h.owed_iff]
    constructor
    · rintro (rfl | ⟨r, here⟩)
      · exact ⟨p, Function.update_self ..⟩
      · have other : r ≠ p := by
          rintro rfl
          simp [free] at here
        exact ⟨r, by rwa [Function.update_of_ne other]⟩
    · rintro ⟨r, here⟩
      by_cases hr : r = p
      · exact .inl (by simpa [hr, eq_comm] using here)
      · exact .inr ⟨r, by rwa [Function.update_of_ne hr] at here⟩

theorem take (h : Tokens held owed) (holds : held p = some x)
    (settled : ∀ y, owed' y ↔ y ≠ x ∧ owed y) :
    Tokens (Function.update held p none) owed' where
  apart r s y here there := by
    have elsewhere (t : Place) (ht : Function.update held p none t = some y) : t ≠ p := by
      rintro rfl
      simp at ht
    rw [Function.update_of_ne (elsewhere r here)] at here
    rw [Function.update_of_ne (elsewhere s there)] at there
    exact h.apart r s y here there
  owed_iff y := by
    rw [settled, h.owed_iff]
    constructor
    · rintro ⟨other, r, here⟩
      have elsewhere : r ≠ p := by
        rintro rfl
        exact other (Option.some_inj.mp (here.symm.trans holds))
      exact ⟨r, by rwa [Function.update_of_ne elsewhere]⟩
    · rintro ⟨r, here⟩
      have elsewhere : r ≠ p := by
        rintro rfl
        simp at here
      rw [Function.update_of_ne elsewhere] at here
      refine ⟨?_, r, here⟩
      rintro rfl
      exact elsewhere (h.apart r p y here holds)

end Tokens

end LibCxxExt.ProofKit
