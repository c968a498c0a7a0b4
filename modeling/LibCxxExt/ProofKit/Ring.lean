import Mathlib.Data.Int.ModEq
import Mathlib.Data.Nat.ModEq
import Mathlib.Data.Nat.Prime.Basic
import Mathlib.Logic.Function.Basic

/-! Lists that are laid out in a ring of slots. The list starts at some slot and goes on in the
slots behind it, around the end of the ring. Elements are added behind the last one and taken at the
first one. A slot whose index is computed in machine words is the right one when the size of the
ring divides that of a word, or when no sum leaves the range of a word. -/

namespace LibCxxExt.ProofKit

variable {α : Type*} {slots : Nat → Option α} {n first : Nat} {l : List α}

theorem ring_injective {i j : Nat} (hi : i < n) (hj : j < n)
    (same : (first + i) % n = (first + j) % n) : i = j := by
  have cancelled : i ≡ j [MOD n] := Nat.ModEq.add_left_cancel' first same
  rwa [Nat.ModEq, Nat.mod_eq_of_lt hi, Nat.mod_eq_of_lt hj] at cancelled

/-- `l` lies in a ring of `n` slots, from the slot `first` on. -/
structure LaidOut (slots : Nat → Option α) (n first : Nat) (l : List α) : Prop where
  inside : first < n
  fits : l.length ≤ n
  slot : ∀ i < l.length, slots ((first + i) % n) = l[i]?

namespace LaidOut

theorem nil (inside : first < n) : LaidOut slots n first [] where
  inside := inside
  fits := Nat.zero_le n
  slot := nofun

theorem push (h : LaidOut slots n first l) (room : l.length < n) (x : α) :
    LaidOut (Function.update slots ((first + l.length) % n) (some x)) n first (l ++ [x]) where
  inside := h.inside
  fits := by
    rw [List.length_append, List.length_singleton]
    exact room
  slot := by
    intro i hi
    rw [List.length_append, List.length_singleton] at hi
    by_cases last : i = l.length
    · subst last
      simp
    · have within : i < l.length := by omega
      have apart : (first + i) % n ≠ (first + l.length) % n := fun same =>
        last (ring_injective (by omega) room same)
      rw [Function.update_of_ne apart, h.slot i within, List.getElem?_append_left within]

theorem head {x : α} (h : LaidOut slots n first (x :: l)) : slots first = some x := by
  have here := h.slot 0 (by simp)
  rwa [Nat.add_zero, Nat.mod_eq_of_lt h.inside] at here

theorem pop {x : α} (h : LaidOut slots n first (x :: l)) (left : Option α) :
    LaidOut (Function.update slots first left) n ((first + 1) % n) l where
  inside := Nat.mod_lt _ (by have := h.inside; omega)
  fits := by
    have := h.fits
    rw [List.length_cons] at this
    omega
  slot := by
    intro i hi
    have fits := h.fits
    rw [List.length_cons] at fits
    have shifted : ((first + 1) % n + i) % n = (first + (i + 1)) % n := by
      rw [Nat.mod_add_mod, Nat.add_assoc, Nat.add_comm 1]
    have apart : (first + (i + 1)) % n ≠ first := by
      intro same
      have start : (first + (i + 1)) % n = (first + 0) % n := by
        rw [same, Nat.add_zero, Nat.mod_eq_of_lt h.inside]
      have := ring_injective (by omega) (by omega) start
      omega
    rw [shifted, Function.update_of_ne apart, h.slot (i + 1) (by simpa using hi),
      List.getElem?_cons_succ]

/-- The slot behind the last one is the first one exactly when the ring is empty or full. -/
theorem behind_eq_first_iff (h : LaidOut slots n first l) :
    (first + l.length) % n = first ↔ l.length = 0 ∨ l.length = n := by
  have inside := h.inside
  constructor
  · intro same
    by_contra neither
    have fits := h.fits
    have start : (first + l.length) % n = (first + 0) % n := by
      rw [same, Nat.add_zero, Nat.mod_eq_of_lt inside]
    have := ring_injective (by omega) (by omega) start
    omega
  · rintro (none | all)
    · rw [none, Nat.add_zero, Nat.mod_eq_of_lt inside]
    · rw [all, Nat.add_mod_right, Nat.mod_eq_of_lt inside]

end LaidOut

section Words

variable {w : Nat} {c x : Int}

theorem dvd_two_pow_of_dvd_mul (positive : 0 < c) (small : c < 2 ^ w) {k : Int}
    (near : k = -1 ∨ k = 1 ∨ k = 2) (divides : c ∣ 2 ^ w * k) : c ∣ 2 ^ w := by
  rcases near with rfl | rfl | rfl
  · simpa using divides
  · simpa using divides
  · obtain ⟨m, rfl⟩ := Int.eq_ofNat_of_zero_le positive.le
    rw [← pow_succ] at divides
    norm_cast at divides small ⊢
    obtain ⟨j, _, rfl⟩ := (Nat.dvd_prime_pow Nat.prime_two).mp divides
    exact pow_dvd_pow 2 ((Nat.pow_lt_pow_iff_right (by decide)).mp small).le

/-- Reducing to a word before reducing to the ring. -/
theorem emod_word_emod_iff (positive : 0 < c) (small : c < 2 ^ w) (low : -2 ^ w ≤ x)
    (high : x < 3 * 2 ^ w) : x % 2 ^ w % c = x % c ↔ c ∣ 2 ^ w ∨ 0 ≤ x ∧ x < 2 ^ w := by
  constructor
  · intro same
    have word : (0 : Int) < 2 ^ w := Int.pow_pos (by decide)
    have whole := Int.mul_ediv_add_emod x (2 ^ w)
    have divides : c ∣ 2 ^ w * (x / 2 ^ w) := by
      have := Int.ModEq.dvd same
      rwa [show x - x % 2 ^ w = 2 ^ w * (x / 2 ^ w) by omega] at this
    have above : -1 ≤ x / 2 ^ w := Int.le_ediv_of_mul_le word (by omega)
    have below : x / 2 ^ w < 3 := Int.ediv_lt_of_lt_mul word high
    rcases (by omega : x / 2 ^ w = 0 ∨ x / 2 ^ w = -1 ∨ x / 2 ^ w = 1 ∨ x / 2 ^ w = 2) with
      inside | outside
    · right
      rw [inside, Int.mul_zero, Int.zero_add] at whole
      exact ⟨whole ▸ Int.emod_nonneg x word.ne', whole ▸ Int.emod_lt_of_pos x word⟩
    · exact .inl (dvd_two_pow_of_dvd_mul positive small outside divides)
  · rintro (divides | inside)
    · exact Int.emod_emod_of_dvd x divides
    · rw [Int.emod_eq_of_lt inside.1 inside.2]

end Words

end LibCxxExt.ProofKit
