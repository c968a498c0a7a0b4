import Mathlib.Data.List.Count
import Mathlib.Data.List.Nodup
import Mathlib.Logic.Equiv.Basic
import Mathlib.Logic.Function.Basic

/-! A ledger of resources. Resources are numbered in the order in which they are acquired, a place
holds at most one of them, and the log lists the released ones. In a ledger that balances every
resource acquired so far is held in one place or was released once. -/

namespace LibCxxExt.ProofKit

variable {Place : Type}

/-- The ledger balances: `held` tells what each place holds, `born` resources were acquired and
`died` are the releases. -/
structure Ledger (held : Place → Option Nat) (born : Nat) (died : List Nat) : Prop where
  once : died.Nodup
  past : ∀ i ∈ died, i < born
  present : ∀ a i, held a = some i → i < born ∧ i ∉ died
  apart : ∀ a b i, held a = some i → held b = some i → a = b
  settled : ∀ i < born, i ∈ died ∨ ∃ a, held a = some i

namespace Ledger

variable {held : Place → Option Nat} {born : Nat} {died : List Nat}

theorem empty : Ledger (fun _ : Place => none) 0 [] where
  once := List.nodup_nil
  past := by simp
  present := by simp
  apart := by simp
  settled := by simp

section

variable [DecidableEq Place]

theorem acquire {a : Place} (h : Ledger held born died) (free : held a = none) :
    Ledger (Function.update held a (some born)) (born + 1) died where
  once := h.once
  past i hi := Nat.lt_succ_of_lt (h.past i hi)
  present b i hb := by
    rcases eq_or_ne b a with rfl | hne
    · obtain rfl : born = i := by simpa using hb
      exact ⟨Nat.lt_succ_self born, fun dead => Nat.lt_irrefl born (h.past born dead)⟩
    · rw [Function.update_of_ne hne] at hb
      exact ⟨Nat.lt_succ_of_lt (h.present b i hb).1, (h.present b i hb).2⟩
  apart b c i hb hc := by
    have fresh : ∀ d, held d ≠ some born := fun d hd =>
      Nat.lt_irrefl born (h.present d born hd).1
    rcases eq_or_ne b a with hba | hba <;> rcases eq_or_ne c a with hca | hca
    · rw [hba, hca]
    · obtain rfl : born = i := by simpa [hba] using hb
      exact absurd (by rwa [Function.update_of_ne hca] at hc) (fresh c)
    · obtain rfl : born = i := by simpa [hca] using hc
      exact absurd (by rwa [Function.update_of_ne hba] at hb) (fresh b)
    · rw [Function.update_of_ne hba] at hb
      rw [Function.update_of_ne hca] at hc
      exact h.apart b c i hb hc
  settled i hi := by
    rcases Nat.lt_succ_iff_lt_or_eq.mp hi with old | rfl
    · rcases h.settled i old with dead | ⟨b, hb⟩
      · exact .inl dead
      · have hne : b ≠ a := by
          rintro rfl
          simp [free] at hb
        exact .inr ⟨b, by rw [Function.update_of_ne hne, hb]⟩
    · exact .inr ⟨a, Function.update_self ..⟩

theorem release {a : Place} {i : Nat} (h : Ledger held born died) (holds : held a = some i) :
    Ledger (Function.update held a none) born (i :: died) where
  once := List.nodup_cons.mpr ⟨(h.present a i holds).2, h.once⟩
  past j hj := by
    rcases List.mem_cons.mp hj with rfl | old
    · exact (h.present a j holds).1
    · exact h.past j old
  present b j hb := by
    have hne : b ≠ a := by
      rintro rfl
      simp at hb
    rw [Function.update_of_ne hne] at hb
    refine ⟨(h.present b j hb).1, fun dead => ?_⟩
    rcases List.mem_cons.mp dead with rfl | old
    · exact hne (h.apart b a j hb holds)
    · exact (h.present b j hb).2 old
  apart b c j hb hc := by
    have hba : b ≠ a := by
      rintro rfl
      simp at hb
    have hca : c ≠ a := by
      rintro rfl
      simp at hc
    rw [Function.update_of_ne hba] at hb
    rw [Function.update_of_ne hca] at hc
    exact h.apart b c j hb hc
  settled j hj := by
    rcases h.settled j hj with dead | ⟨b, hb⟩
    · exact .inl (List.mem_cons_of_mem i dead)
    · rcases eq_or_ne b a with rfl | hne
      · obtain rfl : i = j := by simpa [holds] using hb
        exact .inl List.mem_cons_self
      · exact .inr ⟨b, by rw [Function.update_of_ne hne, hb]⟩

theorem clear {a : Place} (h : Ledger held born died) (free : held a = none) :
    Ledger (Function.update held a none) born died := by
  rwa [← free, Function.update_eq_self]

/-- What the place holds, if anything, is released. -/
theorem vacate (h : Ledger held born died) (a : Place) :
    Ledger (Function.update held a none) born ((held a).toList ++ died) := by
  cases holds : held a with
  | none => exact h.clear holds
  | some i => exact h.release holds

end

/-- The resources change places. -/
theorem relocate (h : Ledger held born died) (e : Equiv.Perm Place) :
    Ledger (held ∘ e) born died where
  once := h.once
  past := h.past
  present a := h.present (e a)
  apart a b i ha hb := e.injective (h.apart (e a) (e b) i ha hb)
  settled i hi := (h.settled i hi).imp_right fun ⟨a, ha⟩ => ⟨e.symm a, by simpa using ha⟩

theorem perm {died' : List Nat} (h : Ledger held born died) (reordered : died.Perm died') :
    Ledger held born died' where
  once := reordered.nodup_iff.mp h.once
  past i hi := h.past i (reordered.mem_iff.mpr hi)
  present a i ha := (h.present a i ha).imp_right (mt reordered.mem_iff.mpr)
  apart := h.apart
  settled i hi := (h.settled i hi).imp_left reordered.mem_iff.mp

/-- A resource was released as often as it is missing from the places: once, or not at all. -/
theorem count_died (h : Ledger held born died) {i : Nat} (hi : i < born) :
    (died.count i = 1 ∧ ∀ a, held a ≠ some i) ∨
      (died.count i = 0 ∧ ∃ a, held a = some i ∧ ∀ b, held b = some i → b = a) := by
  rcases h.settled i hi with dead | ⟨a, ha⟩
  · exact .inl ⟨List.count_eq_one_of_mem h.once dead, fun a ha => (h.present a i ha).2 dead⟩
  · exact .inr ⟨List.count_eq_zero.mpr (h.present a i ha).2, a, ha,
      fun b hb => h.apart b a i hb ha⟩

/-- Once every place is empty, every resource was released exactly once. -/
theorem all_died (h : Ledger held born died) (none_held : ∀ a, held a = none) {i : Nat}
    (hi : i < born) : died.count i = 1 := by
  rcases h.count_died hi with ⟨one, -⟩ | ⟨-, a, ha, -⟩
  · exact one
  · simp [none_held a] at ha

end Ledger

end LibCxxExt.ProofKit
