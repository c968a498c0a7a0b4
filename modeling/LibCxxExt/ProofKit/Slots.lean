import Mathlib.Data.List.Induction
import Mathlib.Data.List.Perm.Basic
import Mathlib.Logic.Function.Basic

/-! Arrays of slots, each of which holds a value or none. An access is defined within the bounds of
the array, and a list fills the first slots of an array whose other slots hold none. -/

namespace LibCxxExt.ProofKit

variable {α : Type*} {n : Nat}

/-- The value in the slot `i`. -/
def readSlot (data : Vector (Option α) n) (i : Nat) : Option α := (data[i]?).join

def writeSlot (data : Vector (Option α) n) (i : Nat) (slot : Option α) :
    Option (Vector (Option α) n) :=
  if h : i < n then some (data.set i slot h) else none

theorem writeSlot_eq (data : Vector (Option α) n) {i : Nat} (inside : i < n) (slot : Option α) :
    ∃ data', writeSlot data i slot = some data' ∧
      readSlot data' = Function.update (readSlot data) i slot := by
  refine ⟨_, dif_pos inside, ?_⟩
  funext j
  rcases eq_or_ne j i with rfl | apart
  · simp [readSlot, inside]
  · rw [Function.update_of_ne apart]
    simp [readSlot, Vector.getElem?_set_ne inside apart.symm]

theorem readSlot_of_writeSlot {data data' : Vector (Option α) n} {i : Nat} {slot : Option α}
    (written : writeSlot data i slot = some data') :
    readSlot data' = Function.update (readSlot data) i slot := by
  have inside : i < n := by
    by_contra beyond
    simp [writeSlot, beyond] at written
  obtain ⟨_, same, reads⟩ := writeSlot_eq _ inside slot
  rwa [Option.some.inj (written.symm.trans same)]

theorem lt_of_readSlot {data : Vector (Option α) n} {i : Nat} {x : α}
    (holds : readSlot data i = some x) : i < n := by
  by_contra beyond
  rw [readSlot, Vector.getElem?_eq_none (by omega)] at holds
  simp at holds

theorem readSlot_replicate (i : Nat) :
    readSlot (Vector.replicate n (none : Option α)) i = none := by
  rw [readSlot, Vector.getElem?_replicate]
  split_ifs <;> rfl

/-- `l` fills the first slots, and the others hold none. -/
structure Fills (data : Vector (Option α) n) (l : List α) : Prop where
  fits : l.length ≤ n
  slot : ∀ i, readSlot data i = l[i]?

namespace Fills

variable {data : Vector (Option α) n} {l : List α} {x : α}

theorem empty : Fills (Vector.replicate n (none : Option α)) [] where
  fits := Nat.zero_le n
  slot i := by rw [readSlot_replicate, List.getElem?_nil]

theorem push (h : Fills data l) (room : l.length < n) (x : α) :
    ∃ data', writeSlot data l.length (some x) = some data' ∧ Fills data' (l ++ [x]) := by
  obtain ⟨data', written, reads⟩ := writeSlot_eq data room (some x)
  refine ⟨data', written, by simp; omega, fun i => ?_⟩
  rw [reads]
  rcases eq_or_ne i l.length with rfl | apart
  · simp
  · rw [Function.update_of_ne apart, h.slot]
    rcases Nat.lt_or_ge i l.length with within | beyond
    · rw [List.getElem?_append_left within]
    · rw [List.getElem?_eq_none beyond, List.getElem?_eq_none (by simp; omega)]

/-- The last value moves into the slot `i`. -/
theorem fillHole (h : Fills data (l ++ [x])) {i : Nat} (within : i ≤ l.length) :
    ∃ data' data'', writeSlot data i (some x) = some data' ∧
      writeSlot data' l.length none = some data'' ∧ Fills data'' (l.set i x) := by
  have fits := h.fits
  rw [List.length_append, List.length_singleton] at fits
  obtain ⟨data', filled, reads⟩ := writeSlot_eq data (show i < n by omega) (some x)
  obtain ⟨data'', emptied, rereads⟩ := writeSlot_eq data' (show l.length < n by omega) none
  refine ⟨data', data'', filled, emptied, by simp; omega, fun j => ?_⟩
  rw [rereads, reads]
  rcases eq_or_ne j l.length with rfl | apart
  · simp
  rw [Function.update_of_ne apart]
  rcases eq_or_ne j i with rfl | other
  · rw [Function.update_self, List.getElem?_set_self (by omega)]
  · rw [Function.update_of_ne other, h.slot, List.getElem?_set_ne other.symm]
    rcases Nat.lt_or_ge j l.length with below | beyond
    · rw [List.getElem?_append_left below]
    · rw [List.getElem?_eq_none beyond, List.getElem?_eq_none (by simp; omega)]

end Fills

theorem filterMap_getElem?_range (l : List α) :
    (List.range l.length).filterMap (fun i => l[i]?) = l := by
  induction l using List.reverseRecOn with
  | nil => rfl
  | append_singleton l x ih =>
    have front : (List.range l.length).filterMap (fun i => (l ++ [x])[i]?) = l :=
      (List.filterMap_congr fun i mem =>
        List.getElem?_append_left (List.mem_range.mp mem)).trans ih
    rw [List.length_append, List.length_singleton, List.range_succ, List.filterMap_append, front]
    simp

/-- Moving the last element into the place of another removes that one. -/
theorem cons_set_perm {l : List α} {x v : α} {i : Nat} (at_ : (l ++ [x])[i]? = some v) :
    List.Perm (v :: l.set i x) (l ++ [x]) := by
  obtain ⟨bound, here⟩ := List.getElem?_eq_some_iff.mp at_
  rw [List.length_append, List.length_singleton] at bound
  rcases Nat.lt_or_ge i l.length with within | beyond
  · rw [List.getElem_append_left within] at here
    subst here
    calc List.Perm (l[i] :: l.set i x) (l[i] :: x :: l.eraseIdx i) :=
          (List.set_perm_cons_eraseIdx within x).cons l[i]
      List.Perm _ (x :: l[i] :: l.eraseIdx i) := List.Perm.swap ..
      List.Perm _ (x :: l) := (List.getElem_cons_eraseIdx_perm within).cons x
      List.Perm _ (l ++ [x]) := (List.perm_append_singleton x l).symm
  · obtain rfl : i = l.length := by omega
    obtain rfl : x = v := by simpa using here
    rw [List.set_eq_of_length_le (Nat.le_refl _)]
    exact (List.perm_append_singleton x l).symm

theorem mem_set_iff {l : List α} {x v w : α} {i : Nat} (distinct : (l ++ [x]).Nodup)
    (at_ : (l ++ [x])[i]? = some v) : w ∈ l.set i x ↔ w ∈ l ++ [x] ∧ w ≠ v := by
  have removed := cons_set_perm at_
  have absent := (List.nodup_cons.mp (removed.nodup_iff.mpr distinct)).1
  rw [← removed.mem_iff, List.mem_cons]
  constructor
  · intro kept
    refine ⟨.inr kept, ?_⟩
    rintro rfl
    exact absent kept
  · rintro ⟨same | kept, other⟩
    · exact absurd same other
    · exact kept

theorem nodup_set {l : List α} {x v : α} {i : Nat} (distinct : (l ++ [x]).Nodup)
    (at_ : (l ++ [x])[i]? = some v) : (l.set i x).Nodup :=
  (List.nodup_cons.mp ((cons_set_perm at_).nodup_iff.mpr distinct)).2

end LibCxxExt.ProofKit
