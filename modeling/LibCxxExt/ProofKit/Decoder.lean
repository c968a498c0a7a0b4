import Mathlib.Data.List.Basic
import Mathlib.Tactic.Ring

/-! Decoders over unit buffers. A decoder reads one symbol from the front of a nonempty buffer and
always makes progress, so that decoding a buffer ends and cuts the buffer into slices. When every
encoded symbol is read back in front of any continuation, decoding a concatenation of encoded
symbols gives these symbols and their sizes. -/

namespace LibCxxExt.ProofKit

/-- Reads one symbol from the front of a nonempty buffer. -/
structure Decoder (α β : Type*) where
  symbol : List α → β
  size : List α → Nat
  size_pos : ∀ s, s ≠ [] → 0 < size s
  size_le : ∀ s, s ≠ [] → size s ≤ s.length

namespace Decoder

variable {α β γ : Type*} (D : Decoder α β)

/-- The symbols of a buffer, each with the number of units it was read from. -/
def decode (s : List α) : List (β × Nat) :=
  if _ : s = [] then []
  else (D.symbol s, D.size s) :: decode (s.drop (D.size s))
termination_by s.length
decreasing_by
  have := D.size_pos s ‹_›
  have := D.size_le s ‹_›
  simp only [List.length_drop]
  omega

@[simp] theorem decode_nil : D.decode [] = [] := by
  rw [decode, dif_pos rfl]

theorem decode_ne_nil {s : List α} (h : s ≠ []) :
    D.decode s = (D.symbol s, D.size s) :: D.decode (s.drop (D.size s)) := by
  rw [decode, dif_neg h]

/-- Induction over the slices that a decoder cuts a buffer into. -/
theorem slices_induct {motive : List α → Prop} (nil : motive [])
    (cons : ∀ s, s ≠ [] → motive (s.drop (D.size s)) → motive s) (s : List α) : motive s := by
  induction hn : s.length using Nat.strong_induction_on generalizing s with
  | _ n ih =>
    by_cases h : s = []
    · exact h ▸ nil
    · have hpos := D.size_pos s h
      have hlen := List.length_pos_of_ne_nil h
      exact cons s h (ih _ (by rw [List.length_drop]; omega) _ rfl)

theorem forall_decode {P : β → Prop} (front : ∀ s, s ≠ [] → P (D.symbol s)) (s : List α) :
    ∀ x ∈ D.decode s, P x.1 := by
  induction s using D.slices_induct with
  | nil => simp
  | cons s h ih =>
    rw [D.decode_ne_nil h]
    intro x hx
    rcases List.mem_cons.mp hx with rfl | hx
    · exact front s h
    · exact ih x hx

/-- `enc c` is read back as `value c`, whatever follows it. -/
structure Reads (enc : γ → List α) (value : γ → β) : Prop where
  nonempty : ∀ c, enc c ≠ []
  symbol : ∀ c rest, D.symbol (enc c ++ rest) = value c
  size : ∀ c rest, D.size (enc c ++ rest) = (enc c).length

/-- Encoded symbols stay self-delimiting when they are concatenated. -/
theorem Reads.decode_flatMap {D : Decoder α β} {enc : γ → List α} {value : γ → β}
    (reads : D.Reads enc value) (cs : List γ) :
    D.decode (cs.flatMap enc) = cs.map fun c => (value c, (enc c).length) := by
  induction cs with
  | nil => simp
  | cons c cs ih =>
    have hne : enc c ++ cs.flatMap enc ≠ [] := by simp [reads.nonempty c]
    rw [List.flatMap_cons, D.decode_ne_nil hne, reads.symbol, reads.size, List.drop_left, ih,
      List.map_cons]

theorem Reads.decode_append {D : Decoder α β} {enc : γ → List α} {value : γ → β}
    (reads : D.Reads enc value) (cs : List γ) (rest : List α) :
    D.decode (cs.flatMap enc ++ rest) =
      (cs.map fun c => (value c, (enc c).length)) ++ D.decode rest := by
  induction cs with
  | nil => rfl
  | cons c cs ih =>
    have hne : enc c ++ (cs.flatMap enc ++ rest) ≠ [] := by simp [reads.nonempty c]
    rw [List.flatMap_cons, List.append_assoc, D.decode_ne_nil hne, reads.symbol, reads.size,
      List.drop_left, ih, List.map_cons, List.cons_append]

/-! ### Cutting the buffer -/

/-- The number of units that a part of a decoded buffer was read from. -/
def units (part : List (β × Nat)) : Nat := (part.map Prod.snd).sum

theorem units_nil : units ([] : List (β × Nat)) = 0 := rfl

theorem units_cons (x : β × Nat) (part : List (β × Nat)) :
    units (x :: part) = x.2 + units part := by
  simp [units]

theorem units_append (part part' : List (β × Nat)) :
    units (part ++ part') = units part + units part' := by
  simp [units]

/-- A buffer that starts with `part` is not empty unless `part` is, and starts with its first
symbol. -/
theorem decode_eq_cons {s : List α} {x : β × Nat} {rest : List (β × Nat)}
    (h : D.decode s = x :: rest) :
    s ≠ [] ∧ x = (D.symbol s, D.size s) ∧ D.decode (s.drop (D.size s)) = rest := by
  have nonempty : s ≠ [] := by
    rintro rfl
    simp at h
  rw [D.decode_ne_nil nonempty] at h
  exact ⟨nonempty, (List.cons.inj h).1.symm, (List.cons.inj h).2⟩

theorem units_decode (s : List α) : units (D.decode s) = s.length := by
  induction s using D.slices_induct with
  | nil => simp [units_nil]
  | cons s h ih =>
    have le := D.size_le s h
    rw [D.decode_ne_nil h, units_cons, ih, List.length_drop]
    omega

theorem decode_drop {s : List α} {front back : List (β × Nat)} (h : D.decode s = front ++ back) :
    D.decode (s.drop (units front)) = back := by
  induction front generalizing s with
  | nil => simpa [units_nil] using h
  | cons x front ih =>
    obtain ⟨-, rfl, rest⟩ := D.decode_eq_cons h
    rw [units_cons, ← List.drop_drop]
    exact ih rest

/-- A symbol is read in the same way when the buffer ends somewhere behind it. -/
def Local : Prop :=
  ∀ s n, s ≠ [] → D.size s ≤ n → D.symbol (s.take n) = D.symbol s ∧ D.size (s.take n) = D.size s

theorem Local.decode_take {D : Decoder α β} (isLocal : D.Local) {s : List α}
    {front back : List (β × Nat)} (h : D.decode s = front ++ back) :
    D.decode (s.take (units front)) = front := by
  induction front generalizing s with
  | nil => simp [units_nil]
  | cons x front ih =>
    obtain ⟨nonempty, rfl, rest⟩ := D.decode_eq_cons h
    have pos := D.size_pos s nonempty
    have length := List.length_pos_of_ne_nil nonempty
    obtain ⟨symbol, size⟩ := isLocal s (D.size s + units front) nonempty (Nat.le_add_right _ _)
    have left : s.take (D.size s + units front) ≠ [] := by
      rw [← List.length_pos_iff, List.length_take]
      omega
    rw [units_cons, D.decode_ne_nil left, symbol, size, List.drop_take, Nat.add_sub_cancel_left]
    exact congrArg _ (ih rest)

/-! ### Slices -/

/-- The slices that a buffer is cut into, one for each symbol. -/
def slices (s : List α) : List (List α) :=
  if _ : s = [] then []
  else s.take (D.size s) :: slices (s.drop (D.size s))
termination_by s.length
decreasing_by
  have := D.size_pos s ‹_›
  have := D.size_le s ‹_›
  simp only [List.length_drop]
  omega

@[simp] theorem slices_nil : D.slices [] = [] := by
  rw [slices, dif_pos rfl]

theorem slices_ne_nil {s : List α} (h : s ≠ []) :
    D.slices s = s.take (D.size s) :: D.slices (s.drop (D.size s)) := by
  rw [slices, dif_neg h]

theorem slices_eq_nil_iff {s : List α} : D.slices s = [] ↔ s = [] := by
  by_cases h : s = []
  · simp [h]
  · simp [D.slices_ne_nil h, h]

theorem flatten_slices (s : List α) : (D.slices s).flatten = s := by
  induction s using D.slices_induct with
  | nil => simp
  | cons s h ih => rw [D.slices_ne_nil h, List.flatten_cons, ih, List.take_append_drop]

theorem ne_nil_of_mem_slices (s : List α) : ∀ slice ∈ D.slices s, slice ≠ [] := by
  induction s using D.slices_induct with
  | nil => simp
  | cons s h ih =>
    have pos := D.size_pos s h
    rw [D.slices_ne_nil h]
    refine List.forall_mem_cons.mpr ⟨?_, ih⟩
    simp [h, pos.ne']

theorem length_slices_le (s : List α) : (D.slices s).length ≤ s.length := by
  induction s using D.slices_induct with
  | nil => simp
  | cons s h ih =>
    have pos := D.size_pos s h
    have le := D.size_le s h
    rw [List.length_drop] at ih
    rw [D.slices_ne_nil h, List.length_cons]
    omega

/-- Where the `k`-th slice starts. -/
def boundary (s : List α) (k : Nat) : Nat := ((D.slices s).take k).flatten.length

theorem slices_drop_boundary (s : List α) (k : Nat) :
    D.slices (s.drop (D.boundary s k)) = (D.slices s).drop k := by
  induction k generalizing s with
  | zero => simp [boundary]
  | succ k ih =>
    by_cases h : s = []
    · simp [h]
    · have start : D.boundary s (k + 1) = D.size s + D.boundary (s.drop (D.size s)) k := by
        simp [boundary, D.slices_ne_nil h, D.size_le s h]
      rw [start, ← List.drop_drop, ih, D.slices_ne_nil h, List.drop_succ_cons]

theorem boundary_succ {s : List α} {k : Nat} (h : s.drop (D.boundary s k) ≠ []) :
    D.boundary s (k + 1) = D.boundary s k + D.size (s.drop (D.boundary s k)) := by
  have rest := D.slices_drop_boundary s k
  rw [D.slices_ne_nil h] at rest
  have le := D.size_le _ h
  have next : ((D.slices s).take (k + 1)).flatten =
      ((D.slices s).take k).flatten ++
        (s.drop (D.boundary s k)).take (D.size (s.drop (D.boundary s k))) := by
    rw [List.take_add, ← rest]
    simp
  rw [boundary, next, List.length_append, List.length_take, min_eq_left le]
  rfl

theorem boundary_le (s : List α) (k : Nat) : D.boundary s k ≤ s.length := by
  have split := congrArg List.length (D.flatten_slices s)
  rw [← List.take_append_drop k (D.slices s), List.flatten_append, List.length_append] at split
  rw [boundary]
  omega

/-- The buffer ends at the boundaries behind the last slice. -/
theorem boundary_eq_length_iff (s : List α) (k : Nat) :
    D.boundary s k = s.length ↔ (D.slices s).length ≤ k := by
  have le := D.boundary_le s k
  rw [← List.drop_eq_nil_iff, ← D.slices_drop_boundary, D.slices_eq_nil_iff, List.drop_eq_nil_iff]
  omega

end Decoder

end LibCxxExt.ProofKit
