import Mathlib.Algebra.Order.Group.Abs
import Mathlib.Order.Interval.Set.OrdConnected

/-! The value of a set that is nearest to a given one. Where the sets are intervals that overlap, to
take the nearest value of one after the other is to take that of the intersection, in any order. -/

namespace LibCxxExt.ProofKit

variable {α : Type*} [AddCommGroup α] [LinearOrder α] [IsOrderedAddMonoid α]

/-- `r` is a value of `S`, and none is nearer to `v`. -/
def Nearest (S : Set α) (v r : α) : Prop := r ∈ S ∧ ∀ w ∈ S, |v - r| ≤ |v - w|

variable {S U : Set α} {v r r' z : α}

theorem Nearest.of_mem (inside : v ∈ S) : Nearest S v v :=
  ⟨inside, fun w _ => by rw [sub_self, abs_zero]; exact abs_nonneg _⟩

theorem Nearest.eq_of_mem (nearest : Nearest S v r) (inside : v ∈ S) : r = v := by
  have close := nearest.2 v inside
  rw [sub_self, abs_zero] at close
  exact (sub_eq_zero.mp (abs_nonpos_iff.mp close)).symm

/-- Where all of `S` is at least `v`, the least value is the nearest. -/
theorem nearest_of_le (inside : r ∈ S) (above : v ≤ r) (least : ∀ w ∈ S, r ≤ w) :
    Nearest S v r := by
  refine ⟨inside, fun w mem => ?_⟩
  have le := least w mem
  rw [abs_sub_comm v r, abs_sub_comm v w, abs_of_nonneg (sub_nonneg.mpr above),
    abs_of_nonneg (sub_nonneg.mpr (above.trans le))]
  exact sub_le_sub_right le v

theorem nearest_of_ge (inside : r ∈ S) (below : r ≤ v) (greatest : ∀ w ∈ S, w ≤ r) :
    Nearest S v r := by
  refine ⟨inside, fun w mem => ?_⟩
  have le := greatest w mem
  rw [abs_of_nonneg (sub_nonneg.mpr below), abs_of_nonneg (sub_nonneg.mpr (le.trans below))]
  exact sub_le_sub_left le v

theorem nearest_clamp {lo hi : α} (proper : lo ≤ hi) (v : α) :
    Nearest (Set.Icc lo hi) v (max lo (min v hi)) := by
  rcases le_total v lo with below | low
  · rw [min_eq_left (below.trans proper), max_eq_left below]
    exact nearest_of_le (Set.left_mem_Icc.mpr proper) below fun w mem => mem.1
  rcases le_total v hi with high | above
  · rw [min_eq_left high, max_eq_right low]
    exact .of_mem ⟨low, high⟩
  · rw [min_eq_right above, max_eq_right proper]
    exact nearest_of_ge (Set.right_mem_Icc.mpr proper) above fun w mem => mem.2

section Intervals

variable (hS : S.OrdConnected)

include hS

/-- Nothing of an interval lies between a value and the nearest one. -/
theorem Nearest.outermost (nearest : Nearest S v r) :
    r = v ∨ v < r ∧ (∀ w ∈ S, r ≤ w) ∨ r < v ∧ ∀ w ∈ S, w ≤ r := by
  rcases lt_trichotomy v r with below | same | above
  · refine .inr (.inl ⟨below, fun w mem => ?_⟩)
    by_contra! less
    -- A smaller value is nearer, unless it lies on the other side of `v`, which is in between then.
    rcases le_total v w with le | le
    · have close := nearest.2 w mem
      rw [abs_sub_comm v r, abs_sub_comm v w, abs_of_nonneg (sub_nonneg.mpr below.le),
        abs_of_nonneg (sub_nonneg.mpr le)] at close
      exact absurd ((sub_le_sub_iff_right v).mp close) (not_le.mpr less)
    · exact below.ne (nearest.eq_of_mem (hS.out mem nearest.1 ⟨le, below.le⟩)).symm
  · exact .inl same.symm
  · refine .inr (.inr ⟨above, fun w mem => ?_⟩)
    by_contra! more
    rcases le_total w v with le | le
    · have close := nearest.2 w mem
      rw [abs_of_nonneg (sub_nonneg.mpr above.le), abs_of_nonneg (sub_nonneg.mpr le)] at close
      exact absurd ((sub_le_sub_iff_left v).mp close) (not_le.mpr more)
    · exact above.ne (nearest.eq_of_mem (hS.out nearest.1 mem ⟨above.le, le⟩))

theorem Nearest.unique (first : Nearest S v r) (second : Nearest S v r') : r = r' := by
  rcases first.outermost hS with rfl | ⟨below, least⟩ | ⟨above, greatest⟩
  · exact (second.eq_of_mem first.1).symm
  · rcases second.outermost hS with rfl | ⟨-, least'⟩ | ⟨above, -⟩
    · exact first.eq_of_mem second.1
    · exact le_antisymm (least _ second.1) (least' _ first.1)
    · exact absurd ((below.trans_le (least _ second.1)).trans above) (lt_irrefl v)
  · rcases second.outermost hS with rfl | ⟨below, -⟩ | ⟨-, greatest'⟩
    · exact first.eq_of_mem second.1
    · exact absurd ((below.trans_le (greatest _ second.1)).trans above) (lt_irrefl v)
    · exact le_antisymm (greatest' _ first.1) (greatest _ second.1)

/-- The nearest value of `U` to the nearest one of `S` is the nearest one that both have. -/
theorem Nearest.inter (hU : U.OrdConnected) (overlap : (S ∩ U).Nonempty)
    (first : Nearest S v r) (second : Nearest U r r') : Nearest (S ∩ U) v r' := by
  obtain ⟨z, inS, inU⟩ := overlap
  have within : r' ∈ S := by
    rcases second.outermost hU with rfl | ⟨below, least⟩ | ⟨above, greatest⟩
    · exact first.1
    · exact hS.out first.1 inS ⟨below.le, least z inU⟩
    · exact hS.out inS first.1 ⟨greatest z inU, above.le⟩
  rcases second.outermost hU with rfl | ⟨below, least⟩ | ⟨above, greatest⟩
  · exact ⟨⟨within, second.1⟩, fun w mem => first.2 w mem.1⟩
  · refine nearest_of_le ⟨within, second.1⟩ ?_ fun w mem => least w mem.2
    rcases first.outermost hS with rfl | ⟨lower, -⟩ | ⟨-, greatest⟩
    · exact below.le
    · exact (lower.trans below).le
    · exact absurd (greatest r' within) (not_le.mpr below)
  · refine nearest_of_ge ⟨within, second.1⟩ ?_ fun w mem => greatest w mem.2
    rcases first.outermost hS with rfl | ⟨-, least⟩ | ⟨higher, -⟩
    · exact above.le
    · exact absurd (least r' within) (not_le.mpr above)
    · exact (above.trans higher).le

end Intervals

end LibCxxExt.ProofKit
