import LibCxxExt.ProofKit.Nearest
import LibCxxExt.Sys.IntegerPrograms
import Mathlib

/-! Comparisons and conversions between integers of different types. The comparisons of C++ convert
their operands first, and a negative one to a large one; those of the wrapper go through
`std::cmp_equal` and `std::cmp_less`, and so do the casts of `Numeric.h`. -/

namespace LibCxxExt.Sys

open LibCxxExt.ProofKit

inductive Comparison
  | eq | lt | le | gt | ge

namespace Comparison

def onValues : Comparison → Int → Int → Bool
  | eq, v, w => v = w
  | lt, v, w => v < w
  | le, v, w => v ≤ w
  | gt, v, w => w < v
  | ge, v, w => w ≤ v

/-- The comparison of built-in integers, after the usual arithmetic conversions. -/
def builtin {T U : IntTy} (op : Comparison) (a : CInt T) (b : CInt U) : Bool :=
  op.onValues (a.cast (T.common U)).val (b.cast (T.common U)).val

end Comparison

/-- `std::cmp_equal`. -/
def cmpEqual {T U : IntTy} (t : CInt T) (u : CInt U) : Bool :=
  if T.signed = U.signed then t.eq u
  else if T.signed then if t.lt (.ofInt .int 0) then false else (t.cast T.toUnsigned).eq u
  else if u.lt (.ofInt .int 0) then false else t.eq (u.cast U.toUnsigned)

/-- `std::cmp_less`. -/
def cmpLess {T U : IntTy} (t : CInt T) (u : CInt U) : Bool :=
  if T.signed = U.signed then t.lt u
  else if T.signed then if t.lt (.ofInt .int 0) then true else (t.cast T.toUnsigned).lt u
  else if u.lt (.ofInt .int 0) then false else t.lt (u.cast U.toUnsigned)

namespace Comparison

/-- `std::cmp_equal`, `std::cmp_less`, `std::cmp_less_equal`, `std::cmp_greater` and
`std::cmp_greater_equal`. -/
def cmp {T U : IntTy} (op : Comparison) (t : CInt T) (u : CInt U) : Bool :=
  match op with
  | eq => cmpEqual t u
  | lt => cmpLess t u
  | le => !cmpLess u t
  | gt => cmpLess u t
  | ge => !cmpLess t u

/-- The operator of two wrapped integers. -/
def integers {T U : IntTy} (op : Comparison) (a : Integer T) (b : Integer U) : Bool :=
  if T = U then op.builtin a.underlying b.underlying else op.cmp a.underlying b.underlying

/-- The operator of a wrapped integer and a built-in one. -/
def integerBuiltin {T U : IntTy} (op : Comparison) (a : Integer T) (b : CInt U) : Bool :=
  if U = T then op.builtin a.underlying b else op.cmp a.underlying b

/-- The operator of a built-in integer and a wrapped one. -/
def builtinInteger {T U : IntTy} (op : Comparison) (a : CInt U) (b : Integer T) : Bool :=
  if U = T then op.builtin a b.underlying else op.cmp a b.underlying

end Comparison

/-- `bnumeric_cast<To>(value)` for an integer `value`: the value, or `nullptr`. -/
def bnumericCastResult {T : IntTy} (To : IntTy) (value : CInt T) : Option (CInt To) :=
  if cmpLess value (CInt.ofInt To To.lowest) || Comparison.gt.cmp value (CInt.ofInt To To.highest)
  then none
  else some (value.cast To)

/-! ### Comparisons -/

section Compare

variable {T U : IntTy}

/-- Types of one signedness have a common one that holds the values of both. -/
theorem inRange_common_of_alike {v : Int} (alike : T.signed = U.signed)
    (inside : T.InRange v ∨ U.InRange v) : (T.common U).InRange v := by
  obtain ⟨narrow, s⟩ := T
  obtain ⟨wide, s'⟩ := U
  obtain rfl : s = s' := alike
  cases narrow <;> cases wide <;> cases s <;>
    simp [IntTy.InRange, IntTy.lowest, IntTy.highest, IntTy.common, IntTy.promoted, IntTy.bits]
      at inside ⊢ <;> omega

/-- Operands of one signedness are compared by value. -/
theorem builtin_alike (alike : T.signed = U.signed) (op : Comparison) (a : CInt T) (b : CInt U) :
    op.builtin a b = op.onValues a.val b.val := by
  rw [Comparison.builtin, CInt.cast_val, CInt.cast_val,
    IntTy.wrap_of_inRange (inRange_common_of_alike alike (.inl a.inRange)),
    IntTy.wrap_of_inRange (inRange_common_of_alike alike (.inr b.inRange))]

theorem eq_alike (alike : T.signed = U.signed) (a : CInt T) (b : CInt U) :
    a.eq b = decide (a.val = b.val) :=
  builtin_alike alike .eq a b

theorem lt_alike (alike : T.signed = U.signed) (a : CInt T) (b : CInt U) :
    a.lt b = decide (a.val < b.val) :=
  builtin_alike alike .lt a b

theorem toUnsigned_val {a : CInt T} (nonneg : 0 ≤ a.val) : (a.cast T.toUnsigned).val = a.val :=
  Integer.u_of_nonneg (a := ⟨a⟩) nonneg

theorem nonneg_of_unsigned (signed : ¬ T.signed = true) (a : CInt T) : 0 ≤ a.val := by
  by_contra negative
  exact signed (Integer.signed_of_negative (not_le.mp negative))

theorem cmpEqual_eq (t : CInt T) (u : CInt U) : cmpEqual t u = decide (t.val = u.val) := by
  rw [cmpEqual]
  split_ifs with alike signed negative negative
  · exact eq_alike alike t u
  · have below := (CInt.lt_zero_iff t).mp negative
    have above := nonneg_of_unsigned (fun other => alike (signed.trans other.symm)) u
    exact (decide_eq_false (by omega)).symm
  · have above := not_lt.mp (mt (CInt.lt_zero_iff t).mpr negative)
    have unsigned : false = U.signed := by
      cases other : U.signed with
      | false => rfl
      | true => exact absurd (signed.trans other.symm) alike
    rw [eq_alike unsigned, toUnsigned_val above]
  · have below := (CInt.lt_zero_iff u).mp negative
    have above := nonneg_of_unsigned signed t
    exact (decide_eq_false (by omega)).symm
  · have above := not_lt.mp (mt (CInt.lt_zero_iff u).mpr negative)
    rw [eq_alike (Bool.eq_false_of_not_eq_true signed), toUnsigned_val above]

theorem cmpLess_eq (t : CInt T) (u : CInt U) : cmpLess t u = decide (t.val < u.val) := by
  rw [cmpLess]
  split_ifs with alike signed negative negative
  · exact lt_alike alike t u
  · have below := (CInt.lt_zero_iff t).mp negative
    have above := nonneg_of_unsigned (fun other => alike (signed.trans other.symm)) u
    exact (decide_eq_true (by omega)).symm
  · have above := not_lt.mp (mt (CInt.lt_zero_iff t).mpr negative)
    have unsigned : false = U.signed := by
      cases other : U.signed with
      | false => rfl
      | true => exact absurd (signed.trans other.symm) alike
    rw [lt_alike unsigned, toUnsigned_val above]
  · have below := (CInt.lt_zero_iff u).mp negative
    have above := nonneg_of_unsigned signed t
    exact (decide_eq_false (by omega)).symm
  · have above := not_lt.mp (mt (CInt.lt_zero_iff u).mpr negative)
    rw [lt_alike (Bool.eq_false_of_not_eq_true signed), toUnsigned_val above]

theorem Comparison.cmp_eq (op : Comparison) (t : CInt T) (u : CInt U) :
    op.cmp t u = op.onValues t.val u.val := by
  cases op with
  | eq => exact cmpEqual_eq t u
  | lt => exact cmpLess_eq t u
  | gt => exact cmpLess_eq u t
  | le => rw [cmp, cmpLess_eq, onValues, ← decide_not, decide_eq_decide, Int.not_lt]
  | ge => rw [cmp, cmpLess_eq, onValues, ← decide_not, decide_eq_decide, Int.not_lt]

end Compare

/-- Whatever the types of the operands, a comparison with a wrapped integer on either side is the
comparison of the values. -/
theorem compares_values (op : Comparison) {T U : IntTy} :
    (∀ (a : Integer T) (b : Integer U),
      op.integers a b = op.onValues a.underlying.val b.underlying.val) ∧
    (∀ (a : Integer T) (b : CInt U), op.integerBuiltin a b = op.onValues a.underlying.val b.val) ∧
    ∀ (a : CInt U) (b : Integer T), op.builtinInteger a b = op.onValues a.val b.underlying.val := by
  refine ⟨fun a b => ?_, fun a b => ?_, fun a b => ?_⟩
  · rw [Comparison.integers]
    split_ifs with same
    · exact builtin_alike (congrArg IntTy.signed same) op a.underlying b.underlying
    · exact op.cmp_eq a.underlying b.underlying
  · rw [Comparison.integerBuiltin]
    split_ifs with same
    · exact builtin_alike (congrArg IntTy.signed same.symm) op a.underlying b
    · exact op.cmp_eq a.underlying b
  · rw [Comparison.builtinInteger]
    split_ifs with same
    · exact builtin_alike (congrArg IntTy.signed same) op a b.underlying
    · exact op.cmp_eq a b.underlying

-- Without the wrapper `-1 < 1u` is false.
example : Comparison.lt.builtin (⟨-1, by decide⟩ : CInt ⟨.w32, true⟩)
    (⟨1, by decide⟩ : CInt ⟨.w32, false⟩) = false := by decide

/-! ### Conversions -/

/-- Saturating conversions of `integer` from type to type. -/
def saturated {T : IntTy} (a : Integer T) (types : List IntTy) : Σ U, Integer U :=
  types.foldl (fun x U => ⟨U, .saturating x.2.underlying⟩) ⟨T, a⟩

/-- Casts from type to type by `bnumeric_cast<To>(value)`, as long as they succeed. -/
def casted {T : IntTy} (a : CInt T) (types : List IntTy) : Option (Σ U, CInt U) :=
  types.foldlM (fun x U => (bnumericCastResult U x.2).map (Sigma.mk U)) ⟨T, a⟩

/-- The values of all of the types. -/
def shared (types : List IntTy) : Set Int := {v | ∀ U ∈ types, U.InRange v}

theorem shared_ordConnected (types : List IntTy) : (shared types).OrdConnected :=
  ⟨fun _ hv _ hw _ between U mem => ⟨(hv U mem).1.trans between.1, between.2.trans (hw U mem).2⟩⟩

theorem zero_mem_shared (types : List IntTy) : 0 ∈ shared types := fun U _ => U.inRange_zero

theorem shared_snoc (types : List IntTy) (U : IntTy) :
    shared (types ++ [U]) = shared types ∩ Set.Icc U.lowest U.highest := by
  ext v
  simp only [shared, Set.mem_ofPred_eq, List.mem_append, List.mem_singleton, Set.mem_inter_iff]
  constructor
  · exact fun inside => ⟨fun V mem => inside V (.inl mem), inside U (.inr rfl)⟩
  · rintro ⟨inside, last⟩ V (mem | rfl)
    · exact inside V mem
    · exact last

theorem saturated_snoc {T : IntTy} (a : Integer T) (types : List IntTy) (U : IntTy) :
    saturated a (types ++ [U]) = ⟨U, .saturating (saturated a types).2.underlying⟩ := by
  rw [saturated, List.foldl_append]
  rfl

theorem saturated_nearest {T : IntTy} (a : Integer T) (types : List IntTy) :
    Nearest (shared types) a.underlying.val (saturated a types).2.underlying.val := by
  induction types using List.reverseRecOn with
  | nil => exact .of_mem fun _ mem => nomatch mem
  | append_singleton types U ih =>
    have last := nearest_clamp (U.inRange_lowest.2) (saturated a types).2.underlying.val
    have overlap : (shared types ∩ Set.Icc U.lowest U.highest).Nonempty :=
      ⟨0, zero_mem_shared types, U.inRange_zero⟩
    rw [shared_snoc, saturated_snoc, Integer.saturating_clamp]
    exact ih.inter (shared_ordConnected types) Set.ordConnected_Icc overlap last

theorem bnumericCastResult_eq {T : IntTy} (To : IntTy) (value : CInt T) :
    bnumericCastResult To value =
      if inside : To.InRange value.val then some ⟨value.val, inside⟩ else none := by
  have low : (CInt.ofInt To To.lowest).val = To.lowest := IntTy.wrap_of_inRange To.inRange_lowest
  have high : (CInt.ofInt To To.highest).val = To.highest :=
    IntTy.wrap_of_inRange To.inRange_highest
  simp only [bnumericCastResult, cmpLess_eq, Comparison.cmp_eq, Comparison.onValues, low, high,
    Bool.or_eq_true, decide_eq_true_eq]
  split_ifs with outside inside inside
  · have := inside.1
    have := inside.2
    omega
  · rfl
  · exact congrArg some (CInt.ext (IntTy.wrap_of_inRange inside))
  · exact absurd ⟨not_lt.mp (outside ∘ .inl), not_lt.mp (outside ∘ .inr)⟩ inside

theorem casted_cons {T : IntTy} (a : CInt T) (U : IntTy) (types : List IntTy) :
    casted a (U :: types) =
      if inside : U.InRange a.val then casted ⟨a.val, inside⟩ types else none := by
  rw [casted, List.foldlM_cons, bnumericCastResult_eq]
  split_ifs <;> rfl

theorem casted_isSome_iff {T : IntTy} (a : CInt T) (types : List IntTy) :
    (casted a types).isSome ↔ a.val ∈ shared types := by
  induction types generalizing T with
  | nil => exact iff_of_true rfl fun _ mem => nomatch mem
  | cons U types ih =>
    have first : a.val ∈ shared (U :: types) ↔ U.InRange a.val ∧ a.val ∈ shared types :=
      List.forall_mem_cons
    rw [casted_cons, first]
    split_ifs with inside
    · exact (ih ⟨a.val, inside⟩).trans (and_iff_right inside).symm
    · exact iff_of_false Bool.false_ne_true fun both => inside both.1

theorem casted_val {T : IntTy} {a : CInt T} {types : List IntTy} {x : Σ U, CInt U}
    (success : casted a types = some x) : x.2.val = a.val := by
  induction types generalizing T with
  | nil =>
    obtain rfl := Option.some.inj success
    rfl
  | cons U types ih =>
    rw [casted_cons] at success
    split_ifs at success
    have kept := ih success
    exact kept

/-- Saturating conversions from type to type give the value that is nearest to the first one among
those that all of the types have, whatever the order of the types and however often one occurs. The
checked casts through the same types succeed exactly when that is the value itself, and keep it. -/
theorem conversions_nearest {T : IntTy} (a : Integer T) (types : List IntTy) :
    Nearest (shared types) a.underlying.val (saturated a types).2.underlying.val ∧
    (∀ types', (∀ U, U ∈ types ↔ U ∈ types') →
      (saturated a types').2.underlying.val = (saturated a types).2.underlying.val) ∧
    ((casted a.underlying types).isSome ↔
      (saturated a types).2.underlying.val = a.underlying.val) ∧
    ∀ x, casted a.underlying types = some x → x.2.val = a.underlying.val := by
  have nearest := saturated_nearest a types
  refine ⟨nearest, fun types' same => ?_, ?_, fun x => casted_val⟩
  · have alike : shared types' = shared types := by
      ext v
      simp only [shared, same, Set.mem_ofPred_eq]
    have other := saturated_nearest a types'
    rw [alike] at other
    exact other.unique (shared_ordConnected types) nearest
  · rw [casted_isSome_iff]
    constructor
    · exact nearest.eq_of_mem
    · intro kept
      exact kept ▸ nearest.1

end LibCxxExt.Sys
