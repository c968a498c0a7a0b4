import Mathlib.Data.List.Lex
import Mathlib.Data.List.TakeWhile
import Mathlib.Data.UInt
import Mathlib.Order.Compare
import Mathlib.Order.Lattice

/-! The comparison operators of `class string` (`StringEx.h`). The units of a character type are
linearly ordered by `char_traits::lt`, and `0` is its NUL. A string and a view are their units.
With the string on the right the source compares the same way round as with it on the left, so that
these expressions are right for equal texts alone. -/

namespace LibCxxExt.Text

/-! ### The order of texts -/

section Order

variable {T : Type} [LinearOrder T]

/-- `char_traits::compare` of as many units as both texts have. -/
def traitsCompare : List T → List T → Ordering
  | a :: as, b :: bs => if a < b then .lt else if b < a then .gt else traitsCompare as bs
  | _, _ => .eq

/-- `basic_string::compare`, which every three-way comparison of `basic_string` returns. -/
def basicCompare (a b : List T) : Ordering :=
  match traitsCompare a b with
  | .eq => compare a.length b.length
  | order => order

/-- The equality of `basic_string` with another text. -/
def basicEqual (a b : List T) : Bool := a.length = b.length && traitsCompare a b == .eq

theorem basicCompare_cons (a b : T) (as bs : List T) : basicCompare (a :: as) (b :: bs) =
    if a < b then .lt else if b < a then .gt else basicCompare as bs := by
  have sizes : compare (a :: as).length (b :: bs).length = compare as.length bs.length := by
    simp [compare, compareOfLessAndEq]
  unfold basicCompare
  rw [traitsCompare, sizes]
  split_ifs <;> rfl

/-- `basic_string::compare` is the lexicographic comparison. -/
theorem basicCompare_compares (a b : List T) : (basicCompare a b).Compares a b := by
  induction a generalizing b with
  | nil =>
    cases b with
    | nil => exact rfl
    | cons y b => exact List.nil_lt_cons y b
  | cons x a ih =>
    cases b with
    | nil => exact List.nil_lt_cons x a
    | cons y b =>
      rw [basicCompare_cons]
      split_ifs with less greater
      · exact List.cons_lt_cons_iff.mpr (.inl less)
      · exact List.cons_lt_cons_iff.mpr (.inl greater)
      · obtain rfl := le_antisymm (not_lt.mp greater) (not_lt.mp less)
        have tails := ih b
        cases order : basicCompare a b with
        | lt =>
          rw [order] at tails
          exact List.cons_lt_cons_iff.mpr (.inr ⟨rfl, tails⟩)
        | gt =>
          rw [order] at tails
          exact List.cons_lt_cons_iff.mpr (.inr ⟨rfl, tails⟩)
        | eq =>
          rw [order] at tails
          exact congrArg (x :: ·) tails

theorem basicEqual_iff (a b : List T) : basicEqual a b = true ↔ a = b := by
  have same := (basicCompare_compares a b).eq_eq
  rw [← same, basicEqual, basicCompare]
  cases h : traitsCompare a b <;> simp

end Order

/-! ### Literals -/

/-- A string literal: an array of `N` units, of which the last is its terminator. -/
structure Literal (T : Type) [Zero T] (N : Nat) where
  units : List T
  size_eq : units.length = N
  terminated : units.getLast? = some 0

section Literals

variable {T : Type} [Zero T] {N : Nat}

/-- `std::string(str, str + N - 1)`, by which `string` is constructed from an array. -/
def Literal.text (b : Literal T N) : List T := b.units.take (N - 1)

/-- The text that a pointer to the literal denotes. It ends before the first NUL. -/
def Literal.cString [DecidableEq T] (b : Literal T N) : List T := b.units.takeWhile (· ≠ 0)

theorem Literal.units_eq (b : Literal T N) : b.units = b.text ++ [0] := by
  obtain ⟨front, shape⟩ := List.getLast?_eq_some_iff.mp b.terminated
  have size := b.size_eq
  rw [shape, List.length_append, List.length_singleton] at size
  rw [text, shape, ← size, Nat.add_sub_cancel, List.take_left]

theorem Literal.cString_eq_text_iff [DecidableEq T] (b : Literal T N) :
    b.cString = b.text ↔ 0 ∉ b.text := by
  rw [cString, units_eq]
  constructor
  · intro same mem
    have kept := List.mem_takeWhile_imp (same ▸ mem)
    simp at kept
  · intro inside
    have every : ∀ u ∈ b.text, (decide (u ≠ 0)) = true := fun u mem =>
      decide_eq_true fun zero => inside (zero ▸ mem)
    rw [List.takeWhile_append_of_pos every]
    simp

end Literals

section Operators

variable {T : Type} [LinearOrder T] [Zero T] {N : Nat}

/-! ### The operators -/

/-- `operator<=>(const string& a, const T (&b)[N])`. -/
def stringArray (a : List T) (b : Literal T N) : Ordering := basicCompare a b.cString

/-- `operator<=>(const T (&a)[N], const string& b)`. -/
def arrayString (a : Literal T N) (b : List T) : Ordering := basicCompare b a.cString

/-- `operator<=>(const string& a, const std::basic_string_view<T>& b)`. -/
def stringView (a b : List T) : Ordering := basicCompare a b

/-- `operator<=>(const std::basic_string_view<T>& a, const string& b)`. -/
def viewString (a b : List T) : Ordering := basicCompare b a

/-- `operator==(const string& a, const T (&b)[N])`. -/
def stringArrayEqual (a : List T) (b : Literal T N) : Bool := basicEqual a b.cString

/-- `operator==(const T (&a)[N], const string& b)`. -/
def arrayStringEqual (a : Literal T N) (b : List T) : Bool := basicEqual b a.cString

/-- `operator==(const string& a, const std::basic_string_view<T>& b)`. -/
def stringViewEqual (a b : List T) : Bool := basicEqual a b

/-- `operator==(const std::basic_string_view<T>& a, const string& b)`. -/
def viewStringEqual (a b : List T) : Bool := basicEqual b a

/-- The operand that a string is compared with. -/
inductive Operand (T : Type) [Zero T]
  | view (s : List T)
  | array {N : Nat} (b : Literal T N)

/-- The relational operators. -/
inductive Relation
  | lt
  | gt
  | le
  | ge
  | eq
  | ne
  deriving DecidableEq, Repr

/-- The operator with its operands exchanged. -/
def Relation.converse : Relation → Relation
  | lt => gt
  | gt => lt
  | le => ge
  | ge => le
  | eq => eq
  | ne => ne

/-- The comparison `order op 0` of the result of `<=>`. -/
def Relation.test : Relation → Ordering → Bool
  | lt, order => order.isLT
  | gt, order => order.isGT
  | le, order => order.isLE
  | ge, order => order.isGE
  | eq, order => order.isEq
  | ne, order => order.isNe

/-- The operator on the values of a linear order. -/
def Relation.Holds {α : Type} [LinearOrder α] : Relation → α → α → Prop
  | lt, x, y => x < y
  | gt, x, y => y < x
  | le, x, y => x ≤ y
  | ge, x, y => y ≤ x
  | eq, x, y => x = y
  | ne, x, y => x ≠ y

-- An overload that takes both operands as they are and in this order comes before the one with its
-- parameters reversed and before every implicit conversion.
/-- `a <=> b`. -/
def compareRight (a : List T) : Operand T → Ordering
  | .view b => stringView a b
  | .array b => stringArray a b

/-- `b <=> a`. -/
def compareLeft : Operand T → List T → Ordering
  | .view b, a => viewString b a
  | .array b, a => arrayString b a

/-- `a == b`. -/
def equalRight (a : List T) : Operand T → Bool
  | .view b => stringViewEqual a b
  | .array b => stringArrayEqual a b

/-- `b == a`. -/
def equalLeft : Operand T → List T → Bool
  | .view b, a => viewStringEqual b a
  | .array b, a => arrayStringEqual b a

/-- The relational expression `a op b`, which is rewritten to `!(a == b)` or `(a <=> b) op 0`. -/
def right (op : Relation) (a : List T) (b : Operand T) : Bool :=
  match op with
  | .eq => equalRight a b
  | .ne => !equalRight a b
  | op => op.test (compareRight a b)

/-- The relational expression `b op a`. -/
def left (op : Relation) (b : Operand T) (a : List T) : Bool :=
  match op with
  | .eq => equalLeft b a
  | .ne => !equalLeft b a
  | op => op.test (compareLeft b a)

/-! ### Operands -/

/-- The text of an operand, which is the string constructed from it. -/
def Operand.text : Operand T → List T
  | .view s => s
  | .array b => b.text

/-- What the operators read of an operand. -/
def Operand.read : Operand T → List T
  | .view s => s
  | .array b => b.cString

/-- No NUL stands inside a literal. -/
def Operand.Whole : Operand T → Prop
  | .view _ => True
  | .array b => 0 ∉ b.text

theorem Operand.read_eq_text_iff (b : Operand T) : b.read = b.text ↔ b.Whole := by
  cases b with
  | view s => exact iff_of_true rfl trivial
  | array b => exact b.cString_eq_text_iff

theorem compareRight_eq (a : List T) (b : Operand T) :
    compareRight a b = basicCompare a b.read := by
  cases b <;> rfl

theorem compareLeft_eq (b : Operand T) (a : List T) :
    compareLeft b a = basicCompare a b.read := by
  cases b <;> rfl

theorem equalRight_iff (a : List T) (b : Operand T) : equalRight a b = true ↔ a = b.read := by
  cases b <;> exact basicEqual_iff _ _

theorem equalLeft_iff (b : Operand T) (a : List T) : equalLeft b a = true ↔ a = b.read := by
  cases b <;> exact basicEqual_iff _ _

/-! ### Sides -/

/-- It does not matter on which side of an operator the string `a` stands: both comparisons are the
lexicographic one of the two texts. -/
structure SideIndependent (a : List T) (b : Operand T) : Prop where
  reversed : compareLeft b a = (compareRight a b).swap
  exchanged : ∀ op, left op b a = right op.converse a b
  compares_right : (compareRight a b).Compares a b.text
  compares_left : (compareLeft b a).Compares b.text a
  right_iff : ∀ op, right op a b = true ↔ op.Holds a b.text
  left_iff : ∀ op, left op b a = true ↔ op.Holds b.text a
  total : right .le a b = true ∨ left .le b a = true
  antisymm : right .le a b = true → left .le b a = true → right .eq a b = true

theorem right_self {op : Relation} {a : List T} {b : Operand T} (same : a = b.read) :
    right op a b = true ↔ op.Holds a a := by
  have equal := (equalRight_iff a b).mpr same
  have order : compareRight a b = .eq := by
    rw [compareRight_eq, ← same]
    exact (basicCompare_compares a a).eq_eq.mpr rfl
  cases op <;> simp [right, equal, order, Relation.test, Relation.Holds]

theorem left_self {op : Relation} {a : List T} {b : Operand T} (same : a = b.read) :
    left op b a = true ↔ op.Holds a a := by
  have equal := (equalLeft_iff b a).mpr same
  have order : compareLeft b a = .eq := by
    rw [compareLeft_eq, ← same]
    exact (basicCompare_compares a a).eq_eq.mpr rfl
  cases op <;> simp [left, equal, order, Relation.test, Relation.Holds]

theorem sideIndependent_iff (a : List T) (b : Operand T) :
    SideIndependent a b ↔ a = b.text ∧ b.Whole := by
  rw [← Operand.read_eq_text_iff]
  constructor
  · intro sides
    have order : compareRight a b = .eq := by
      have fixed := sides.reversed
      rw [compareLeft_eq, ← compareRight_eq] at fixed
      cases h : compareRight a b <;> simp [h] at fixed
      rfl
    have texts : a = b.text := by
      have compares := sides.compares_right
      rwa [order] at compares
    have reads : a = b.read := by
      rw [compareRight_eq] at order
      exact (basicCompare_compares a b.read).eq_eq.mp order
    exact ⟨texts, reads.symm.trans texts⟩
  · rintro ⟨texts, whole⟩
    have reads : a = b.read := texts.trans whole.symm
    have order := (basicCompare_compares a a).eq_eq.mpr rfl
    have rightward : compareRight a b = .eq := by rw [compareRight_eq, ← reads, order]
    have leftward : compareLeft b a = .eq := by rw [compareLeft_eq, ← reads, order]
    refine ⟨?_, fun op => ?_, ?_, ?_, fun op => ?_, fun op => ?_, ?_, fun _ _ => ?_⟩
    · rw [leftward, rightward]
      rfl
    · rw [Bool.eq_iff_iff, left_self reads, right_self reads]
      cases op <;> simp [Relation.converse, Relation.Holds]
    · rw [rightward]
      exact texts
    · rw [leftward]
      exact texts.symm
    · rw [right_self reads, ← texts]
    · rw [left_self reads, ← texts]
    · exact .inl ((right_self reads).mpr (le_refl a))
    · exact (right_self reads).mpr rfl

end Operators

/-- The order by `char_traits<char8_t>::lt`. -/
@[reducible] def char8Order : LinearOrder UInt8 where
  le_refl _ := UInt8.le_refl _
  le_trans _ _ _ := UInt8.le_trans
  le_antisymm _ _ := UInt8.le_antisymm
  le_total := UInt8.le_total
  lt_iff_le_not_ge a b := by
    simp only [UInt8.le_iff_toNat_le, UInt8.lt_iff_toNat_lt]
    omega
  toDecidableLE := inferInstance
  toDecidableLT := inferInstance
  toDecidableEq := inferInstance

attribute [local instance] char8Order

/-- The string `"a"` is less than the literal `"b"`, which is less than the string too. -/
theorem literal_b_less :
    right .lt ([0x61] : List UInt8) (.array ⟨[0x62, 0], rfl, rfl⟩) = true ∧
      left .lt (.array ⟨[0x62, 0], rfl, rfl⟩) ([0x61] : List UInt8) = true ∧
      ¬ SideIndependent ([0x61] : List UInt8) (.array ⟨[0x62, 0], rfl, rfl⟩) := by
  refine ⟨by decide, by decide, fun sides => ?_⟩
  have exchanged := sides.exchanged .lt
  revert exchanged
  decide

end LibCxxExt.Text
