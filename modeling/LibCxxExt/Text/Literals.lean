import LibCxxExt.Text.Compare
import LibCxxExt.Text.Split

/-! String literals as arguments of `class string` (`StringEx.h`). A string that is constructed
from a literal or compared with one, and the separator of `join`, leave the terminator out. `append`
has no overload for arrays, and the span that an array converts to holds its terminator too. -/

namespace LibCxxExt.Text

section Literals

variable {T : Type} [Zero T] {N M L : Nat}

/-- `append(const std::span<const T> data)`. -/
def appendSpan (s data : List T) : List T := s ++ data

/-- The implicit conversion of an array to `std::span<const T>`, which has all `N` elements. -/
def Literal.span (b : Literal T N) : List T := b.units

/-- `append` of an array, which the overload for spans takes. -/
def appendArray (s : List T) (b : Literal T N) : List T := appendSpan s b.span

/-- `join` of a container of arrays with an array as the separator. -/
def joinArrays (container : List (Literal T M)) (sep : Literal T L) : List T :=
  join (container.map fun part => .text part.span) (.array sep.units)

/-- `join` of a container of strings with a string as the separator. -/
def joinStrings (container : List (List T)) (sep : List T) : List T :=
  join (container.map .text) (.text sep)

theorem appendArray_eq (s : List T) (b : Literal T N) :
    appendArray s b = s ++ b.text ++ [0] := by
  rw [appendArray, appendSpan, Literal.span, b.units_eq, List.append_assoc]

theorem units_separator (sep : Literal T L) :
    (Separator.array sep.units).units = (Separator.text sep.text).units := by
  have size : max sep.units.length 1 - 1 = sep.text.length := by
    rw [sep.units_eq, List.length_append, List.length_singleton, max_eq_left (by omega),
      Nat.add_sub_cancel]
  rw [Separator.units, Separator.units, size, sep.units_eq, List.take_left]

theorem length_spans (parts : List (Literal T M)) : (parts.flatMap Literal.span).length =
    (parts.flatMap Literal.text).length + parts.length := by
  induction parts with
  | nil => rfl
  | cons part parts ih =>
    have size := congrArg List.length part.units_eq
    simp only [List.length_append, List.length_singleton] at size
    simp only [List.flatMap_cons, List.length_append, List.length_cons, ih, Literal.span, size]
    omega

/-- Every part brings its terminator into the joined text. -/
theorem length_joinArrays (parts : List (Literal T M)) (sep : Literal T L) :
    (joinArrays parts sep).length =
      (joinStrings (parts.map Literal.text) sep.text).length + parts.length := by
  rw [joinArrays, joinStrings, length_join, length_join, units_separator]
  have units : (parts.map fun part => Part.text part.span).flatMap Part.units =
      parts.flatMap Literal.span := by
    rw [List.flatMap_map]
    rfl
  have texts : ((parts.map Literal.text).map Part.text).flatMap Part.units =
      parts.flatMap Literal.text := by
    rw [List.map_map, List.flatMap_map]
    rfl
  rw [units, texts, length_spans]
  simp only [List.length_map]
  omega

theorem joined_iff (parts : List (Literal T M)) (sep : Literal T L) :
    joinArrays parts sep = joinStrings (parts.map Literal.text) sep.text ↔ parts = [] := by
  constructor
  · intro same
    have sizes := length_joinArrays parts sep
    rw [same] at sizes
    exact List.length_eq_zero_iff.mp (by omega)
  · rintro rfl
    rfl

/-- Literals stand for their texts: constructing a string, comparing, appending and joining. -/
structure SameText [LinearOrder T] (s : List T) (b : Literal T N) (parts : List (Literal T M))
    (sep : Literal T L) : Prop where
  constructed : stringArrayEqual b.text b = true
  appended : appendArray s b = s ++ b.text
  appended_empty : basicEqual (appendArray [] b) b.text = true
  size : (appendArray s b).length = s.length + N - 1
  joined : joinArrays parts sep = joinStrings (parts.map Literal.text) sep.text

/-- A literal that is appended brings its terminator with it, so that it never stands for its text
everywhere. Constructing and comparing are right, and joining is for the empty container alone. -/
theorem sameText_exact [LinearOrder T] (s : List T) (b : Literal T N)
    (parts : List (Literal T M)) (sep : Literal T L) :
    ¬ SameText s b parts sep ∧ (stringArrayEqual b.text b = true ↔ 0 ∉ b.text) ∧
      appendArray s b = s ++ b.text ++ [0] ∧
      (joinArrays parts sep = joinStrings (parts.map Literal.text) sep.text ↔ parts = []) := by
  refine ⟨fun same => ?_, ?_, appendArray_eq s b, joined_iff parts sep⟩
  · have appended := same.appended
    rw [appendArray_eq] at appended
    simp at appended
  · rw [stringArrayEqual, basicEqual_iff, eq_comm, b.cString_eq_text_iff]

end Literals

attribute [local instance] char8Order

/-- `string().append("a")` holds two units, and is not `string("a")`. -/
theorem append_a :
    appendArray [] (⟨[0x61, 0], rfl, rfl⟩ : Literal UInt8 2) = [0x61, 0] ∧
      ¬ SameText [] (⟨[0x61, 0], rfl, rfl⟩ : Literal UInt8 2)
        [(⟨[0x61, 0], rfl, rfl⟩ : Literal UInt8 2)] (⟨[0x2C, 0], rfl, rfl⟩ : Literal UInt8 2) := by
  refine ⟨rfl, fun same => ?_⟩
  have size := same.size
  revert size
  decide

end LibCxxExt.Text
