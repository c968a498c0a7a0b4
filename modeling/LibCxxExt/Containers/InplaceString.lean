import Mathlib.Data.List.TakeWhile
import Mathlib.Data.UInt

/-! `inplace_string` (`InplaceString.h`): a buffer that is read as a C string, and a size that the
range ends at. The constructor from a C string fills the buffer and leaves the size at zero. -/

namespace LibCxxExt.Containers

/-- The characters before the first NUL. -/
def beforeNul (memory : List UInt8) : List UInt8 := memory.takeWhile (· != 0)

/-- What can be read from a pointer to a NUL-terminated string on. -/
structure CString where
  memory : List UInt8
  terminated : 0 ∈ memory

namespace CString

def text (cstr : CString) : List UInt8 := beforeNul cstr.memory

def strlen (cstr : CString) : Nat := cstr.text.length

end CString

/-- `memcpy`, which is defined for as many bytes as both sides have. -/
def memcpy {n : Nat} (destination : Vector UInt8 n) (source : List UInt8) (count : Nat) :
    Option (Vector UInt8 n) :=
  if fits : count ≤ n ∧ count ≤ source.length then
    some ⟨(source.take count ++ destination.toList.drop count).toArray, by simp; omega⟩
  else none

theorem memcpy_eq {n : Nat} (destination : Vector UInt8 n) {source : List UInt8} {count : Nat}
    (room : count ≤ n) (readable : count ≤ source.length) :
    ∃ copied, memcpy destination source count = some copied ∧
      copied.toList = source.take count ++ destination.toList.drop count :=
  ⟨_, dif_pos ⟨room, readable⟩, rfl⟩

/-- `inplace_string<capacity>` of `char`; `size` is `_size`. -/
structure InplaceString (capacity : Nat) where
  buffer : Vector UInt8 (capacity + 1)
  size : Nat
deriving DecidableEq

namespace InplaceString

variable {capacity : Nat}

/-- The constructor without arguments. -/
def init : InplaceString capacity := ⟨(Vector.replicate _ 0).set 0 0, 0⟩

/-- The constructor from a C string. -/
def ofCString (cstr : CString) : Option (InplaceString capacity) :=
  let s : InplaceString capacity := ⟨Vector.replicate _ 0, 0⟩
  let len := cstr.strlen
  if len > capacity then some { s with buffer := s.buffer.set 0 0 }
  else do return { s with buffer := ← memcpy s.buffer cstr.memory (len + 1) }

/-- `begin()`, as an index into the buffer. -/
def beginIndex (_ : InplaceString capacity) : Nat := 0

/-- `end()`. -/
def endIndex (s : InplaceString capacity) : Nat := s.size

/-- The characters of `[begin(), end())`. -/
def range (s : InplaceString capacity) : List UInt8 :=
  (s.buffer.toList.drop s.beginIndex).take (s.endIndex - s.beginIndex)

/-- The size is the position of the first NUL. -/
def SizeAtNul (s : InplaceString capacity) : Prop := s.size = (beforeNul s.buffer.toList).length

instance (s : InplaceString capacity) : Decidable s.SizeAtNul :=
  inferInstanceAs (Decidable (_ = _))

/-- `s` holds the C string, or nothing if that is too long. -/
structure Holds (cstr : CString) (s : InplaceString capacity) : Prop where
  fitting : cstr.strlen ≤ capacity →
    s.range = cstr.text ∧ s.buffer.toList[cstr.strlen]? = some 0
  tooLong : capacity < cstr.strlen → s.range = []
  sizeAtNul : s.SizeAtNul

theorem beforeNul_append {text rest : List UInt8} (noNul : ∀ c ∈ text, (c != 0) = true) :
    beforeNul (text ++ 0 :: rest) = text := by
  rw [beforeNul, List.takeWhile_append_of_pos noNul, List.takeWhile_cons_of_neg (by decide),
    List.append_nil]

theorem text_noNul (cstr : CString) : ∀ c ∈ cstr.text, (c != 0) = true :=
  fun _ member => List.mem_takeWhile_imp (p := (· != 0)) member

theorem memory_split (cstr : CString) : ∃ rest, cstr.memory = cstr.text ++ 0 :: rest := by
  have nul : cstr.memory.dropWhile (· != 0) ≠ [] := by
    rw [ne_eq, List.dropWhile_eq_nil_iff]
    exact fun all => absurd (all 0 cstr.terminated) (by decide)
  obtain ⟨c, rest, found⟩ := List.exists_cons_of_ne_nil nul
  have head := List.dropWhile_get_zero_not (· != 0) cstr.memory (List.length_pos_of_ne_nil nul)
  refine ⟨rest, ?_⟩
  have isNul : c = 0 := by simpa [found] using head
  rw [← isNul, ← found]
  exact List.takeWhile_append_dropWhile.symm

theorem init_sizeAtNul : (init : InplaceString capacity).SizeAtNul := by
  simp [init, SizeAtNul, beforeNul, List.replicate_succ]

/-- A string that is too long leaves the buffer as it is. -/
theorem ofCString_tooLong {cstr : CString} (long : capacity < cstr.strlen) :
    ofCString cstr = some (init : InplaceString capacity) := by
  rw [ofCString]
  exact if_pos long

/-- A string that fits is in the buffer with NULs behind it, and the size is zero. -/
theorem ofCString_fitting {cstr : CString} (fits : cstr.strlen ≤ capacity) :
    ∃ s : InplaceString capacity, ofCString cstr = some s ∧ s.size = 0 ∧
      s.buffer.toList = cstr.text ++ 0 :: List.replicate (capacity - cstr.strlen) 0 := by
  obtain ⟨rest, split⟩ := memory_split cstr
  have readable : cstr.strlen + 1 ≤ cstr.memory.length := by
    rw [split, CString.strlen, List.length_append, List.length_cons]
    omega
  have text : cstr.memory.take (cstr.strlen + 1) = cstr.text ++ [0] := by
    rw [split, CString.strlen, List.take_length_add_append]
    rfl
  obtain ⟨copied, hcopied, contents⟩ := memcpy_eq (Vector.replicate (capacity + 1) 0)
    (Nat.succ_le_succ fits) readable
  refine ⟨⟨copied, 0⟩, ?_, rfl, ?_⟩
  · simp [ofCString, not_lt.mpr fits, hcopied]
  · simp [contents, text]

/-- The buffer reads as the C string, whatever the size says. -/
theorem buffer_text {cstr : CString} {s : InplaceString capacity} (fits : cstr.strlen ≤ capacity)
    (constructed : ofCString cstr = some s) : beforeNul s.buffer.toList = cstr.text := by
  obtain ⟨_, same, -, contents⟩ := ofCString_fitting fits
  obtain rfl := Option.some.inj (same.symm.trans constructed)
  rw [contents, beforeNul_append (text_noNul cstr)]

/-- What is constructed from a C string holds it exactly if it is empty or too long. -/
theorem ofCString_holds_iff (capacity : Nat) (cstr : CString) :
    (init : InplaceString capacity).SizeAtNul ∧
      ∃ s : InplaceString capacity, ofCString cstr = some s ∧
        (Holds cstr s ↔ cstr.strlen = 0 ∨ capacity < cstr.strlen) := by
  refine ⟨init_sizeAtNul, ?_⟩
  rcases lt_or_ge capacity cstr.strlen with long | fits
  · have holds : Holds cstr (init : InplaceString capacity) :=
      ⟨fun fits => absurd long (not_lt.mpr fits), fun _ => rfl, init_sizeAtNul⟩
    exact ⟨init, ofCString_tooLong long, iff_of_true holds (.inr long)⟩
  · obtain ⟨s, constructed, size, contents⟩ := ofCString_fitting fits
    have text := buffer_text fits constructed
    refine ⟨s, constructed, ⟨fun holds => .inl ?_, fun condition => ?_⟩⟩
    · rw [CString.strlen, ← text, ← holds.sizeAtNul, size]
    · have empty : cstr.strlen = 0 := condition.resolve_right (not_lt.mpr fits)
      have noText : cstr.text = [] := List.length_eq_zero_iff.mp empty
      refine ⟨fun _ => ⟨?_, ?_⟩, fun long => absurd long (not_lt.mpr fits), ?_⟩
      · simp [range, beginIndex, endIndex, size, noText]
      · simp [contents, noText, empty]
      · rw [SizeAtNul, text, noText, size, List.length_nil]

/-- `inplace_string<2>("a")` has an empty range. -/
theorem ofCString_not_holds : ¬ ∀ (capacity : Nat) (cstr : CString) (s : InplaceString capacity),
    ofCString cstr = some s → Holds cstr s := by
  intro always
  let a : CString := ⟨[0x61, 0], by decide⟩
  have constructed : ofCString a = some (⟨#v[0x61, 0, 0], 0⟩ : InplaceString 2) := by decide
  exact absurd (always 2 a _ constructed).sizeAtNul (by decide)

end InplaceString

end LibCxxExt.Containers
