import LibCxxExt.Text.CodepointIterator

/-! The readers of `char` and `wchar_t` spans (`Char.h`), which reinterpret their span as one of the
Unicode character type that `ch::unicode_equiv` selects. A unit of any character type is its bits.
-/

namespace LibCxxExt.Text

/-! ### Character types -/

/-- The types of `ICharacter`. -/
inductive CharacterType
  | char8
  | char16
  | char32
  | char
  | wchar
  deriving DecidableEq, Repr

/-- `sizeof(T)`, where the platform fixes that of `wchar_t`. -/
def CharacterType.size (wchar : Nat) : CharacterType → Nat
  | .char8 => 1
  | .char16 => 2
  | .char32 => 4
  | .char => 1
  | .wchar => wchar

/-- `meta::type_switch`, the type of the first case that meets its condition. -/
def typeSwitch {Ty : Type} (cases : List (Bool × Ty)) : Option Ty :=
  (cases.filter Prod.fst).head?.map Prod.snd

/-- `ch::unicode_equiv`, where `none` is `void`. -/
def CharacterType.unicodeEquiv (wchar : Nat) (T : CharacterType) : Option Encoding :=
  (typeSwitch
    [(T = .char32, some .utf32), (T = .char16, some .utf16), (T = .char8, some .utf8),
      (T.size wchar = CharacterType.char8.size wchar, some .utf8),
      (T.size wchar = CharacterType.char16.size wchar, some .utf16),
      (T.size wchar = CharacterType.char32.size wchar, some .utf32), (true, none)]).join

/-- The value of an object of a Unicode character type with the given bits. -/
def Encoding.ofBits : (E : Encoding) → BitVec (8 * IUnicodeCharacter.size E.Unit) → E.Unit
  | .utf8 => UInt8.ofBitVec
  | .utf16 => UInt16.ofBitVec
  | .utf32 => UInt32.ofBitVec

/-- The `reinterpret_cast` of the data of a span of units of `size` bytes. -/
def reinterpret {size : Nat} (E : Encoding) (range : List (BitVec (8 * size))) : List E.Unit :=
  range.map fun unit => E.ofBits (unit.setWidth _)

/-- The body that the overloads of `ch::read_codepoint` for `char` and `wchar_t` share. A span of
`void` does not compile. -/
def readCodepointAs (wchar : Nat) (T : CharacterType) (range : List (BitVec (8 * T.size wchar))) :
    Option CodepointData := do
  let ctype ← T.unicodeEquiv wchar
  readCodepoint (reinterpret ctype range)

/-- `ch::read_codepoint` of a `char` span. -/
def readCodepointChar (wchar : Nat) (range : List (BitVec 8)) : Option CodepointData :=
  readCodepointAs wchar .char range

/-- `ch::read_codepoint` of a `wchar_t` span. -/
def readCodepointWchar (wchar : Nat) (range : List (BitVec (8 * wchar))) : Option CodepointData :=
  readCodepointAs wchar .wchar range

theorem unicodeEquiv_char (wchar : Nat) : CharacterType.char.unicodeEquiv wchar = some .utf8 := rfl

theorem unicodeEquiv_wchar (E : Encoding) :
    CharacterType.wchar.unicodeEquiv (IUnicodeCharacter.size E.Unit) = some E := by
  cases E <;> rfl

/-- Units of the same size keep their bits. -/
theorem reinterpret_eq (E : Encoding) (range : List (BitVec (8 * IUnicodeCharacter.size E.Unit))) :
    reinterpret E range = range.map E.ofBits := by
  simp only [reinterpret, BitVec.setWidth_eq]

theorem readCodepointChar_eq (wchar : Nat) (range : List (BitVec 8)) :
    readCodepointChar wchar range = readCodepoint8 (range.map UInt8.ofBitVec) := by
  unfold readCodepointChar readCodepointAs
  rw [unicodeEquiv_char]
  exact congrArg readCodepoint8 (reinterpret_eq .utf8 range)

theorem readCodepointWchar_eq (E : Encoding)
    (range : List (BitVec (8 * IUnicodeCharacter.size E.Unit))) :
    readCodepointWchar (IUnicodeCharacter.size E.Unit) range =
      readCodepoint (range.map E.ofBits) := by
  unfold readCodepointWchar readCodepointAs
  rw [unicodeEquiv_wchar]
  exact congrArg readCodepoint (reinterpret_eq E range)

/-! ### Readers -/

theorem readCodepoint32_iff (c : UInt32) (rest : List UInt32) (d : CodepointData) :
    readCodepoint32 (c :: rest) = some d ↔ Utf8.Scalar c.toNat ∧ d = ⟨c, 1⟩ ∨
      ¬ Utf8.Scalar c.toNat ∧ d = ⟨0xFFFD, 1⟩ := by
  rw [readCodepoint32_cons, Option.some.injEq, replaceInvalid]
  by_cases scalar : Utf8.Scalar c.toNat
  · simp [isScalar_iff.mpr scalar, scalar, eq_comm]
  · simp [mt isScalar_iff.mp scalar, scalar, eq_comm]

/-- The readers of UTF-16 and UTF-32 report what the front of every nonempty text holds, and those
of `char` and `wchar_t` agree with the Unicode character type of the same size. -/
theorem readCodepoint_fronts :
    (∀ a rest, ∃ d, readCodepoint16 (a :: rest) = some d) ∧
    (∀ s d, readCodepoint16 s = some d ↔ Front16 s d) ∧
    (∀ c rest, readCodepoint32 (c :: rest) =
      some (if Utf8.Scalar c.toNat then ⟨c, 1⟩ else ⟨0xFFFD, 1⟩)) ∧
    (∀ c rest, readCodepoint32 (c :: rest) = some ⟨c, 1⟩ ↔ Utf8.Scalar c.toNat) ∧
    (∀ wchar range, readCodepointChar wchar range =
      readCodepoint8 (range.map UInt8.ofBitVec)) ∧
    ∀ (E : Encoding) (range : List (BitVec (8 * IUnicodeCharacter.size E.Unit))),
      readCodepointWchar (IUnicodeCharacter.size E.Unit) range =
        readCodepoint (range.map E.ofBits) := by
  refine ⟨fun a rest => ?_, readCodepoint16_iff, fun c rest => ?_, fun c rest => ?_,
    readCodepointChar_eq, readCodepointWchar_eq⟩
  · obtain ⟨d, front⟩ := Front16.exists a rest
    exact ⟨d, front.read⟩
  · rw [readCodepoint32_iff]
    split_ifs with scalar
    · exact .inl ⟨scalar, rfl⟩
    · exact .inr ⟨scalar, rfl⟩
  · rw [readCodepoint32_iff]
    constructor
    · rintro (⟨scalar, -⟩ | ⟨bad, same⟩)
      · exact scalar
      · rw [CodepointData.mk.injEq] at same
        rw [same.1]
        decide
    · exact fun scalar => .inl ⟨scalar, rfl⟩

end LibCxxExt.Text
