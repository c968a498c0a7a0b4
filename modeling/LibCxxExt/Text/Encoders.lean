import LibCxxExt.Text.Utf8

/-! What the three overloads of `ch::write_codepoint` put into a buffer, and that the reader of the
same encoding takes it back whatever follows. The encodings are stated in arithmetic. -/

namespace LibCxxExt.Text

open LibCxxExt.ProofKit

/-- The scalar value that is written for a 32-bit value: itself, or U+FFFD. -/
def replaceInvalid (c : UInt32) : UInt32 := if isScalar c then c else 0xFFFD

theorem replaceInvalid_scalar (c : UInt32) : Utf8.Scalar (replaceInvalid c).toNat := by
  unfold replaceInvalid
  split
  · next h => exact isScalar_iff.mp h
  · decide

theorem replaceInvalid_of_scalar {c : UInt32} (h : Utf8.Scalar c.toNat) :
    replaceInvalid c = c :=
  if_pos (isScalar_iff.mpr h)

/-! ### The encodings -/

/-- Table 3-6 of the Unicode standard: UTF-8. -/
def encode8 (c : Nat) : List UInt8 :=
  if c ≤ 0x7F then [.ofNat c]
  else if c ≤ 0x7FF then [.ofNat (0xC0 + c / 0x40), .ofNat (0x80 + c % 0x40)]
  else if c ≤ 0xFFFF then
    [.ofNat (0xE0 + c / 0x1000), .ofNat (0x80 + c / 0x40 % 0x40), .ofNat (0x80 + c % 0x40)]
  else
    [.ofNat (0xF0 + c / 0x40000), .ofNat (0x80 + c / 0x1000 % 0x40),
      .ofNat (0x80 + c / 0x40 % 0x40), .ofNat (0x80 + c % 0x40)]

/-- Table 3-5 of the Unicode standard: UTF-16. -/
def encode16 (c : Nat) : List UInt16 :=
  if c ≤ 0xFFFF then [.ofNat c]
  else [.ofNat (0xD800 + (c - 0x10000) / 0x400), .ofNat (0xDC00 + (c - 0x10000) % 0x400)]

def encode32 (c : Nat) : List UInt32 := [.ofNat c]

theorem length_encode8 (c : Nat) : 0 < (encode8 c).length ∧ (encode8 c).length ≤ 4 := by
  unfold encode8
  split_ifs <;> simp

theorem length_encode16 (c : Nat) : 0 < (encode16 c).length ∧ (encode16 c).length ≤ 2 := by
  unfold encode16
  split_ifs <;> simp

theorem wellFormed_encode8 {c : Nat} (scalar : Utf8.Scalar c) :
    Utf8.WellFormed (encode8 c) c := by
  unfold Utf8.Scalar at scalar
  unfold encode8
  split_ifs <;> refine (Utf8.wellFormed_cons _ _ _).mpr ?_
  · refine ⟨c, 1, ?_⟩
    simp [Utf8.lead_eq_some, Utf8.least, Utf8.Scalar, Utf8.payload]
    omega
  · refine ⟨c / 0x40, 2, ?_⟩
    simp [Utf8.lead_eq_some, Utf8.least, Utf8.Scalar, Utf8.payload, Utf8.Tail]
    omega
  · refine ⟨c / 0x1000, 3, ?_⟩
    simp [Utf8.lead_eq_some, Utf8.least, Utf8.Scalar, Utf8.payload, Utf8.Tail]
    omega
  · refine ⟨c / 0x40000, 4, ?_⟩
    simp [Utf8.lead_eq_some, Utf8.least, Utf8.Scalar, Utf8.payload, Utf8.Tail]
    omega

/-! ### Writing -/

theorem toUInt8_eq_ofNat (x : UInt32) : x.toUInt8 = UInt8.ofNat x.toNat := by
  apply UInt8.toNat_inj.mp
  simp

theorem toUInt16_eq_ofNat (x : UInt32) : x.toUInt16 = UInt16.ofNat x.toNat := by
  apply UInt16.toNat_inj.mp
  simp

/-- The source's lead and continuation bytes, a tag over payload bits. -/
theorem tagged_byte (tag x : UInt32) (k : Nat) (high : 2 ^ k ∣ tag.toNat)
    (low : x.toNat < 2 ^ k) :
    UInt32.toUInt8 (tag ||| x) = UInt8.ofNat (tag.toNat + x.toNat) := by
  rw [toUInt8_eq_ofNat, toNat_or_disjoint _ _ k high low]

theorem continuation_byte (x : UInt32) :
    UInt32.toUInt8 ((0x80 : UInt32) ||| (x &&& 0x3F)) = UInt8.ofNat (0x80 + x.toNat % 0x40) := by
  have low : (x &&& 0x3F).toNat = x.toNat % 2 ^ 6 := toNat_and_low x 0x3F 6 rfl
  rw [tagged_byte 0x80 _ 6 (by decide) (by rw [low]; omega), low]
  rfl

/-- The `char8_t` overload stores the encoding of the value, or of U+FFFD in its place, in the
first units of the buffer, returns their number and leaves the rest of the buffer alone. -/
theorem writeCodepoint8_eq (c : UInt32) {out : List UInt8} (room : 4 ≤ out.length) :
    writeCodepoint8 c out =
      some (encode8 (replaceInvalid c).toNat ++ out.drop (encode8 (replaceInvalid c).toNat).length,
        (encode8 (replaceInvalid c).toNat).length) := by
  match out, room with
  | u :: v :: w :: x :: rest, _ =>
    by_cases scalar : isScalar c = true
    · have range := isScalar_iff.mp scalar
      rw [replaceInvalid, if_pos scalar, writeCodepoint8, if_pos scalar]
      simp only [UInt32.le_iff_toNat_le, UInt32.reduceToNat, encode8]
      split_ifs with one two three four
      · simp [store]
      · have shift := toNat_shiftRight_const c 6 (by decide)
        have head := tagged_byte 0xC0 (c >>> 6) 6 (by decide) (by rw [shift]; simp; omega)
        rw [shift] at head
        simp only [head, continuation_byte]
        simp [store]
      · have shift := toNat_shiftRight_const c 12 (by decide)
        have shift6 := toNat_shiftRight_const c 6 (by decide)
        have head := tagged_byte 0xE0 (c >>> 12) 4 (by decide) (by rw [shift]; simp; omega)
        rw [shift] at head
        simp only [head, continuation_byte, shift6]
        simp [store]
      · have shift := toNat_shiftRight_const c 18 (by decide)
        have shift12 := toNat_shiftRight_const c 12 (by decide)
        have shift6 := toNat_shiftRight_const c 6 (by decide)
        have head := tagged_byte 0xF0 (c >>> 18) 3 (by decide) (by rw [shift]; simp; omega)
        rw [shift] at head
        simp only [head, continuation_byte, shift12, shift6]
        simp [store]
      · omega
    · rw [replaceInvalid, if_neg scalar, writeCodepoint8, if_neg scalar]
      simp [writeReplacement8, copy, store, replacement8, encode8]

/-- The `char16_t` overload, likewise. -/
theorem writeCodepoint16_eq (c : UInt32) {out : List UInt16} (room : 2 ≤ out.length) :
    writeCodepoint16 c out =
      some (encode16 (replaceInvalid c).toNat ++
          out.drop (encode16 (replaceInvalid c).toNat).length,
        (encode16 (replaceInvalid c).toNat).length) := by
  match out, room with
  | u :: v :: rest, _ =>
    by_cases scalar : isScalar c = true
    · have range := isScalar_iff.mp scalar
      simp only [replaceInvalid, writeCodepoint16, scalar, Bool.not_true, Bool.false_eq_true,
        if_false, if_true, UInt32.le_iff_toNat_le, UInt32.reduceToNat, encode16]
      split_ifs with bmp
      · simp [store]
      · have val : (c - 0x10000).toNat = c.toNat - 0x10000 :=
          UInt32.toNat_sub_of_le _ _ (by rw [UInt32.le_iff_toNat_le]; simp; omega)
        have high : ((c - 0x10000) >>> 10).toNat = (c.toNat - 0x10000) / 0x400 := by
          rw [toNat_shiftRight_const _ 10 (by decide), val]; rfl
        have low : ((c - 0x10000) &&& 0x3FF).toNat = (c.toNat - 0x10000) % 0x400 := by
          rw [toNat_and_low _ 0x3FF 10 rfl, val]; rfl
        have first := toNat_add_of_small 0xD800 ((c - 0x10000) >>> 10) (by rw [high]; simp; omega)
        have second :=
          toNat_add_of_small 0xDC00 ((c - 0x10000) &&& 0x3FF) (by rw [low]; simp; omega)
        simp only [toUInt16_eq_ofNat, first, second, high, low]
        simp [store]
    · simp only [replaceInvalid, writeCodepoint16, scalar]
      simp [copy, store, replacement16, encode16]

/-- The `char32_t` overload, likewise. -/
theorem writeCodepoint32_eq (c : UInt32) {out : List UInt32} (room : 1 ≤ out.length) :
    writeCodepoint32 c out =
      some (encode32 (replaceInvalid c).toNat ++
          out.drop (encode32 (replaceInvalid c).toNat).length,
        (encode32 (replaceInvalid c).toNat).length) := by
  match out, room with
  | u :: rest, _ => simp [writeCodepoint32, store, encode32, replaceInvalid]

/-! ### Reading back -/

theorem readCodepoint16_bmp {a : UInt16} (bmp : a.toNat < 0xD800 ∨ 0xDFFF < a.toNat)
    (rest : List UInt16) : readCodepoint16 (a :: rest) = some ⟨UInt32.ofNat a.toNat, 1⟩ := by
  have surrogate : isSurrogate a.toUInt32 = false := by
    rw [← Bool.not_eq_true, isSurrogate_iff, UInt16.toNat_toUInt32]
    omega
  simp [readCodepoint16, surrogate]

theorem readCodepoint16_pair {a b : UInt16} (high : 0xD800 ≤ a.toNat ∧ a.toNat ≤ 0xDBFF)
    (low : 0xDC00 ≤ b.toNat ∧ b.toNat ≤ 0xDFFF) (rest : List UInt16) :
    readCodepoint16 (a :: b :: rest) =
      some ⟨UInt32.ofNat (0x10000 + (a.toNat - 0xD800) * 0x400 + (b.toNat - 0xDC00)), 2⟩ := by
  have surrogate : isSurrogate a.toUInt32 = true := by
    rw [isSurrogate_iff, UInt16.toNat_toUInt32]; omega
  have lead : isHighSurrogate a.toUInt32 = true := by
    rw [isHighSurrogate_iff, UInt16.toNat_toUInt32]; omega
  have trail : isLowSurrogate b.toUInt32 = true := by
    rw [isLowSurrogate_iff, UInt16.toNat_toUInt32]; omega
  have top : (a.toUInt32 - 0xD800).toNat = a.toNat - 0xD800 := by
    rw [UInt32.toNat_sub_of_le _ _ (by rw [UInt32.le_iff_toNat_le]; simpa using high.1)]
    simp
  have bottom : (b.toUInt32 - 0xDC00).toNat = b.toNat - 0xDC00 := by
    rw [UInt32.toNat_sub_of_le _ _ (by rw [UInt32.le_iff_toNat_le]; simpa using low.1)]
    simp
  have shifted : ((a.toUInt32 - 0xD800) <<< 10).toNat = (a.toNat - 0xD800) * 0x400 := by
    rw [toNat_shiftLeft_const _ 10 (by decide) (by rw [top]; simp; omega), top]
    rfl
  have value : (0x10000 : UInt32) + ((a.toUInt32 - 0xD800) <<< 10) + (b.toUInt32 - 0xDC00) =
      UInt32.ofNat (0x10000 + (a.toNat - 0xD800) * 0x400 + (b.toNat - 0xDC00)) := by
    apply UInt32.toNat_inj.mp
    have left := toNat_add_of_small 0x10000 ((a.toUInt32 - 0xD800) <<< 10)
      (by rw [shifted]; simp; omega)
    rw [toNat_add_of_small _ _ (by rw [left, shifted, bottom]; simp; omega), left, shifted, bottom,
      UInt32.toNat_ofNat_of_lt' (by rw [UInt32.size]; omega)]
    rfl
  simp [readCodepoint16, surrogate, lead, trail, value]

/-- A surrogate that no pair starts with is reported as U+FFFD. -/
theorem readCodepoint16_unpaired {a : UInt16} {rest : List UInt16}
    (surrogate : 0xD800 ≤ a.toNat ∧ a.toNat ≤ 0xDFFF)
    (unpaired : a.toNat ≤ 0xDBFF → ∀ b ∈ rest.head?, ¬ (0xDC00 ≤ b.toNat ∧ b.toNat ≤ 0xDFFF)) :
    readCodepoint16 (a :: rest) = some readCodepointFail := by
  have lead : isSurrogate a.toUInt32 = true := by
    rw [isSurrogate_iff, UInt16.toNat_toUInt32]; omega
  by_cases high : isHighSurrogate a.toUInt32 = true
  · rcases rest with _ | ⟨b, rest⟩
    · simp [readCodepoint16, lead]
    · have first := isHighSurrogate_iff.mp high
      rw [UInt16.toNat_toUInt32] at first
      have trail : isLowSurrogate b.toUInt32 = false := by
        rw [← Bool.not_eq_true, isLowSurrogate_iff, UInt16.toNat_toUInt32]
        exact unpaired first.2 b rfl
      simp [readCodepoint16, lead, trail]
  · simp [readCodepoint16, lead, high]

theorem readCodepoint32_cons (a : UInt32) (rest : List UInt32) :
    readCodepoint32 (a :: rest) = some ⟨replaceInvalid a, 1⟩ := by
  by_cases scalar : isScalar a = true <;>
    simp [readCodepoint32, replaceInvalid, scalar, readCodepointFail]

theorem read_encode8 {c : Nat} (scalar : Utf8.Scalar c) (rest : List UInt8) :
    readCodepoint8 (encode8 c ++ rest) = some ⟨UInt32.ofNat c, (encode8 c).length⟩ := by
  have wf := wellFormed_encode8 scalar
  rcases bytes : encode8 c with _ | ⟨a, tail⟩
  · have := length_encode8 c
    simp [bytes] at this
  · rw [bytes] at wf
    obtain ⟨bits, len, known, -⟩ := (Utf8.wellFormed_cons _ _ _).mp wf
    have shape := (Utf8.lead_eq_some _ _ _).mp known
    rw [← Utf8.takenFor_self (a := a) (by omega)] at wf
    exact Utf8.read_of_wellFormed wf rest

theorem read_encode16 {c : Nat} (scalar : Utf8.Scalar c) (rest : List UInt16) :
    readCodepoint16 (encode16 c ++ rest) = some ⟨UInt32.ofNat c, (encode16 c).length⟩ := by
  unfold Utf8.Scalar at scalar
  unfold encode16
  split_ifs with bmp
  · have value : (UInt16.ofNat c).toNat = c :=
      UInt16.toNat_ofNat_of_lt' (by rw [UInt16.size]; omega)
    rw [List.singleton_append, readCodepoint16_bmp (by omega), value]
    rfl
  · have high : (UInt16.ofNat (0xD800 + (c - 0x10000) / 0x400)).toNat =
        0xD800 + (c - 0x10000) / 0x400 := UInt16.toNat_ofNat_of_lt' (by rw [UInt16.size]; omega)
    have low : (UInt16.ofNat (0xDC00 + (c - 0x10000) % 0x400)).toNat =
        0xDC00 + (c - 0x10000) % 0x400 := UInt16.toNat_ofNat_of_lt' (by rw [UInt16.size]; omega)
    have value : 0x10000 + (0xD800 + (c - 0x10000) / 0x400 - 0xD800) * 0x400 +
        (0xDC00 + (c - 0x10000) % 0x400 - 0xDC00) = c := by omega
    rw [List.cons_append, List.singleton_append, readCodepoint16_pair (by omega) (by omega), high,
      low, value]
    rfl

theorem read_encode32 {c : Nat} (scalar : Utf8.Scalar c) (rest : List UInt32) :
    readCodepoint32 (encode32 c ++ rest) = some ⟨UInt32.ofNat c, (encode32 c).length⟩ := by
  have value : (UInt32.ofNat c).toNat = c :=
    UInt32.toNat_ofNat_of_lt' (by rw [UInt32.size]; unfold Utf8.Scalar at scalar; omega)
  rw [encode32, List.singleton_append, readCodepoint32_cons,
    replaceInvalid_of_scalar (by rwa [value])]
  rfl

end LibCxxExt.Text
