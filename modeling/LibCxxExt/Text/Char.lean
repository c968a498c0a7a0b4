import LibCxxExt.ProofKit.Masks

/-! The codepoint readers and writers of `class ch` (`Char.h`). The character types `char8_t`,
`char16_t` and `char32_t` are the unsigned words of 8, 16 and 32 bits, and `u32` is `UInt32`. A read
or a store outside its buffer is `none`. -/

namespace LibCxxExt.Text

def isContinuation (b : UInt8) : Bool := (b.toUInt32 &&& 0xC0) == 0x80

def isSurrogate (c : UInt32) : Bool := c ≥ 0xD800 && c ≤ 0xDFFF

def isHighSurrogate (c : UInt32) : Bool := c ≥ 0xD800 && c ≤ 0xDBFF

def isLowSurrogate (c : UInt32) : Bool := c ≥ 0xDC00 && c ≤ 0xDFFF

def isScalar (cp : UInt32) : Bool := cp ≤ 0x10FFFF && !isSurrogate cp

structure CodepointData where
  c : UInt32
  sizeBytes : Nat
  deriving DecidableEq, Repr

def replacement8 : List UInt8 := [0xEF, 0xBF, 0xBD]

def replacement16 : List UInt16 := [0xFFFD]

/-- `ch::read_codepoint_fail`, which reports the replacement character and one unit. -/
def readCodepointFail : CodepointData := ⟨0xFFFD, 1⟩

/-! ### Reading -/

/-- `ch::read_codepoint` of a `char32_t` span. -/
def readCodepoint32 (range : List UInt32) : Option CodepointData := do
  let ret ← range[0]?
  if !isScalar ret then
    return readCodepointFail
  return ⟨ret, 1⟩

/-- `ch::read_codepoint` of a `char16_t` span. -/
def readCodepoint16 (range : List UInt16) : Option CodepointData := do
  let lead := (← range[0]?).toUInt32
  if !isSurrogate lead then
    return ⟨lead, 1⟩
  if !isHighSurrogate lead || range.length < 2 then
    return readCodepointFail
  let trail := (← range[1]?).toUInt32
  if !isLowSurrogate trail then
    return readCodepointFail
  return ⟨(0x10000 : UInt32) + ((lead - 0xD800) <<< 10) + (trail - 0xDC00), 2⟩

/-- The payload bits of a UTF-8 lead byte and the length it announces, as the cascade of range
tests decides them; `none` is its final `else`. -/
def leadByte (ret : UInt32) : Option (UInt32 × Nat) :=
  if ret ≥ 0xC2 ∧ ret < 0xE0 then some (ret &&& 0x1F, 2)
  -- A byte from 0x80 to 0xC1 fails the first test and is caught here.
  else if ret < 0xF0 then some (ret &&& 0x0F, 3)
  else if ret < 0xF5 then some (ret &&& 0x07, 4)
  else none

/-- The continuation loop: `n` more bytes from index `i` on. The inner `none` is its early
return. -/
def readContinuations (range : List UInt8) : Nat → Nat → UInt32 → Option (Option UInt32)
  | 0, _, ret => some (some ret)
  | n + 1, i, ret => do
    let bi := (← range[i]?).toUInt32
    if !isContinuation bi.toUInt8 then
      return none
    readContinuations range n (i + 1) ((ret <<< 6) ||| (bi &&& 0x3F))

/-- The least codepoint of each sequence length, by which overlong sequences are rejected. -/
def cpMinReq : List UInt32 := [0, 0, 0x80, 0x800, 0x10000]

/-- `ch::read_codepoint` of a `char8_t` span behind its cascade: the continuation loop, then the
overlong and scalar checks. -/
def readSequence8 (range : List UInt8) (ret : UInt32) (len : Nat) : Option CodepointData := do
  if range.length < len then
    return readCodepointFail
  match ← readContinuations range (len - 1) 1 ret with
  | none => return readCodepointFail
  | some ret =>
    if ret < (← cpMinReq[len]?) || !isScalar ret then
      return readCodepointFail
    return ⟨ret, len⟩

/-- `ch::read_codepoint` of a `char8_t` span. -/
def readCodepoint8 (range : List UInt8) : Option CodepointData := do
  let ret := (← range[0]?).toUInt32
  if ret < 0x80 then
    return ⟨ret, 1⟩
  match leadByte ret with
  | none => return readCodepointFail
  | some (ret, len) => readSequence8 range ret len

/-! ### Writing -/

/-- One store through the output pointer. -/
def store {T : Type} (out : List T) (i : Nat) (unit : T) : Option (List T) :=
  if i < out.length then some (out.set i unit) else none

/-- `std::ranges::copy` to `out + i`. -/
def copy {T : Type} (out : List T) (i : Nat) : List T → Option (List T)
  | [] => some out
  | unit :: rest => do copy (← store out i unit) (i + 1) rest

/-- `ch::write_codepoint` to a `char32_t` buffer. -/
def writeCodepoint32 (c : UInt32) (out : List UInt32) : Option (List UInt32 × Nat) := do
  let out ← store out 0 (if isScalar c then c else 0xFFFD)
  return (out, 1)

/-- `ch::write_codepoint` to a `char16_t` buffer. -/
def writeCodepoint16 (c : UInt32) (out : List UInt16) : Option (List UInt16 × Nat) :=
  if !isScalar c then do
    return (← copy out 0 replacement16, replacement16.length)
  else if c ≤ 0xFFFF then do
    return (← store out 0 c.toUInt16, 1)
  else do
    let val := c - 0x10000
    let out ← store out 0 (UInt32.toUInt16 ((0xD800 : UInt32) + (val >>> 10)))
    let out ← store out 1 (UInt32.toUInt16 ((0xDC00 : UInt32) + (val &&& 0x3FF)))
    return (out, 2)

/-- The last statements of `ch::write_codepoint` to a `char8_t` buffer. -/
def writeReplacement8 (out : List UInt8) : Option (List UInt8 × Nat) := do
  return (← copy out 0 replacement8, replacement8.length)

/-- `ch::write_codepoint` to a `char8_t` buffer. -/
def writeCodepoint8 (ret : UInt32) (out : List UInt8) : Option (List UInt8 × Nat) :=
  if isScalar ret then
    if ret ≤ 0x7F then do
      return (← store out 0 ret.toUInt8, 1)
    else if ret ≤ 0x7FF then do
      let out ← store out 0 (UInt32.toUInt8 ((0xC0 : UInt32) ||| (ret >>> 6)))
      let out ← store out 1 (UInt32.toUInt8 ((0x80 : UInt32) ||| (ret &&& 0x3F)))
      return (out, 2)
    else if ret ≤ 0xFFFF then do
      let out ← store out 0 (UInt32.toUInt8 ((0xE0 : UInt32) ||| (ret >>> 12)))
      let out ← store out 1 (UInt32.toUInt8 ((0x80 : UInt32) ||| ((ret >>> 6) &&& 0x3F)))
      let out ← store out 2 (UInt32.toUInt8 ((0x80 : UInt32) ||| (ret &&& 0x3F)))
      return (out, 3)
    else if ret ≤ 0x10FFFF then do
      let out ← store out 0 (UInt32.toUInt8 ((0xF0 : UInt32) ||| (ret >>> 18)))
      let out ← store out 1 (UInt32.toUInt8 ((0x80 : UInt32) ||| ((ret >>> 12) &&& 0x3F)))
      let out ← store out 2 (UInt32.toUInt8 ((0x80 : UInt32) ||| ((ret >>> 6) &&& 0x3F)))
      let out ← store out 3 (UInt32.toUInt8 ((0x80 : UInt32) ||| (ret &&& 0x3F)))
      return (out, 4)
    else writeReplacement8 out
  else writeReplacement8 out

/-! ### Values -/

section Values

variable {c : UInt32}

theorem isSurrogate_iff : isSurrogate c = true ↔ 0xD800 ≤ c.toNat ∧ c.toNat ≤ 0xDFFF := by
  simp [isSurrogate, UInt32.le_iff_toNat_le]

theorem isHighSurrogate_iff :
    isHighSurrogate c = true ↔ 0xD800 ≤ c.toNat ∧ c.toNat ≤ 0xDBFF := by
  simp [isHighSurrogate, UInt32.le_iff_toNat_le]

theorem isLowSurrogate_iff :
    isLowSurrogate c = true ↔ 0xDC00 ≤ c.toNat ∧ c.toNat ≤ 0xDFFF := by
  simp [isLowSurrogate, UInt32.le_iff_toNat_le]

theorem isScalar_iff :
    isScalar c = true ↔ c.toNat < 0xD800 ∨ 0xDFFF < c.toNat ∧ c.toNat ≤ 0x10FFFF := by
  have surrogate := isSurrogate_iff (c := c)
  simp only [isScalar, Bool.and_eq_true, decide_eq_true_eq, Bool.not_eq_true',
    ← Bool.not_eq_true, UInt32.le_iff_toNat_le, surrogate, UInt32.reduceToNat]
  omega

theorem isContinuation_iff (b : UInt8) :
    isContinuation b = true ↔ 0x80 ≤ b.toNat ∧ b.toNat ≤ 0xBF := by
  have bytes : ∀ n : Fin 256, isContinuation (UInt8.ofNat n) = true ↔
      0x80 ≤ n.val ∧ n.val ≤ 0xBF := by decide +kernel
  simpa using bytes ⟨b.toNat, b.toNat_lt⟩

end Values

end LibCxxExt.Text
