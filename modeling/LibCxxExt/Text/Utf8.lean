import Mathlib.Data.FinEnum
import LibCxxExt.Text.Char

/-! UTF-8 as the Unicode standard defines it, and the reader of `char8_t` spans against it. The
reader agrees with Table 3-7 behind every lead byte but those from 0x80 to 0xC1, which no row of
the table admits and which the reader takes for the three-byte lead with the same low four bits. -/

namespace LibCxxExt.Text.Utf8

open LibCxxExt.ProofKit

/-- Table 3-7 of the Unicode standard: each row gives the admitted range of every byte of a
well-formed sequence. -/
def table37 : List (List (Nat × Nat)) :=
  [[(0x00, 0x7F)],
   [(0xC2, 0xDF), (0x80, 0xBF)],
   [(0xE0, 0xE0), (0xA0, 0xBF), (0x80, 0xBF)],
   [(0xE1, 0xEC), (0x80, 0xBF), (0x80, 0xBF)],
   [(0xED, 0xED), (0x80, 0x9F), (0x80, 0xBF)],
   [(0xEE, 0xEF), (0x80, 0xBF), (0x80, 0xBF)],
   [(0xF0, 0xF0), (0x90, 0xBF), (0x80, 0xBF), (0x80, 0xBF)],
   [(0xF1, 0xF3), (0x80, 0xBF), (0x80, 0xBF), (0x80, 0xBF)],
   [(0xF4, 0xF4), (0x80, 0x8F), (0x80, 0xBF), (0x80, 0xBF)]]

/-- The bytes lie in the ranges of a row, one each. -/
def Admits (row : List (Nat × Nat)) (bytes : List UInt8) : Prop :=
  List.Forall₂ (fun range byte => range.1 ≤ byte.toNat ∧ byte.toNat ≤ range.2) row bytes

/-- The payload bits of the continuation bytes appended to those of the lead byte. -/
def payload (lead : Nat) (bytes : List UInt8) : Nat :=
  bytes.foldl (fun acc byte => acc * 0x40 + byte.toNat % 0x40) lead

/-- The bit distribution of Table 3-6: the scalar value that a sequence carries. -/
def scalarValue : List UInt8 → Nat
  | [] => 0
  | [a] => a.toNat
  | [a, b] => payload (a.toNat % 0x20) [b]
  | [a, b, c] => payload (a.toNat % 0x10) [b, c]
  | a :: rest => payload (a.toNat % 0x08) rest

/-- `bytes` is the well-formed encoding of the scalar value `c`. -/
@[mk_iff]
structure WellFormed (bytes : List UInt8) (c : Nat) : Prop where
  row : ∃ row ∈ table37, Admits row bytes
  value : scalarValue bytes = c

def Tail (b : UInt8) : Prop := 0x80 ≤ b.toNat ∧ b.toNat ≤ 0xBF

instance : DecidablePred Tail := fun _ => inferInstanceAs (Decidable (_ ∧ _))

def Scalar (c : Nat) : Prop := c < 0xD800 ∨ 0xDFFF < c ∧ c ≤ 0x10FFFF

instance : DecidablePred Scalar := fun _ => inferInstanceAs (Decidable (_ ∨ _))

/-- The least scalar value whose encoding takes `len` bytes. -/
def least : Nat → Nat
  | 2 => 0x80
  | 3 => 0x800
  | 4 => 0x10000
  | _ => 0

/-- The length that a lead byte announces and the bits it carries, for the lead bytes that
Table 3-7 has. -/
def lead (a : Nat) : Option (Nat × Nat) :=
  if a < 0x80 then some (a, 1)
  else if 0xC2 ≤ a ∧ a < 0xE0 then some (a % 0x20, 2)
  else if 0xE0 ≤ a ∧ a < 0xF0 then some (a % 0x10, 3)
  else if 0xF0 ≤ a ∧ a < 0xF5 then some (a % 0x08, 4)
  else none

@[simp] theorem admits_cons (range : Nat × Nat) (row : List (Nat × Nat)) (a : UInt8)
    (rest : List UInt8) : Admits (range :: row) (a :: rest) ↔
      (range.1 ≤ a.toNat ∧ a.toNat ≤ range.2) ∧ Admits row rest :=
  List.forall₂_cons

@[simp] theorem admits_nil (rest : List UInt8) : Admits [] rest ↔ rest = [] := by
  simp [Admits]

@[simp] theorem not_admits_cons_nil (range : Nat × Nat) (row : List (Nat × Nat)) :
    ¬ Admits (range :: row) [] := by
  simp [Admits]

/-- The rows of Table 3-7 by length: the lead bytes of each length, and the second bytes that keep
out overlong sequences, surrogates and values past U+10FFFF. -/
theorem row_one (a : UInt8) : (∃ row ∈ table37, Admits row [a]) ↔ a.toNat < 0x80 := by
  simp [table37]
  omega

theorem row_two (a b : UInt8) : (∃ row ∈ table37, Admits row [a, b]) ↔
    (0xC2 ≤ a.toNat ∧ a.toNat < 0xE0) ∧ Tail b := by
  simp [table37, Tail]
  omega

theorem row_three (a b c : UInt8) : (∃ row ∈ table37, Admits row [a, b, c]) ↔
    (0xE0 ≤ a.toNat ∧ a.toNat < 0xF0) ∧ Tail b ∧ Tail c ∧
      (a.toNat = 0xE0 → 0xA0 ≤ b.toNat) ∧ (a.toNat = 0xED → b.toNat ≤ 0x9F) := by
  simp [table37, Tail]
  omega

theorem row_four (a b c d : UInt8) : (∃ row ∈ table37, Admits row [a, b, c, d]) ↔
    (0xF0 ≤ a.toNat ∧ a.toNat < 0xF5) ∧ Tail b ∧ Tail c ∧ Tail d ∧
      (a.toNat = 0xF0 → 0x90 ≤ b.toNat) ∧ (a.toNat = 0xF4 → b.toNat ≤ 0x8F) := by
  simp [table37, Tail]
  omega

theorem row_long (a b c d e : UInt8) (rest : List UInt8) :
    ¬ ∃ row ∈ table37, Admits row (a :: b :: c :: d :: e :: rest) := by
  simp [table37]

theorem lead_eq_some (a bits len : Nat) : lead a = some (bits, len) ↔
    (len = 1 ∧ a < 0x80 ∧ a = bits) ∨
    (len = 2 ∧ (0xC2 ≤ a ∧ a < 0xE0) ∧ a % 0x20 = bits) ∨
    (len = 3 ∧ (0xE0 ≤ a ∧ a < 0xF0) ∧ a % 0x10 = bits) ∨
    (len = 4 ∧ (0xF0 ≤ a ∧ a < 0xF5) ∧ a % 0x08 = bits) := by
  unfold lead
  split_ifs <;> simp only [Option.some.injEq, Prod.mk.injEq, false_iff] <;> omega

/-- The bits of a lead byte and its continuation bytes fit in 21 bits. -/
theorem lead_room {a bits len : Nat} (known : lead a = some (bits, len)) :
    (bits + 1) * 0x40 ^ (len - 1) ≤ 2 ^ 21 := by
  rcases (lead_eq_some a bits len).mp known with
    ⟨rfl, h, rfl⟩ | ⟨rfl, h, rfl⟩ | ⟨rfl, h, rfl⟩ | ⟨rfl, h, rfl⟩ <;> simp <;> omega

theorem lead_length {a bits len : Nat} (known : lead a = some (bits, len)) :
    1 ≤ len ∧ len ≤ 4 := by
  rcases (lead_eq_some a bits len).mp known with
    ⟨rfl, -⟩ | ⟨rfl, -⟩ | ⟨rfl, -⟩ | ⟨rfl, -⟩ <;> decide

/-- A row of Table 3-7 asks for the announced number of continuation bytes and leaves out the
overlong sequences and the surrogates. -/
theorem wellFormed_cons (a : UInt8) (rest : List UInt8) (c : Nat) :
    WellFormed (a :: rest) c ↔ ∃ bits len, lead a.toNat = some (bits, len) ∧
      rest.length + 1 = len ∧ (∀ b ∈ rest, Tail b) ∧ least len ≤ c ∧ Scalar c ∧
      payload bits rest = c := by
  simp only [wellFormed_iff, lead_eq_some]
  rcases rest with _ | ⟨b, _ | ⟨d, _ | ⟨e, _ | ⟨f, rest⟩⟩⟩⟩
  · simp [row_one, scalarValue, payload, least, Scalar]
    omega
  · simp [row_two, scalarValue, payload, least, Scalar, Tail]
    omega
  · simp [row_three, scalarValue, payload, least, Scalar, Tail]
    omega
  · simp [row_four, scalarValue, payload, least, Scalar, Tail]
    omega
  · simp [row_long]

/-! ### The reader -/

/-- The lead byte that the reader takes `a` for. -/
def takenFor (a : UInt8) : UInt8 :=
  if 0x80 ≤ a ∧ a < 0xC2 then 0xE0 ||| (a &&& 0x0F) else a

theorem takenFor_toNat (a : UInt8) : (takenFor a).toNat =
    if 0x80 ≤ a.toNat ∧ a.toNat < 0xC2 then 0xE0 + a.toNat % 0x10 else a.toNat := by
  have bytes : ∀ n : Fin 256, (takenFor (UInt8.ofNat n)).toNat =
      if 0x80 ≤ n.val ∧ n.val < 0xC2 then 0xE0 + n.val % 0x10 else n.val := by decide +kernel
  simpa using bytes ⟨a.toNat, a.toNat_lt⟩

theorem takenFor_self {a : UInt8} (h : a.toNat < 0x80 ∨ 0xC2 ≤ a.toNat) : takenFor a = a := by
  apply UInt8.toNat_inj.mp
  rw [takenFor_toNat, if_neg (by omega)]

/-- The cascade decides every byte past 0x7F as Table 3-7 decides the byte it is taken for. -/
theorem leadByte_eq (a : UInt8) (h : 0x80 ≤ a.toNat) :
    leadByte a.toUInt32 =
      (lead (takenFor a).toNat).map fun (bits, len) => (UInt32.ofNat bits, len) := by
  have bytes : ∀ n : Fin 256, 0x80 ≤ n.val → leadByte (UInt8.ofNat n).toUInt32 =
      (lead (takenFor (UInt8.ofNat n)).toNat).map fun (bits, len) => (UInt32.ofNat bits, len) := by
    decide +kernel
  simpa using bytes ⟨a.toNat, a.toNat_lt⟩ h

theorem payload_cons (bits : Nat) (b : UInt8) (rest : List UInt8) :
    payload bits (b :: rest) = payload (bits * 0x40 + b.toNat % 0x40) rest :=
  rfl

theorem payload_lt (bits : Nat) (bytes : List UInt8) :
    payload bits bytes < (bits + 1) * 0x40 ^ bytes.length := by
  induction bytes generalizing bits with
  | nil => simp [payload]
  | cons b rest ih =>
    have step := ih (bits * 0x40 + b.toNat % 0x40)
    have room : bits * 0x40 + b.toNat % 0x40 + 1 ≤ (bits + 1) * 0x40 := by omega
    calc payload bits (b :: rest)
        < (bits * 0x40 + b.toNat % 0x40 + 1) * 0x40 ^ rest.length := step
      _ ≤ (bits + 1) * 0x40 * 0x40 ^ rest.length := Nat.mul_le_mul_right _ room
      _ = (bits + 1) * 0x40 ^ (b :: rest).length := by rw [List.length_cons, pow_succ]; ring

/-- The loop collects the payload of the next `n` bytes when all of them are continuation bytes,
and returns early otherwise. The bound leaves room for the bits still to come. -/
theorem readContinuations_eq (before bytes after : List UInt8) (ret : UInt32)
    (room : (ret.toNat + 1) * 0x40 ^ bytes.length ≤ 2 ^ 32) :
    readContinuations (before ++ bytes ++ after) bytes.length before.length ret =
      some (if ∀ b ∈ bytes, Tail b then some (UInt32.ofNat (payload ret.toNat bytes))
        else none) := by
  induction bytes generalizing before ret with
  | nil => simp [readContinuations, payload]
  | cons b rest ih =>
    have here : (before ++ b :: rest ++ after)[before.length]? = some b := by simp
    have tail := isContinuation_iff b
    by_cases hb : Tail b
    · have room : (ret.toNat + 1) * 0x40 * 0x40 ^ rest.length ≤ 2 ^ 32 := by
        rwa [List.length_cons, pow_succ, mul_comm (0x40 ^ rest.length), ← mul_assoc] at room
      have small : ret.toNat < 2 ^ 26 := by
        have := (Nat.le_mul_of_pos_right _ (Nat.pow_pos (by decide))).trans room
        omega
      have shifted := toNat_shift_in ret b.toUInt32 small
      rw [UInt8.toNat_toUInt32] at shifted
      have room' : (ret.toNat * 64 + b.toNat % 64 + 1) * 0x40 ^ rest.length ≤ 2 ^ 32 :=
        (Nat.mul_le_mul_right _ (by omega)).trans room
      have step := ih (before ++ [b]) _ (shifted ▸ room')
      simp only [List.length_append, List.length_singleton, List.append_assoc,
        List.cons_append, List.nil_append] at step here ⊢
      simp [readContinuations, tail.mpr hb, step, hb, shifted, payload_cons]
    · have stop : isContinuation b = false := by rw [← Bool.not_eq_true, tail]; exact hb
      simp only [List.length_cons, readContinuations, here]
      simp [stop, hb]

theorem read_ascii {a : UInt8} (h : a.toNat < 0x80) (rest : List UInt8) :
    readCodepoint8 (a :: rest) = some ⟨UInt32.ofNat a.toNat, 1⟩ := by
  have below : a.toUInt32 < 0x80 := by simpa [UInt32.lt_iff_toNat_lt] using h
  have value : UInt32.ofNat a.toNat = a.toUInt32 := by simp
  simp [readCodepoint8, below, value]

theorem read_past {a : UInt8} (past : 0x80 ≤ a.toNat) (rest : List UInt8) :
    readCodepoint8 (a :: rest) =
      match lead (takenFor a).toNat with
      | none => some readCodepointFail
      | some (bits, len) => readSequence8 (a :: rest) (UInt32.ofNat bits) len := by
  have notBelow : ¬ a.toUInt32 < 0x80 := by
    simpa [UInt32.lt_iff_toNat_lt, UInt32.le_iff_toNat_le] using past
  simp only [readCodepoint8, List.getElem?_cons_zero, Option.bind_eq_bind, Option.bind_some,
    notBelow, if_false, leadByte_eq a past]
  cases lead (takenFor a).toNat <;> rfl

theorem readSequence8_short (range : List UInt8) (ret : UInt32) {len : Nat}
    (short : range.length < len) : readSequence8 range ret len = some readCodepointFail := by
  simp [readSequence8, short]

theorem cpMinReq_eq {len : Nat} (h : len = 2 ∨ len = 3 ∨ len = 4) :
    cpMinReq[len]? = some (UInt32.ofNat (least len)) := by
  rcases h with rfl | rfl | rfl <;> rfl

/-- Behind a lead byte the reader accepts exactly the continuations that carry a scalar value
which needs the announced length. -/
theorem readSequence8_eq (a : UInt8) (bytes rest : List UInt8) {bits len : Nat}
    (known : lead (takenFor a).toNat = some (bits, len)) (multi : len ≠ 1)
    (size : bytes.length + 1 = len) :
    readSequence8 (a :: (bytes ++ rest)) (UInt32.ofNat bits) len = some
      (if (∀ b ∈ bytes, Tail b) ∧ least len ≤ payload bits bytes ∧ Scalar (payload bits bytes) then
        ⟨UInt32.ofNat (payload bits bytes), len⟩ else readCodepointFail) := by
  have length := lead_length known
  have room := lead_room known
  rw [show len - 1 = bytes.length by omega] at room
  have small : payload bits bytes < 2 ^ 21 := (payload_lt bits bytes).trans_le room
  have bitsSmall : bits + 1 ≤ 2 ^ 21 :=
    (Nat.le_mul_of_pos_right _ (Nat.pow_pos (by decide))).trans room
  have bitsValue : (UInt32.ofNat bits).toNat = bits :=
    UInt32.toNat_ofNat_of_lt' (Nat.lt_of_lt_of_le bitsSmall (by decide))
  have value : (UInt32.ofNat (payload bits bytes)).toNat = payload bits bytes :=
    UInt32.toNat_ofNat_of_lt' (Nat.lt_of_lt_of_le small (by decide))
  have loop := readContinuations_eq [a] bytes rest (UInt32.ofNat bits)
    (by rw [bitsValue]; omega)
  have leastSmall : (UInt32.ofNat (least len)).toNat = least len := by
    obtain rfl | rfl | rfl : len = 2 ∨ len = 3 ∨ len = 4 := by omega
    all_goals rfl
  have checks : (UInt32.ofNat (payload bits bytes) < UInt32.ofNat (least len) ∨
      isScalar (UInt32.ofNat (payload bits bytes)) = false) ↔
        ¬ (least len ≤ payload bits bytes ∧ Scalar (payload bits bytes)) := by
    rw [UInt32.lt_iff_toNat_lt, value, leastSmall, ← Bool.not_eq_true, isScalar_iff, value,
      ← Scalar, not_and_or, not_le]
  have enough : ¬ (a :: (bytes ++ rest)).length < len := by simp; omega
  rw [bitsValue, show [a] ++ bytes ++ rest = a :: (bytes ++ rest) from rfl] at loop
  rw [readSequence8, if_neg enough, show len - 1 = bytes.length by omega]
  simp only [List.length_singleton] at loop
  by_cases tails : ∀ b ∈ bytes, Tail b
  · rw [if_pos tails] at loop
    simp [loop, cpMinReq_eq (by omega : len = 2 ∨ len = 3 ∨ len = 4), checks]
    split_ifs <;> tauto
  · rw [if_neg tails] at loop
    simp [loop, tails]

/-- The reader gives what the byte it takes the lead byte for would encode. -/
theorem read_of_wellFormed {a : UInt8} {bytes : List UInt8} {c : Nat}
    (h : WellFormed (takenFor a :: bytes) c) (rest : List UInt8) :
    readCodepoint8 (a :: (bytes ++ rest)) = some ⟨UInt32.ofNat c, bytes.length + 1⟩ := by
  obtain ⟨bits, len, known, size, tails, enough, scalar, rfl⟩ := (wellFormed_cons _ _ _).mp h
  have shape := (lead_eq_some _ _ _).mp known
  have taken := takenFor_toNat a
  by_cases past : 0x80 ≤ a.toNat
  · have multi : len ≠ 1 := by
      split_ifs at taken <;> omega
    rw [read_past past, known]
    simp only
    rw [readSequence8_eq a bytes rest known multi size, if_pos ⟨tails, enough, scalar⟩, size]
  · rw [takenFor_self (by omega)] at shape
    obtain rfl : bytes = [] := List.eq_nil_of_length_eq_zero (by omega)
    obtain rfl : a.toNat = bits := by omega
    exact read_ascii (by omega) rest

theorem read_of_not_wellFormed {a : UInt8} {rest : List UInt8}
    (h : ∀ n c, ¬ WellFormed (takenFor a :: rest.take n) c) :
    readCodepoint8 (a :: rest) = some readCodepointFail := by
  by_cases past : 0x80 ≤ a.toNat
  · rw [read_past past]
    rcases known : lead (takenFor a).toNat with _ | ⟨bits, len⟩
    · rfl
    · simp only
      by_cases short : rest.length + 1 < len
      · exact readSequence8_short _ _ short
      · have length := lead_length known
        have size : (rest.take (len - 1)).length + 1 = len := by
          rw [List.length_take]; omega
        have multi : len ≠ 1 := by
          have shape := (lead_eq_some _ _ _).mp known
          have taken := takenFor_toNat a
          split_ifs at taken <;> omega
        have cut := readSequence8_eq a (rest.take (len - 1)) (rest.drop (len - 1)) known multi size
        rw [List.take_append_drop] at cut
        rw [cut, if_neg]
        rintro ⟨tails, enough, scalar⟩
        exact h (len - 1) _ ((wellFormed_cons _ _ _).mpr
          ⟨bits, len, known, size, tails, enough, scalar, rfl⟩)
  · refine (h 0 a.toNat ((wellFormed_cons _ _ _).mpr ⟨a.toNat, 1, ?_⟩)).elim
    rw [takenFor_self (by omega)]
    simp [lead, payload, least, Scalar]
    omega

/-! ### Exactness -/

/-- The reader accepts the well-formed prefixes of `range` and nothing else. -/
structure DecodesExactly (range : List UInt8) : Prop where
  accepts : ∀ n c, 1 ≤ n → n ≤ range.length → WellFormed (range.take n) c →
    readCodepoint8 range = some ⟨UInt32.ofNat c, n⟩
  rejects : (∀ n c, 1 ≤ n → n ≤ range.length → ¬ WellFormed (range.take n) c) →
    readCodepoint8 range = some ⟨0xFFFD, 1⟩
  badLead : ∀ a ∈ range.head?, 0x80 ≤ a.toNat → a.toNat < 0xC2 →
    readCodepoint8 range = some ⟨0xFFFD, 1⟩

/-- The first byte is one from 0x80 to 0xC1, and the three-byte lead with the same low four bits in
its place would make the first three bytes well-formed. -/
def Misread : List UInt8 → Prop
  | a :: b :: d :: _ =>
    (0x80 ≤ a.toNat ∧ a.toNat < 0xC2) ∧ ∃ c, WellFormed [0xE0 ||| (a &&& 0x0F), b, d] c
  | _ => False

theorem takenFor_bad {a : UInt8} (h : 0x80 ≤ a.toNat ∧ a.toNat < 0xC2) :
    takenFor a = 0xE0 ||| (a &&& 0x0F) := by
  rw [takenFor, if_pos]
  simpa [UInt8.le_iff_toNat_le, UInt8.lt_iff_toNat_lt] using h

theorem not_wellFormed_bad {a : UInt8} (h : 0x80 ≤ a.toNat ∧ a.toNat < 0xC2)
    (rest : List UInt8) (c : Nat) : ¬ WellFormed (a :: rest) c := by
  rw [wellFormed_cons]
  rintro ⟨bits, len, known, -⟩
  have shape := (lead_eq_some _ _ _).mp known
  omega

theorem read_bad {a : UInt8} {rest : List UInt8} (h : 0x80 ≤ a.toNat ∧ a.toNat < 0xC2)
    (clean : ¬ Misread (a :: rest)) : readCodepoint8 (a :: rest) = some readCodepointFail := by
  refine read_of_not_wellFormed fun n c wf => ?_
  obtain ⟨bits, len, known, size, -⟩ := (wellFormed_cons _ _ _).mp wf
  have shape := (lead_eq_some _ _ _).mp known
  have taken := takenFor_toNat a
  rw [if_pos h] at taken
  have two : (rest.take n).length = 2 := by omega
  rw [takenFor_bad h] at wf
  match rest, two with
  | b :: d :: rest, two =>
    have cut : (b :: d :: rest).take n = [b, d] := by
      obtain ⟨m, rfl⟩ : ∃ m, n = m + 2 := ⟨n - 2, by rw [List.length_take] at two; omega⟩
      simpa using two
    exact clean ⟨h, c, cut ▸ wf⟩
  | [b], two => simp at two; omega
  | [], two => simp at two

theorem decodesExactly_good {a : UInt8} (h : a.toNat < 0x80 ∨ 0xC2 ≤ a.toNat)
    (rest : List UInt8) : DecodesExactly (a :: rest) where
  accepts n c pos inside wf := by
    obtain ⟨m, rfl⟩ : ∃ m, n = m + 1 := ⟨n - 1, by omega⟩
    rw [List.take_succ_cons, ← takenFor_self h] at wf
    have given := read_of_wellFormed wf (rest.drop m)
    rwa [List.take_append_drop, List.length_take, min_eq_left (by simpa using inside)] at given
  rejects none := by
    refine read_of_not_wellFormed fun n c wf => none (min n rest.length + 1) c (by omega) ?_ ?_
    · simp
    · rw [List.take_succ_cons, ← takenFor_self h]
      rwa [← List.take_take, List.take_length]
  badLead b hb low high := by
    simp only [List.head?_cons, Option.mem_some_iff] at hb
    subst hb
    omega

/-- The reader is exact on a nonempty buffer unless its first byte is a bad lead byte that makes a
well-formed three-byte sequence out of the next two. -/
theorem decodesExactly_iff (a : UInt8) (rest : List UInt8) :
    DecodesExactly (a :: rest) ↔ ¬ Misread (a :: rest) := by
  by_cases h : 0x80 ≤ a.toNat ∧ a.toNat < 0xC2
  · constructor
    · intro exact misread
      match rest, misread with
      | b :: d :: rest, ⟨_, c, wf⟩ =>
        rw [← takenFor_bad h] at wf
        have accepted := read_of_wellFormed wf rest
        have rejected := exact.badLead a rfl h.1 h.2
        simp [rejected] at accepted
    · intro clean
      have rejected := read_bad h clean
      refine ⟨fun n c pos _ wf => ?_, fun _ => rejected, fun _ _ _ _ => rejected⟩
      obtain ⟨m, rfl⟩ : ∃ m, n = m + 1 := ⟨n - 1, by omega⟩
      exact absurd wf (not_wellFormed_bad h _ c)
  · refine iff_of_true (decodesExactly_good (by omega) rest) fun misread => ?_
    match rest, misread with
    | b :: d :: rest, ⟨bad, _⟩ => exact h bad

/-- A stray continuation byte in front of two more is read as U+1000. -/
theorem readCodepoint8_misreads :
    readCodepoint8 [0x81, 0x80, 0x80] = some ⟨0x1000, 3⟩ ∧
      ¬ DecodesExactly [0x81, 0x80, 0x80] := by
  have misread : readCodepoint8 [0x81, 0x80, 0x80] = some ⟨0x1000, 3⟩ := by decide
  refine ⟨misread, fun exact => ?_⟩
  have rejected := exact.badLead 0x81 rfl (by decide) (by decide)
  rw [misread] at rejected
  exact absurd rejected (by decide)

end LibCxxExt.Text.Utf8
