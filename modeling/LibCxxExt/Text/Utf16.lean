import LibCxxExt.Text.Encoders

/-! UTF-16, and the reader of `char16_t` spans against it. The reader reports what the front of a
text holds: a single unit, a surrogate pair, or a surrogate that no pair starts with. -/

namespace LibCxxExt.Text

def HighSurrogate (a : UInt16) : Prop := 0xD800 ≤ a.toNat ∧ a.toNat ≤ 0xDBFF

def LowSurrogate (a : UInt16) : Prop := 0xDC00 ≤ a.toNat ∧ a.toNat ≤ 0xDFFF

/-- A high surrogate stands at the front of the text and a low one behind it. -/
def StartsWithPair (s : List UInt16) : Prop :=
  ∃ lead trail rest, s = lead :: trail :: rest ∧ HighSurrogate lead ∧ LowSurrogate trail

/-- What the front of a nonempty UTF-16 text holds and the units it takes: a unit that is no
surrogate, a surrogate pair as the supplementary codepoint that it encodes, or else one
ill-formed unit. -/
inductive Front16 : List UInt16 → CodepointData → Prop
  | unit {a : UInt16} (rest : List UInt16) (other : ¬ (HighSurrogate a ∨ LowSurrogate a)) :
      Front16 (a :: rest) ⟨a.toUInt32, 1⟩
  | pair {lead trail : UInt16} {c : UInt32} (rest : List UInt16) (high : HighSurrogate lead)
      (low : LowSurrogate trail) (supplementary : 0x10000 ≤ c.toNat ∧ c.toNat ≤ 0x10FFFF)
      (units : encode16 c.toNat = [lead, trail]) : Front16 (lead :: trail :: rest) ⟨c, 2⟩
  | illFormed {a : UInt16} {rest : List UInt16} (surrogate : HighSurrogate a ∨ LowSurrogate a)
      (unpaired : ¬ StartsWithPair (a :: rest)) : Front16 (a :: rest) ⟨0xFFFD, 1⟩

theorem scalar_of_supplementary {c : Nat} (supplementary : 0x10000 ≤ c ∧ c ≤ 0x10FFFF) :
    Utf8.Scalar c :=
  .inr ⟨by omega, supplementary.2⟩

theorem Front16.read {s : List UInt16} {d : CodepointData} (front : Front16 s d) :
    readCodepoint16 s = some d := by
  cases front with
  | @unit a rest other =>
    unfold HighSurrogate LowSurrogate at other
    simpa using readCodepoint16_bmp (a := a) (by omega) rest
  | @pair lead trail c rest high low supplementary units =>
    simpa [units] using read_encode16 (scalar_of_supplementary supplementary) rest
  | @illFormed a rest surrogate unpaired =>
    refine readCodepoint16_unpaired ?_ fun bound b mem low => unpaired ?_
    · unfold HighSurrogate LowSurrogate at surrogate
      omega
    · obtain ⟨tail, rfl⟩ := List.head?_eq_some_iff.mp mem
      refine ⟨a, b, tail, rfl, ?_, low⟩
      unfold HighSurrogate LowSurrogate at surrogate
      unfold HighSurrogate
      omega

/-- A surrogate pair is the encoding of one supplementary codepoint. -/
theorem exists_supplementary {lead trail : UInt16} (high : HighSurrogate lead)
    (low : LowSurrogate trail) : ∃ c : UInt32, (0x10000 ≤ c.toNat ∧ c.toNat ≤ 0x10FFFF) ∧
      encode16 c.toNat = [lead, trail] := by
  unfold HighSurrogate at high
  unfold LowSurrogate at low
  let v := (lead.toNat - 0xD800) * 0x400 + (trail.toNat - 0xDC00)
  have value : (UInt32.ofNat (0x10000 + v)).toNat = 0x10000 + v :=
    UInt32.toNat_ofNat_of_lt' (by rw [UInt32.size]; omega)
  refine ⟨.ofNat (0x10000 + v), by rw [value]; omega, ?_⟩
  have first : 0xD800 + (0x10000 + v - 0x10000) / 0x400 = lead.toNat := by omega
  have second : 0xDC00 + (0x10000 + v - 0x10000) % 0x400 = trail.toNat := by omega
  rw [value, encode16, if_neg (by omega), first, second, UInt16.ofNat_toNat, UInt16.ofNat_toNat]

/-- Every nonempty text has a front. -/
theorem Front16.exists (a : UInt16) (rest : List UInt16) : ∃ d, Front16 (a :: rest) d := by
  by_cases surrogate : HighSurrogate a ∨ LowSurrogate a
  · by_cases paired : StartsWithPair (a :: rest)
    · obtain ⟨lead, trail, tail, shape, high, low⟩ := paired
      obtain ⟨c, supplementary, units⟩ := exists_supplementary high low
      rw [shape]
      exact ⟨_, .pair tail high low supplementary units⟩
    · exact ⟨_, .illFormed surrogate paired⟩
  · exact ⟨_, .unit rest surrogate⟩

theorem readCodepoint16_iff (s : List UInt16) (d : CodepointData) :
    readCodepoint16 s = some d ↔ Front16 s d := by
  constructor
  · intro given
    match s with
    | [] => simp [readCodepoint16] at given
    | a :: rest =>
      obtain ⟨d', front⟩ := Front16.exists a rest
      rw [front.read, Option.some.injEq] at given
      exact given ▸ front
  · exact Front16.read

end LibCxxExt.Text
