import LibCxxExt.Text.CasingTranscode

/-! `string::invalids_replaced` (`StringEx.h`) as a projection onto the well-formed texts. A
well-formed text is the encoding of its codepoints, so that decoding and encoding it gives it back.
-/

namespace LibCxxExt.Text

open LibCxxExt.ProofKit

/-! ### Symbols -/

/-- A well-formed sequence is what Table 3-6 gives for its scalar value. -/
theorem encode8_of_wellFormed {bytes : List UInt8} {c : Nat} (wf : Utf8.WellFormed bytes c) :
    encode8 c = bytes := by
  obtain ⟨row, value⟩ := wf
  unfold encode8
  rcases bytes with _ | ⟨a, _ | ⟨b, _ | ⟨d, _ | ⟨e, _ | ⟨f, rest⟩⟩⟩⟩⟩
  · simp [Utf8.table37] at row
  · have small := (Utf8.row_one a).mp row
    have value : a.toNat = c := value
    rw [if_pos (by omega), ← value, UInt8.ofNat_toNat]
  · obtain ⟨range, tail⟩ := (Utf8.row_two a b).mp row
    unfold Utf8.Tail at tail
    have value : a.toNat % 0x20 * 0x40 + b.toNat % 0x40 = c := value
    have first : 0xC0 + c / 0x40 = a.toNat := by omega
    have second : 0x80 + c % 0x40 = b.toNat := by omega
    rw [if_neg (by omega), if_pos (by omega), first, second, UInt8.ofNat_toNat, UInt8.ofNat_toNat]
  · obtain ⟨range, tailB, tailD, least, -⟩ := (Utf8.row_three a b d).mp row
    unfold Utf8.Tail at tailB tailD
    have value : (a.toNat % 0x10 * 0x40 + b.toNat % 0x40) * 0x40 + d.toNat % 0x40 = c := value
    have first : 0xE0 + c / 0x1000 = a.toNat := by omega
    have second : 0x80 + c / 0x40 % 0x40 = b.toNat := by omega
    have third : 0x80 + c % 0x40 = d.toNat := by omega
    rw [if_neg (by omega), if_neg (by omega), if_pos (by omega), first, second, third,
      UInt8.ofNat_toNat, UInt8.ofNat_toNat, UInt8.ofNat_toNat]
  · obtain ⟨range, tailB, tailD, tailE, least, -⟩ := (Utf8.row_four a b d e).mp row
    unfold Utf8.Tail at tailB tailD tailE
    have value : ((a.toNat % 0x08 * 0x40 + b.toNat % 0x40) * 0x40 + d.toNat % 0x40) * 0x40 +
      e.toNat % 0x40 = c := value
    have first : 0xF0 + c / 0x40000 = a.toNat := by omega
    have second : 0x80 + c / 0x1000 % 0x40 = b.toNat := by omega
    have third : 0x80 + c / 0x40 % 0x40 = d.toNat := by omega
    have fourth : 0x80 + c % 0x40 = e.toNat := by omega
    rw [if_neg (by omega), if_neg (by omega), if_neg (by omega), first, second, third, fourth,
      UInt8.ofNat_toNat, UInt8.ofNat_toNat, UInt8.ofNat_toNat, UInt8.ofNat_toNat]
  · exact absurd row (Utf8.row_long a b d e f rest)

theorem exists_replaceInvalid {n : Nat} (scalar : Utf8.Scalar n) :
    ∃ c : UInt32, (replaceInvalid c).toNat = n := by
  have value : (UInt32.ofNat n).toNat = n := by
    unfold Utf8.Scalar at scalar
    exact UInt32.toNat_ofNat_of_lt' (by rw [UInt32.size]; omega)
  exact ⟨UInt32.ofNat n, by rw [replaceInvalid_of_scalar (by rwa [value]), value]⟩

/-- Every symbol is the encoding of a codepoint. -/
theorem exists_encode (T : Encoding) {units : List T.Unit} (symbol : T.IsSymbol units) :
    ∃ c, LawfulCharacter.encode (T := T.Unit) c = units := by
  cases T with
  | utf8 =>
    obtain ⟨n, wf⟩ := symbol
    have scalar : Utf8.Scalar n := by
      rcases units with _ | ⟨a, rest⟩
      · obtain ⟨row, -⟩ := wf
        simp [Utf8.table37] at row
      · obtain ⟨-, -, -, -, -, -, scalar, -⟩ := (Utf8.wellFormed_cons _ _ _).mp wf
        exact scalar
    obtain ⟨c, value⟩ := exists_replaceInvalid scalar
    exact ⟨c, (congrArg encode8 value).trans (encode8_of_wellFormed wf)⟩
  | utf16 =>
    rcases symbol with ⟨a, rfl, bmp⟩ | ⟨a, b, rfl, high, low⟩
    · have below := a.toNat_lt
      obtain ⟨c, value⟩ := exists_replaceInvalid (n := a.toNat) (by unfold Utf8.Scalar; omega)
      refine ⟨c, (congrArg encode16 value).trans ?_⟩
      rw [encode16, if_pos (by omega), UInt16.ofNat_toNat]
    · obtain ⟨c, supplementary, pair⟩ := exists_supplementary high low
      have same : replaceInvalid c = c :=
        replaceInvalid_of_scalar (scalar_of_supplementary supplementary)
      exact ⟨c, (congrArg (fun c => encode16 c.toNat) same).trans pair⟩
  | utf32 =>
    obtain ⟨a, rfl, scalar⟩ := symbol
    obtain ⟨c, value⟩ := exists_replaceInvalid scalar
    refine ⟨c, (congrArg encode32 value).trans ?_⟩
    rw [encode32, UInt32.ofNat_toNat]

/-! ### Texts -/

theorem exists_encodeAll (T : Encoding) {s : List T.Unit} (wf : T.WellFormed s) :
    ∃ cs, encodeAll T.Unit cs = s := by
  obtain ⟨symbols, rfl, each⟩ := wf
  induction symbols with
  | nil => exact ⟨[], rfl⟩
  | cons units symbols ih =>
    obtain ⟨first, later⟩ := List.forall_mem_cons.mp each
    obtain ⟨c, here⟩ := exists_encode T first
    obtain ⟨cs, rest⟩ := ih later
    refine ⟨c :: cs, ?_⟩
    rw [List.flatten_cons, ← here, ← rest]
    rfl

theorem invalidsReplaced_eq {T : Encoding} (s : List T.Unit) :
    invalidsReplaced s = some (encodeAll T.Unit (decoded s)) :=
  appendCodepoints_eq s

theorem invalidsReplaced_encodeAll (T : Encoding) (cs : List UInt32) :
    invalidsReplaced (encodeAll T.Unit cs) = some (encodeAll T.Unit cs) :=
  transcode_encodeAll T T cs

/-- `invalids_replaced` maps every text to a well-formed one, leaves exactly the well-formed ones as
they are and changes nothing when it is applied again. -/
theorem invalidsReplaced_projects (T : Encoding) (s : List T.Unit) :
    ∃ t, invalidsReplaced s = some t ∧ T.WellFormed t ∧ (t = s ↔ T.WellFormed s) ∧
      invalidsReplaced t = some t := by
  have wellFormed := wellFormed_encodeAll T (decoded s)
  refine ⟨_, invalidsReplaced_eq s, wellFormed, ⟨fun same => same ▸ wellFormed, fun wf => ?_⟩,
    invalidsReplaced_encodeAll T _⟩
  obtain ⟨cs, rfl⟩ := exists_encodeAll T wf
  have same := (invalidsReplaced_eq _).symm.trans (invalidsReplaced_encodeAll T cs)
  exact Option.some_inj.mp same

end LibCxxExt.Text
