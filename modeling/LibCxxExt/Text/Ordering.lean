import LibCxxExt.ProofKit.OrderedCode
import LibCxxExt.Text.Compare
import LibCxxExt.Text.SelfSynchronising

/-! The order of well-formed strings. Units are compared one by one, which amounts to comparing
codepoints: by their values in UTF-8 and UTF-32, while UTF-16 has the codepoints that take two units
before the last ones that take one. -/

namespace LibCxxExt.Text

open LibCxxExt.ProofKit

/-- The order by `char_traits<char16_t>::lt`. -/
@[reducible] def char16Order : LinearOrder UInt16 where
  le_refl _ := UInt16.le_refl _
  le_trans _ _ _ := UInt16.le_trans
  le_antisymm _ _ := UInt16.le_antisymm
  le_total := UInt16.le_total
  lt_iff_le_not_ge a b := by
    simp only [UInt16.le_iff_toNat_le, UInt16.lt_iff_toNat_lt]
    omega
  toDecidableLE := inferInstance
  toDecidableLT := inferInstance
  toDecidableEq := inferInstance

/-- The order by `char_traits<char32_t>::lt`. -/
@[reducible] def char32Order : LinearOrder UInt32 where
  le_refl _ := UInt32.le_refl _
  le_trans _ _ _ := UInt32.le_trans
  le_antisymm _ _ := UInt32.le_antisymm
  le_total := UInt32.le_total
  lt_iff_le_not_ge a b := by
    simp only [UInt32.le_iff_toNat_le, UInt32.lt_iff_toNat_lt]
    omega
  toDecidableLE := inferInstance
  toDecidableLT := inferInstance
  toDecidableEq := inferInstance

attribute [local instance] char8Order char16Order char32Order

instance (T : Encoding) : LinearOrder T.Unit := by
  cases T <;> infer_instance

section Defaulted

variable {T : Type} [LinearOrder T]

/-- `operator<=>(const string&, const string&)`, which is defaulted. -/
def stringString (a b : List T) : Ordering := basicCompare a b

/-- `operator==(const string&, const string&)`, which is defaulted. -/
def stringStringEqual (a b : List T) : Bool := basicEqual a b

end Defaulted

/-- The place of a codepoint in the order of an encoding. -/
def Encoding.rank : Encoding → UInt32 → Nat
  | .utf16, c =>
    if c.toNat < 0xE000 then c.toNat
    else if c.toNat ≤ 0xFFFF then c.toNat + 0x100000
    else c.toNat - 0x2000
  | _, c => c.toNat

/-! ### Words in order -/

theorem ofNat8_lt {m n : Nat} (less : m < n) (byte : n < 0x100) :
    UInt8.ofNat m < UInt8.ofNat n := by
  rw [UInt8.lt_iff_toNat_lt, UInt8.toNat_ofNat_of_lt' (by rw [UInt8.size]; omega),
    UInt8.toNat_ofNat_of_lt' (by rw [UInt8.size]; omega)]
  exact less

theorem ofNat16_lt {m n : Nat} (less : m < n) (unit : n < 0x10000) :
    UInt16.ofNat m < UInt16.ofNat n := by
  rw [UInt16.lt_iff_toNat_lt, UInt16.toNat_ofNat_of_lt' (by rw [UInt16.size]; omega),
    UInt16.toNat_ofNat_of_lt' (by rw [UInt16.size]; omega)]
  exact less

/-- Two units in front of which everything agrees are in order, or they agree as well. -/
theorem diverges_cons {α : Type} [LinearOrder α] {m n : Nat} {w : Nat → α} {s t : List α}
    (mono : m < n → w m < w n) (le : m ≤ n) (tail : m = n → Diverges s t) :
    Diverges (w m :: s) (w n :: t) := by
  rcases Nat.lt_or_eq_of_le le with less | same
  · exact .here (mono less) s t
  · exact same ▸ (tail same).cons (w m)

theorem encode8_diverges {c d : Nat} (scalar : Utf8.Scalar d) (less : c < d) :
    Diverges (encode8 c) (encode8 d) := by
  unfold Utf8.Scalar at scalar
  unfold encode8
  split_ifs
  -- Of two words of different lengths the shorter one has the lesser first unit.
  all_goals try omega
  all_goals try exact .here (ofNat8_lt (by omega) (by omega)) _ _
  · refine diverges_cons (w := fun n => UInt8.ofNat (0xC0 + n))
      (fun h => ofNat8_lt (by omega) (by omega)) (by omega) fun same => ?_
    exact .here (ofNat8_lt (by omega) (by omega)) _ _
  · refine diverges_cons (w := fun n => UInt8.ofNat (0xE0 + n))
      (fun h => ofNat8_lt (by omega) (by omega)) (by omega) fun same => ?_
    refine diverges_cons (w := fun n => UInt8.ofNat (0x80 + n))
      (fun h => ofNat8_lt (by omega) (by omega)) (by omega) fun same => ?_
    exact .here (ofNat8_lt (by omega) (by omega)) _ _
  · refine diverges_cons (w := fun n => UInt8.ofNat (0xF0 + n))
      (fun h => ofNat8_lt (by omega) (by omega)) (by omega) fun same => ?_
    refine diverges_cons (w := fun n => UInt8.ofNat (0x80 + n))
      (fun h => ofNat8_lt (by omega) (by omega)) (by omega) fun same => ?_
    refine diverges_cons (w := fun n => UInt8.ofNat (0x80 + n))
      (fun h => ofNat8_lt (by omega) (by omega)) (by omega) fun same => ?_
    exact .here (ofNat8_lt (by omega) (by omega)) _ _

theorem encode16_diverges {c d : UInt32} (hc : IsScalarValue c) (hd : IsScalarValue d)
    (less : Encoding.utf16.rank c < Encoding.utf16.rank d) :
    Diverges (encode16 c.toNat) (encode16 d.toNat) := by
  unfold IsScalarValue Utf8.Scalar at hc hd
  simp only [Encoding.rank] at less
  unfold encode16
  split_ifs at less ⊢ <;> try omega
  all_goals try exact .here (ofNat16_lt (by omega) (by omega)) _ _
  refine diverges_cons (w := fun n => UInt16.ofNat (0xD800 + n))
    (fun h => ofNat16_lt (by omega) (by omega)) (by omega) fun same => ?_
  exact .here (ofNat16_lt (by omega) (by omega)) _ _

theorem rank_injective (T : Encoding) {c d : UInt32} (hc : IsScalarValue c)
    (hd : IsScalarValue d) (same : T.rank c = T.rank d) : c = d := by
  unfold IsScalarValue Utf8.Scalar at hc hd
  apply UInt32.toNat_inj.mp
  cases T with
  | utf16 =>
    simp only [Encoding.rank] at same
    split_ifs at same <;> omega
  | utf8 => exact same
  | utf32 => exact same

theorem encode_ordered (T : Encoding) :
    OrderedCode IsScalarValue (LawfulCharacter.encode (T := T.Unit)) T.rank where
  nonempty c _ := List.ne_nil_of_length_pos (LawfulCharacter.encode_pos c)
  diverges c d hc hd less := by
    have left := replaceInvalid_of_scalar hc
    have right := replaceInvalid_of_scalar hd
    cases T with
    | utf8 =>
      show Diverges (encode8 (replaceInvalid c).toNat) (encode8 (replaceInvalid d).toNat)
      rw [left, right]
      exact encode8_diverges hd less
    | utf16 =>
      show Diverges (encode16 (replaceInvalid c).toNat) (encode16 (replaceInvalid d).toNat)
      rw [left, right]
      exact encode16_diverges hc hd less
    | utf32 =>
      show Diverges (encode32 (replaceInvalid c).toNat) (encode32 (replaceInvalid d).toNat)
      rw [left, right, encode32, encode32, UInt32.ofNat_toNat, UInt32.ofNat_toNat]
      exact .here (UInt32.lt_iff_toNat_lt.mpr less) [] []
  injective _ _ hc hd same := rank_injective T hc hd same

/-! ### Strings in order -/

theorem basicCompare_eq_of_compares {α : Type} [LinearOrder α] {a b : List α} {order : Ordering}
    (compares : order.Compares a b) : basicCompare a b = order := by
  have other := basicCompare_compares a b
  cases found : basicCompare a b <;> cases order <;> rw [found] at other <;>
    simp only [Ordering.Compares] at compares other
  all_goals first
    | rfl
    | exact absurd compares other.not_gt
    | (subst compares; exact absurd other (lt_irrefl _))
    | (subst other; exact absurd compares (lt_irrefl _))

theorem basicCompare_encodeAll (T : Encoding) {cs ds : List UInt32}
    (hcs : ∀ c ∈ cs, IsScalarValue c) (hds : ∀ d ∈ ds, IsScalarValue d) :
    basicCompare (encodeAll T.Unit cs) (encodeAll T.Unit ds) =
      basicCompare (cs.map T.rank) (ds.map T.rank) := by
  have code := encode_ordered T
  apply basicCompare_eq_of_compares
  have ranks := basicCompare_compares (cs.map T.rank) (ds.map T.rank)
  cases order : basicCompare (cs.map T.rank) (ds.map T.rank) with
  | lt =>
    rw [order] at ranks
    exact code.flatMap_lt hcs hds ranks
  | eq =>
    rw [order] at ranks
    exact congrArg _ (code.map_rank_inj hcs hds ranks)
  | gt =>
    rw [order] at ranks
    exact code.flatMap_lt hds hcs ranks

/-- Comparing well-formed strings is comparing their codepoints in the order of the encoding, so
that transcoding both keeps the order between UTF-8 and UTF-32, and equality in any case. -/
theorem compare_transcode (T U : Encoding) (a b : List T.Unit) (left : T.WellFormed a)
    (right : T.WellFormed b) :
    ∃ cs ds a' b', codepoints a = some cs ∧ codepoints b = some ds ∧
      transcode U a = some a' ∧ transcode U b = some b' ∧
      stringString a b = stringString (cs.map T.rank) (ds.map T.rank) ∧
      stringString a' b' = stringString (cs.map U.rank) (ds.map U.rank) ∧
      stringStringEqual a' b' = stringStringEqual a b ∧
      (T ≠ .utf16 → U ≠ .utf16 → stringString a' b' = stringString a b) := by
  obtain ⟨cs, hcs, rfl⟩ := exists_scalars T left
  obtain ⟨ds, hds, rfl⟩ := exists_scalars T right
  have here := basicCompare_encodeAll T hcs hds
  have there := basicCompare_encodeAll U hcs hds
  refine ⟨cs, ds, _, _, ?_, ?_, transcode_encodeAll T U cs, transcode_encodeAll T U ds, here,
    there, ?_, fun notT notU => ?_⟩
  · rw [codepoints_eq, decoded_of_scalars T hcs]
  · rw [codepoints_eq, decoded_of_scalars T hds]
  · rw [Bool.eq_iff_iff, stringStringEqual, stringStringEqual, basicEqual_iff, basicEqual_iff]
    exact ((encode_selfSync U).flatMap_inj hcs hds).trans
      ((encode_selfSync T).flatMap_inj hcs hds).symm
  · have byValue {V : Encoding} (other : V ≠ .utf16) : V.rank = UInt32.toNat := by
      cases V with
      | utf16 => exact absurd rfl other
      | utf8 => rfl
      | utf32 => rfl
    rw [stringString, stringString, here, there, byValue notT, byValue notU]

/-- U+1F600 comes before U+FF5E in UTF-16, where its first unit is a surrogate, but not in UTF-8. -/
theorem compare_transcode_emoji :
    stringString (T := Encoding.utf16.Unit) [0xD83D, 0xDE00] [0xFF5E] = .lt ∧
      ∃ a' b', transcode (U := .utf16) .utf8 [0xD83D, 0xDE00] = some a' ∧
        transcode (U := .utf16) .utf8 [0xFF5E] = some b' ∧ stringString a' b' = .gt := by
  obtain ⟨cs, ds, a', b', first, second, here, there, -, order, -, -⟩ :=
    compare_transcode .utf16 .utf8 [0xD83D, 0xDE00] [0xFF5E]
      (wellFormed_encodeAll .utf16 [0x1F600]) (wellFormed_encodeAll .utf16 [0xFF5E])
  refine ⟨by decide, a', b', here, there, order.trans ?_⟩
  obtain rfl : cs = [0x1F600] := Option.some_inj.mp (first.symm.trans (by decide))
  obtain rfl : ds = [0xFF5E] := Option.some_inj.mp (second.symm.trans (by decide))
  decide

end LibCxxExt.Text
