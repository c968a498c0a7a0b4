import LibCxxExt.Text.Casing

/-! Case mapping and transcoding. Both sides of the square decode to the same codepoints, so that
they meet in the encoding of one list of codepoints, and whatever is written is well-formed. -/

namespace LibCxxExt.Text

open LibCxxExt.ProofKit

/-! ### Well-formed texts -/

/-- The code units of one scalar value. -/
def Encoding.IsSymbol : (T : Encoding) → List T.Unit → Prop
  | .utf8, bytes => ∃ c, Utf8.WellFormed bytes c
  | .utf16, units =>
    (∃ a : UInt16, units = [a] ∧ (a.toNat < 0xD800 ∨ 0xDFFF < a.toNat)) ∨
      ∃ a b : UInt16, units = [a, b] ∧ (0xD800 ≤ a.toNat ∧ a.toNat ≤ 0xDBFF) ∧
        (0xDC00 ≤ b.toNat ∧ b.toNat ≤ 0xDFFF)
  | .utf32, units => ∃ a : UInt32, units = [a] ∧ Utf8.Scalar a.toNat

/-- The text is a sequence of encoded scalar values. -/
def Encoding.WellFormed (T : Encoding) (s : List T.Unit) : Prop :=
  ∃ symbols : List (List T.Unit), s = symbols.flatten ∧ ∀ x ∈ symbols, T.IsSymbol x

theorem isSymbol_encode16 {c : Nat} (scalar : Utf8.Scalar c) :
    Encoding.utf16.IsSymbol (encode16 c) := by
  unfold Utf8.Scalar at scalar
  unfold encode16
  split_ifs with bmp
  · refine .inl ⟨_, rfl, ?_⟩
    rw [UInt16.toNat_ofNat_of_lt' (by rw [UInt16.size]; omega)]
    omega
  · refine .inr ⟨_, _, rfl, ?_, ?_⟩
    · rw [UInt16.toNat_ofNat_of_lt' (by rw [UInt16.size]; omega)]
      omega
    · rw [UInt16.toNat_ofNat_of_lt' (by rw [UInt16.size]; omega)]
      omega

theorem isSymbol_encode (T : Encoding) (c : UInt32) :
    T.IsSymbol (LawfulCharacter.encode (T := T.Unit) c) := by
  have scalar := replaceInvalid_scalar c
  cases T with
  | utf8 => exact ⟨_, wellFormed_encode8 scalar⟩
  | utf16 => exact isSymbol_encode16 scalar
  | utf32 => exact ⟨_, rfl, by simpa using scalar⟩

theorem wellFormed_encodeAll (T : Encoding) (cs : List UInt32) :
    T.WellFormed (encodeAll T.Unit cs) := by
  refine ⟨cs.map LawfulCharacter.encode, List.flatMap_def, ?_⟩
  rintro _ mem
  obtain ⟨c, -, rfl⟩ := List.mem_map.mp mem
  exact isSymbol_encode T c

/-! ### Transcoding -/

theorem encode_replaceInvalid (T : Encoding) (c : UInt32) :
    LawfulCharacter.encode (T := T.Unit) (replaceInvalid c) = LawfulCharacter.encode c := by
  have again : replaceInvalid (replaceInvalid c) = replaceInvalid c :=
    replaceInvalid_of_scalar (replaceInvalid_scalar c)
  cases T with
  | utf8 => exact congrArg (fun c : UInt32 => encode8 c.toNat) again
  | utf16 => exact congrArg (fun c : UInt32 => encode16 c.toNat) again
  | utf32 => exact congrArg (fun c : UInt32 => encode32 c.toNat) again

theorem transcode_eq {T : Encoding} (U : Encoding) (s : List T.Unit) :
    transcode U s = some (encodeAll U.Unit (decoded s)) := appendCodepoints_eq s

theorem decoded_encodeAll {T : Type} [IUnicodeCharacter T] [LawfulCharacter T]
    (cs : List UInt32) : decoded (encodeAll T cs) = cs.map replaceInvalid :=
  decoded_flatMap_encode cs

theorem encodeAll_map_replaceInvalid (T : Encoding) (cs : List UInt32) :
    encodeAll T.Unit (cs.map replaceInvalid) = encodeAll T.Unit cs := by
  simp [encodeAll, List.flatMap_map, encode_replaceInvalid]

theorem transcode_encodeAll (T U : Encoding) (cs : List UInt32) :
    transcode U (encodeAll T.Unit cs) = some (encodeAll U.Unit cs) := by
  rw [transcode_eq, decoded_encodeAll, encodeAll_map_replaceInvalid]

/-! ### Case mapping -/

inductive CaseMapping
  | lowered
  | uppered
  | folded
  deriving DecidableEq

def CaseMapping.apply {T : Type} [IUnicodeCharacter T] [Inhabited T] :
    CaseMapping → List T → List UInt8 → Option (List T)
  | lowered => Text.lowered
  | uppered => Text.uppered
  | folded => Text.folded

/-- What the mapping makes of a list of codepoints. -/
def CaseMapping.mapped (lang : List UInt8) : CaseMapping → List UInt32 → List UInt32
  | lowered, cs => flatMapAround (casedAround false lang) [] cs
  | uppered, cs => flatMapAround (casedAround true lang) [] cs
  | folded, cs => cs.flatMap (foldMapping · lang)

theorem CaseMapping.apply_eq {T : Encoding} (map : CaseMapping) (s : List T.Unit)
    (lang : List UInt8) :
    map.apply s lang = some (encodeAll T.Unit (map.mapped lang (decoded s))) := by
  cases map with
  | lowered => exact asCased_eq false s lang
  | uppered => exact asCased_eq true s lang
  | folded => exact folded_eq s lang

/-- Case mapping commutes with transcoding and writes well-formed texts. The constructor asks for
distinct character types; the argument does not. -/
theorem cased_transcode (map : CaseMapping) (T U : Encoding) (s : List T.Unit)
    (lang : List UInt8) :
    ∃ (here : List T.Unit) (there mapped : List U.Unit),
      map.apply s lang = some here ∧ transcode U here = some mapped ∧
      transcode U s = some there ∧ map.apply there lang = some mapped ∧
      T.WellFormed here ∧ U.WellFormed mapped := by
  have same : decoded (encodeAll U.Unit (decoded s)) = decoded s := decoded_encode_decoded s
  refine ⟨_, _, _, map.apply_eq s lang, transcode_encodeAll T U _, transcode_eq U s, ?_,
    wellFormed_encodeAll T _, wellFormed_encodeAll U _⟩
  rw [map.apply_eq, same]

end LibCxxExt.Text
