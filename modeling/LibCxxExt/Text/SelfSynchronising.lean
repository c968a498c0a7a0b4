import LibCxxExt.ProofKit.SelfSync
import LibCxxExt.Text.InvalidsReplaced
import LibCxxExt.Text.Search

/-! The three encodings are self-synchronising, so that searching and splitting units of well-formed
texts is searching and splitting their codepoints, in whatever encoding. -/

namespace LibCxxExt.Text

open LibCxxExt.ProofKit

/-! ### The codes -/

/-- The units that start a codepoint. -/
def Encoding.Lead : (T : Encoding) → T.Unit → Prop
  | .utf8, b => ¬ Utf8.Tail b
  | .utf16, u => ¬ LowSurrogate u
  | .utf32, _ => True

/-- The value is a scalar value, which every encoding has a word for. -/
abbrev IsScalarValue (c : UInt32) : Prop := Utf8.Scalar c.toNat

theorem tail_ofNat {n : Nat} (low : 0x80 ≤ n) (high : n ≤ 0xBF) : Utf8.Tail (.ofNat n) := by
  unfold Utf8.Tail
  rw [UInt8.toNat_ofNat_of_lt' (by rw [UInt8.size]; omega)]
  exact ⟨low, high⟩

theorem not_tail_ofNat {n : Nat} (byte : n < 0x100) (outside : n < 0x80 ∨ 0xBF < n) :
    ¬ Utf8.Tail (.ofNat n) := by
  unfold Utf8.Tail
  rw [UInt8.toNat_ofNat_of_lt' (by rw [UInt8.size]; omega)]
  omega

theorem shape_encode8 {c : Nat} (scalar : Utf8.Scalar c) :
    ∃ a trail, encode8 c = a :: trail ∧ ¬ Utf8.Tail a ∧ ∀ b ∈ trail, Utf8.Tail b := by
  unfold Utf8.Scalar at scalar
  unfold encode8
  split_ifs
  · exact ⟨_, _, rfl, not_tail_ofNat (by omega) (by omega), by simp⟩
  all_goals
    refine ⟨_, _, rfl, not_tail_ofNat (by omega) (by omega), ?_⟩
    simp only [List.forall_mem_cons, List.not_mem_nil, false_implies, implies_true, and_true]
  · exact tail_ofNat (by omega) (by omega)
  · exact ⟨tail_ofNat (by omega) (by omega), tail_ofNat (by omega) (by omega)⟩
  · exact ⟨tail_ofNat (by omega) (by omega), tail_ofNat (by omega) (by omega),
      tail_ofNat (by omega) (by omega)⟩

theorem shape_encode16 {c : Nat} (scalar : Utf8.Scalar c) :
    ∃ a trail, encode16 c = a :: trail ∧ ¬ LowSurrogate a ∧ ∀ b ∈ trail, LowSurrogate b := by
  unfold Utf8.Scalar at scalar
  unfold encode16
  split_ifs
  · refine ⟨_, _, rfl, ?_, by simp⟩
    unfold LowSurrogate
    rw [UInt16.toNat_ofNat_of_lt' (by rw [UInt16.size]; omega)]
    omega
  · refine ⟨_, _, rfl, ?_, ?_⟩
    · unfold LowSurrogate
      rw [UInt16.toNat_ofNat_of_lt' (by rw [UInt16.size]; omega)]
      omega
    · simp only [List.forall_mem_cons, List.not_mem_nil, false_implies, implies_true, and_true]
      unfold LowSurrogate
      rw [UInt16.toNat_ofNat_of_lt' (by rw [UInt16.size]; omega)]
      omega

/-- A scalar value is read off the front of a text that its word starts. -/
theorem eq_of_encode_prefix (T : Encoding) {c d : UInt32} (hc : IsScalarValue c)
    (hd : IsScalarValue d) (found : LawfulCharacter.encode (T := T.Unit) c <+:
      LawfulCharacter.encode (T := T.Unit) d) : c = d := by
  obtain ⟨more, word⟩ := found
  have left := (decoder_reads (T := T.Unit)).symbol c more
  have right := (decoder_reads (T := T.Unit)).symbol d []
  rw [word, replaceInvalid_of_scalar hc] at left
  rw [List.append_nil, replaceInvalid_of_scalar hd] at right
  exact left.symm.trans right

theorem encode_selfSync (T : Encoding) :
    SelfSync IsScalarValue (LawfulCharacter.encode (T := T.Unit)) T.Lead where
  shape c hc := by
    have same := replaceInvalid_of_scalar hc
    cases T with
    | utf8 =>
      obtain ⟨a, trail, word, lead, tails⟩ := shape_encode8 hc
      exact ⟨a, trail, (congrArg (fun c : UInt32 => encode8 c.toNat) same).trans word, lead,
        fun b mem isLead => isLead (tails b mem)⟩
    | utf16 =>
      obtain ⟨a, trail, word, lead, tails⟩ := shape_encode16 hc
      exact ⟨a, trail, (congrArg (fun c : UInt32 => encode16 c.toNat) same).trans word, lead,
        fun b mem isLead => isLead (tails b mem)⟩
    | utf32 => exact ⟨_, [], rfl, trivial, by simp⟩
  prefixFree _ _ hc hd found := eq_of_encode_prefix T hc hd found

/-! ### Texts of scalar values -/

/-- A well-formed text is the encoding of its codepoints. -/
theorem exists_scalars (T : Encoding) {s : List T.Unit} (wf : T.WellFormed s) :
    ∃ cs, (∀ c ∈ cs, IsScalarValue c) ∧ encodeAll T.Unit cs = s := by
  obtain ⟨cs, rfl⟩ := exists_encodeAll T wf
  refine ⟨cs.map replaceInvalid, fun c mem => ?_, encodeAll_map_replaceInvalid T cs⟩
  obtain ⟨d, -, rfl⟩ := List.mem_map.mp mem
  exact replaceInvalid_scalar d

theorem decoded_of_scalars (T : Encoding) {cs : List UInt32} (hcs : ∀ c ∈ cs, IsScalarValue c) :
    decoded (encodeAll T.Unit cs) = cs := by
  rw [decoded_encodeAll]
  exact (List.map_congr_left fun c mem => replaceInvalid_of_scalar (hcs c mem)).trans
    (List.map_id _)

instance (T : Encoding) : DecidableEq T.Unit := by
  cases T <;> infer_instance

/-! ### Splitting -/

theorem split_encodeAll (T : Encoding) {cs p : List UInt32} (nonempty : p ≠ [])
    (hcs : ∀ c ∈ cs, IsScalarValue c) (hp : ∀ c ∈ p, IsScalarValue c) :
    split (encodeAll T.Unit cs) (encodeAll T.Unit p) =
      (split cs p).map (·.map (encodeAll T.Unit)) := by
  have code := encode_selfSync T
  obtain ⟨c, p, rfl⟩ := List.exists_cons_of_ne_nil nonempty
  obtain ⟨a, d, pattern, -⟩ := code.exists_lead (List.cons_ne_nil c p) hp
  have parts := code.pieces_flatMap pattern hp [] hcs
  rw [encodeAll, encodeAll, pattern, split_eq, split_eq, Option.map_some]
  exact congrArg some parts

/-- Splitting a well-formed text at a well-formed delimiter gives well-formed pieces, and commutes
with transcoding. The delimiter is compared unit by unit, but is never found within a codepoint. -/
theorem split_transcode (T U : Encoding) (s d : List T.Unit) (text : T.WellFormed s)
    (delimiter : T.WellFormed d) (nonempty : d ≠ []) :
    ∃ parts, split s d = some parts ∧ (∀ part ∈ parts, T.WellFormed part) ∧
      ∃ s' d' parts', transcode U s = some s' ∧ transcode U d = some d' ∧
        split s' d' = some parts' ∧ parts.mapM (transcode U) = some parts' := by
  obtain ⟨cs, hcs, rfl⟩ := exists_scalars T text
  obtain ⟨p, hp, rfl⟩ := exists_scalars T delimiter
  have some_ : p ≠ [] := by
    rintro rfl
    exact nonempty rfl
  obtain ⟨c, q, rfl⟩ := List.exists_cons_of_ne_nil some_
  refine ⟨_, (split_encodeAll T some_ hcs hp).trans (by rw [split_eq]; rfl), ?_, _, _, _,
    transcode_encodeAll T U cs, transcode_encodeAll T U _,
    (split_encodeAll U some_ hcs hp).trans (by rw [split_eq]; rfl), ?_⟩
  · intro part mem
    obtain ⟨piece, -, rfl⟩ := List.mem_map.mp mem
    exact wellFormed_encodeAll T piece
  · have each : transcode U ∘ encodeAll T.Unit = fun piece => some (encodeAll U.Unit piece) :=
      funext fun piece => transcode_encodeAll T U piece
    rw [List.mapM_map, each]
    exact List.mapM_pure

/-- The text `aé,b` has the pieces `aé` and `b`. -/
theorem split_transcode_comma :
    ∃ parts, split ([0x61, 0xC3, 0xA9, 0x2C, 0x62] : List UInt8) [0x2C] = some parts ∧
      (∀ part ∈ parts, Encoding.utf8.WellFormed part) ∧
      ∃ s' d' parts', transcode (U := .utf8) .utf16 [0x61, 0xC3, 0xA9, 0x2C, 0x62] = some s' ∧
        transcode (U := .utf8) .utf16 [0x2C] = some d' ∧ split s' d' = some parts' ∧
        parts.mapM (transcode (U := .utf8) .utf16) = some parts' :=
  split_transcode .utf8 .utf16 [0x61, 0xC3, 0xA9, 0x2C, 0x62] [0x2C]
    (wellFormed_encodeAll .utf8 [0x61, 0xE9, 0x2C, 0x62]) (wellFormed_encodeAll .utf8 [0x2C])
    (List.cons_ne_nil _ _)

/-! ### Searching -/

/-- The units of the first `k` codepoints. -/
def unitsBefore (T : Encoding) (cs : List UInt32) (k : Nat) : Nat :=
  (encodeAll T.Unit (cs.take k)).length

theorem unitsBefore_lt_iff (T : Encoding) {cs : List UInt32} (hcs : ∀ c ∈ cs, IsScalarValue c)
    {j k : Nat} (leJ : j ≤ cs.length) (leK : k ≤ cs.length) :
    unitsBefore T cs j < unitsBefore T cs k ↔ j < k := by
  have code := encode_selfSync T
  refine ⟨fun less => ?_, fun less => code.length_take_lt hcs less leK⟩
  by_contra above
  rcases Nat.eq_or_lt_of_le (Nat.le_of_not_lt above) with same | more
  · exact absurd less (same ▸ Nat.lt_irrefl _)
  · exact Nat.lt_asymm less (code.length_take_lt hcs more leJ)

theorem unitsBefore_length (T : Encoding) (cs : List UInt32) :
    unitsBefore T cs cs.length = (encodeAll T.Unit cs).length := by
  rw [unitsBefore, List.take_length]

/-- An occurrence of a text that is not empty stands where a codepoint does. -/
theorem occursAt_encodeAll_iff (T : Encoding) {cs p : List UInt32} (nonempty : p ≠ [])
    (hcs : ∀ c ∈ cs, IsScalarValue c) (hp : ∀ c ∈ p, IsScalarValue c) {i : Nat} :
    OccursAt (encodeAll T.Unit p) (encodeAll T.Unit cs) i ↔
      ∃ k, i = unitsBefore T cs k ∧ OccursAt p cs k := by
  refine ((encode_selfSync T).occursAt_iff nonempty hp hcs).trans ⟨?_, ?_⟩
  · rintro ⟨front, back, rfl, rfl, found⟩
    refine ⟨front.length, ?_, occursAt_append.mpr found⟩
    rw [unitsBefore, List.take_left]
    rfl
  · rintro ⟨k, rfl, le, found⟩
    exact ⟨cs.take k, cs.drop k, (List.take_append_drop k cs).symm, rfl, found⟩

theorem find_encodeAll (T : Encoding) {cs p : List UInt32} (hcs : ∀ c ∈ cs, IsScalarValue c)
    (hp : ∀ c ∈ p, IsScalarValue c) {k : Nat} (le : k ≤ cs.length) :
    find (encodeAll T.Unit cs) (encodeAll T.Unit p) (unitsBefore T cs k) =
      (find cs p k).map (unitsBefore T cs) := by
  have code := encode_selfSync T
  have place {j : Nat} (le : j ≤ cs.length) :
      OccursAt (encodeAll T.Unit p) (encodeAll T.Unit cs) (unitsBefore T cs j) ↔
        OccursAt p cs j := code.occursAt_take_iff hp hcs le
  rcases found : find cs p k with _ | j
  · have absent := find_eq_none_iff.mp found
    refine find_eq_none_iff.mpr fun i low occurs => ?_
    by_cases empty : p = []
    · exact absent k (Nat.le_refl k) ⟨le, by simp [empty]⟩
    · obtain ⟨j, rfl, here⟩ := (occursAt_encodeAll_iff T empty hcs hp).mp occurs
      refine absent j (Nat.le_of_not_lt fun less => ?_) here
      exact absurd low (Nat.not_le_of_lt ((unitsBefore_lt_iff T hcs here.1 le).mpr less))
  · obtain ⟨low, here, leftmost⟩ := find_eq_some_iff.mp found
    refine find_eq_some_iff.mpr ⟨?_, (place here.1).mpr here, fun i lowI less occurs => ?_⟩
    · refine Nat.le_of_not_lt fun less => ?_
      exact absurd low (Nat.not_le_of_lt ((unitsBefore_lt_iff T hcs here.1 le).mp less))
    · by_cases empty : p = []
      · have atK : OccursAt p cs k := ⟨le, by simp [empty]⟩
        obtain rfl : k = j := by
          by_contra other
          exact leftmost k (Nat.le_refl k) (Nat.lt_of_le_of_ne low other) atK
        omega
      · obtain ⟨m, rfl, hereM⟩ := (occursAt_encodeAll_iff T empty hcs hp).mp occurs
        refine leftmost m (Nat.le_of_not_lt fun lessM => ?_)
          ((unitsBefore_lt_iff T hcs hereM.1 here.1).mp less) hereM
        exact absurd lowI (Nat.not_le_of_lt ((unitsBefore_lt_iff T hcs hereM.1 le).mpr lessM))

/-- `find_index` finds the place of a codepoint, the same one in every encoding. -/
theorem findIndex_encodeAll (T : Encoding) {cs p : List UInt32} (hcs : ∀ c ∈ cs, IsScalarValue c)
    (hp : ∀ c ∈ p, IsScalarValue c) {k : Nat} (le : k ≤ cs.length) :
    findIndex (encodeAll T.Unit cs) (encodeAll T.Unit p) (unitsBefore T cs k) =
      unitsBefore T cs (findIndex cs p k) := by
  have reached : unitsBefore T cs k ≥ (encodeAll T.Unit cs).length ↔ k ≥ cs.length := by
    have order := unitsBefore_lt_iff T hcs le (Nat.le_refl cs.length)
    rw [unitsBefore_length] at order
    omega
  unfold findIndex
  rw [find_encodeAll T hcs hp le]
  split_ifs with behind here here
  · exact (unitsBefore_length T cs).symm
  · exact absurd (reached.mp behind) here
  · exact absurd (reached.mpr here) behind
  · cases find cs p k with
    | none => exact (unitsBefore_length T cs).symm
    | some j => rfl

theorem contains_encodeAll (T : Encoding) {cs p : List UInt32} (hcs : ∀ c ∈ cs, IsScalarValue c)
    (hp : ∀ c ∈ p, IsScalarValue c) :
    contains (encodeAll T.Unit cs) (encodeAll T.Unit p) = contains cs p := by
  have found := find_encodeAll T hcs hp (Nat.zero_le cs.length)
  have start : unitsBefore T cs 0 = 0 := rfl
  rw [start] at found
  rw [contains, contains, found, Option.isSome_map]

theorem startsWith_encodeAll (T : Encoding) {cs p : List UInt32}
    (hcs : ∀ c ∈ cs, IsScalarValue c) (hp : ∀ c ∈ p, IsScalarValue c) :
    startsWith (encodeAll T.Unit cs) (encodeAll T.Unit p) = startsWith cs p := by
  rw [Bool.eq_iff_iff, startsWith_iff, startsWith_iff]
  exact (encode_selfSync T).prefix_iff hp hcs

theorem endsWith_encodeAll (T : Encoding) {cs p : List UInt32} (hcs : ∀ c ∈ cs, IsScalarValue c)
    (hp : ∀ c ∈ p, IsScalarValue c) :
    endsWith (encodeAll T.Unit cs) (encodeAll T.Unit p) = endsWith cs p := by
  rw [Bool.eq_iff_iff, endsWith_iff, endsWith_iff]
  exact (encode_selfSync T).suffix_iff hp hcs

/-- Searching a well-formed text for a well-formed one gives the same answers in every encoding.
From the end of a well-formed prefix on, `find_index` gives the length of a well-formed prefix, and
behind the transcoded prefix the length of the transcoded one. -/
theorem search_transcode (T U : Encoding) (s d : List T.Unit) (text : T.WellFormed s)
    (pattern : T.WellFormed d) :
    ∃ s' d', transcode U s = some s' ∧ transcode U d = some d' ∧
      contains s' d' = contains s d ∧ startsWith s' d' = startsWith s d ∧
      endsWith s' d' = endsWith s d ∧
      ∀ front, T.WellFormed front → front <+: s → ∃ front', transcode U front = some front' ∧
        ∃ before before', T.WellFormed before ∧ before <+: s ∧
          transcode U before = some before' ∧
          findIndex s d front.length = before.length ∧
          findIndex s' d' front'.length = before'.length := by
  obtain ⟨cs, hcs, rfl⟩ := exists_scalars T text
  obtain ⟨p, hp, rfl⟩ := exists_scalars T pattern
  refine ⟨_, _, transcode_encodeAll T U cs, transcode_encodeAll T U p, ?_, ?_, ?_,
    fun front wf isPrefix => ?_⟩
  · rw [contains_encodeAll U hcs hp, contains_encodeAll T hcs hp]
  · rw [startsWith_encodeAll U hcs hp, startsWith_encodeAll T hcs hp]
  · rw [endsWith_encodeAll U hcs hp, endsWith_encodeAll T hcs hp]
  · obtain ⟨fs, hfs, rfl⟩ := exists_scalars T wf
    obtain ⟨behind, rfl⟩ := ((encode_selfSync T).prefix_iff hfs hcs).mp isPrefix
    have le : fs.length ≤ (fs ++ behind).length := by simp
    have here (V : Encoding) :
        findIndex (encodeAll V.Unit (fs ++ behind)) (encodeAll V.Unit p)
          (encodeAll V.Unit fs).length =
        unitsBefore V (fs ++ behind) (findIndex (fs ++ behind) p fs.length) := by
      have found := findIndex_encodeAll V hcs hp le
      rwa [unitsBefore, List.take_left] at found
    refine ⟨_, transcode_encodeAll T U fs, _, _, wellFormed_encodeAll T _, ?_,
      transcode_encodeAll T U _, here T, here U⟩
    refine ((encode_selfSync T).prefix_iff (fun c mem => hcs c ?_) hcs).mpr
      (List.take_prefix _ _)
    exact List.mem_of_mem_take mem

/-- The text `aé,b` contains the comma in UTF-16 too. -/
theorem search_transcode_comma :
    ∃ s' d', transcode (U := .utf8) .utf16 [0x61, 0xC3, 0xA9, 0x2C, 0x62] = some s' ∧
      transcode (U := .utf8) .utf16 [0x2C] = some d' ∧ contains s' d' = true := by
  obtain ⟨s', d', text, pattern, found, -⟩ :=
    search_transcode .utf8 .utf16 [0x61, 0xC3, 0xA9, 0x2C, 0x62] [0x2C]
      (wellFormed_encodeAll .utf8 [0x61, 0xE9, 0x2C, 0x62]) (wellFormed_encodeAll .utf8 [0x2C])
  exact ⟨s', d', text, pattern, found.trans (by decide)⟩

end LibCxxExt.Text
