import LibCxxExt.Text.CaseTables
import LibCxxExt.Text.SelfSynchronising

/-! Lowercasing and uppercasing are idempotent in every language: no layer of the tables maps a
codepoint that some layer writes. Uppercasing and folding look at no neighbours, so that they work
on the parts of a text one after the other. -/

namespace LibCxxExt.Text

open LibCxxExt.ProofKit

def casedTables (isUpper : Bool) : CaseTables := if isUpper then upperTables else lowerTables

theorem casedTables_stable (isUpper : Bool) : (casedTables isUpper).Stable := by
  cases isUpper
  · exact lowerTables_stable
  · exact upperTables_stable

theorem casedAround_eq (isUpper : Bool) (lang : List UInt8) (before : List UInt32) (c : UInt32)
    (behind : List UInt32) : casedAround isUpper lang before c behind =
      (casedTables isUpper).mapping c lang (forwardContext before) (lookaheadContext behind) := by
  cases isUpper <;> rfl

/-! ### Texts -/

/-- A scalar value is mapped to scalar values. -/
theorem CaseTables.mapping_scalar {t : CaseTables} {c d : UInt32} {lang : List UInt8}
    {fctx : ForwardCasingContext} {lctx : LookaheadCasingContext} (stable : t.Stable)
    (scalar : IsScalarValue c) (written : d ∈ t.mapping c lang fctx lctx) : IsScalarValue d := by
  rcases mem_mapping written with ⟨rfl, -⟩ | image
  · exact scalar
  · exact isScalar_iff.mp (List.all_eq_true.mp stable.scalar d image)

/-- Every mapping writes scalar values for scalar values. -/
theorem CaseMapping.mapped_scalar (map : CaseMapping) (lang : List UInt8) {cs : List UInt32}
    (hcs : ∀ c ∈ cs, IsScalarValue c) : ∀ d ∈ map.mapped lang cs, IsScalarValue d := by
  have cased (isUpper : Bool) :
      ∀ d ∈ flatMapAround (casedAround isUpper lang) [] cs, IsScalarValue d := by
    intro d written
    obtain ⟨before, c, behind, rfl, mapped⟩ := mem_flatMapAround written
    rw [casedAround_eq] at mapped
    exact CaseTables.mapping_scalar (casedTables_stable isUpper) (hcs c (by simp)) mapped
  cases map with
  | lowered => exact cased false
  | uppered => exact cased true
  | folded =>
    intro d written
    obtain ⟨c, member, mapped⟩ := List.mem_flatMap.mp written
    exact CaseTables.mapping_scalar foldTables_stable (hcs c member) mapped

/-- A codepoint that was written is left as it is, whatever surrounds it then. -/
theorem casedAround_written (isUpper : Bool) {lang : List UInt8} {cs : List UInt32} {d : UInt32}
    (written : d ∈ flatMapAround (casedAround isUpper lang) [] cs) (before behind : List UInt32) :
    casedAround isUpper lang before d behind = [d] := by
  obtain ⟨past, c, future, -, mapped⟩ := mem_flatMapAround written
  rw [casedAround_eq] at mapped ⊢
  rcases CaseTables.mem_mapping mapped with ⟨rfl, unmapped⟩ | image
  · exact CaseTables.mapping_of_unmapped (casedTables_stable isUpper) unmapped
  · exact CaseTables.mapping_of_image (casedTables_stable isUpper) image

theorem asCased_asCased (isUpper : Bool) (T : Encoding) (s : List T.Unit) (lang : List UInt8) :
    ∃ t, asCased isUpper s lang = some t ∧ asCased isUpper t lang = some t := by
  have scalar := CaseMapping.mapped_scalar (if isUpper then .uppered else .lowered) lang
    (decoded_scalar s)
  have written : ∀ d ∈ flatMapAround (casedAround isUpper lang) [] (decoded s),
      IsScalarValue d := by
    cases isUpper <;> exact scalar
  refine ⟨_, asCased_eq isUpper s lang, ?_⟩
  rw [asCased_eq, decoded_of_scalars T written,
    flatMapAround_of_fixed fun d member before behind => casedAround_written isUpper member _ _]

/-- What was lowercased is left as it is when it is lowercased again in the same language, and
likewise for uppercase. -/
theorem cased_idempotent (T : Encoding) (s : List T.Unit) (lang : List UInt8) :
    (∃ t, lowered s lang = some t ∧ lowered t lang = some t) ∧
      ∃ t, uppered s lang = some t ∧ uppered t lang = some t :=
  ⟨asCased_asCased false T s lang, asCased_asCased true T s lang⟩

/-! ### Parts of texts -/

theorem decoded_append (T : Encoding) {cs : List UInt32} (hcs : ∀ c ∈ cs, IsScalarValue c)
    (t : List T.Unit) : decoded (encodeAll T.Unit cs ++ t) = cs ++ decoded t := by
  have fixed : cs.map replaceInvalid = cs :=
    (List.map_congr_left fun c mem => replaceInvalid_of_scalar (hcs c mem)).trans (List.map_id _)
  rw [decoded, encodeAll, decoder_reads.decode_append, List.map_append, List.map_map]
  exact congrArg (· ++ decoded t) fixed

theorem encodeAll_append (T : Encoding) (cs ds : List UInt32) :
    encodeAll T.Unit (cs ++ ds) = encodeAll T.Unit cs ++ encodeAll T.Unit ds :=
  List.flatMap_append

/-- The tables of a mapping. -/
def CaseMapping.tables : CaseMapping → CaseTables
  | lowered => lowerTables
  | uppered => upperTables
  | folded => foldTables

theorem flatMapAround_insensitive (isUpper : Bool) {lang : List UInt8} {before cs : List UInt32}
    (insensitive : ∀ c ∈ cs, ¬ (casedTables isUpper).Sensitive lang c) :
    flatMapAround (casedAround isUpper lang) before cs =
      cs.flatMap fun c => (casedTables isUpper).mapping c lang {} {} := by
  induction cs generalizing before with
  | nil => rfl
  | cons c behind ih =>
    obtain ⟨here, rest⟩ := List.forall_mem_cons.mp insensitive
    rw [flatMapAround, casedAround_eq, CaseTables.mapping_of_insensitive here, ih rest,
      List.flatMap_cons]

/-- Codepoints that no neighbour matters to are mapped one by one. -/
theorem CaseMapping.mapped_insensitive (map : CaseMapping) {lang : List UInt8}
    {cs : List UInt32} (insensitive : ∀ c ∈ cs, ¬ map.tables.Sensitive lang c) :
    map.mapped lang cs = cs.flatMap fun c => map.tables.mapping c lang {} {} := by
  cases map with
  | lowered => exact flatMapAround_insensitive false insensitive
  | uppered => exact flatMapAround_insensitive true insensitive
  | folded => rfl

theorem CaseTables.insensitive_of_unconditional {t : CaseTables}
    (unconditional : t.rules.all (·.condition.isNone) = true) (lang : List UInt8) (c : UInt32) :
    ¬ t.Sensitive lang c := by
  rintro ⟨rule, member, -, -, conditional⟩
  exact conditional (Option.isNone_iff_eq_none.mp (List.all_eq_true.mp unconditional rule member))

/-- Where no neighbour matters, mapping the parts of a text and putting them together is mapping the
text, if the first part does not end within a codepoint. For uppercasing and folding no neighbour
ever matters. -/
theorem cased_append (T : Encoding) (s t : List T.Unit) (lang : List UInt8)
    (wellFormed : T.WellFormed s) :
    (∀ map : CaseMapping, (∀ c ∈ decoded s ++ decoded t, ¬ map.tables.Sensitive lang c) →
      ∃ x y, map.apply s lang = some x ∧ map.apply t lang = some y ∧
        map.apply (s ++ t) lang = some (x ++ y)) ∧
    ∀ map : CaseMapping, map ≠ .lowered → ∀ c, ¬ map.tables.Sensitive lang c := by
  refine ⟨fun map insensitive => ?_, fun map other c => ?_⟩
  · obtain ⟨cs, hcs, rfl⟩ := exists_scalars T wellFormed
    rw [decoded_of_scalars T hcs] at insensitive
    have front := fun c mem => insensitive c (List.mem_append_left _ mem)
    have back := fun c mem => insensitive c (List.mem_append_right _ mem)
    refine ⟨_, _, map.apply_eq _ lang, map.apply_eq _ lang, ?_⟩
    rw [map.apply_eq, decoded_append T hcs, decoded_of_scalars T hcs,
      map.mapped_insensitive insensitive, map.mapped_insensitive front,
      map.mapped_insensitive back, List.flatMap_append, encodeAll_append]
  · cases map with
    | lowered => exact absurd rfl other
    | uppered => exact CaseTables.insensitive_of_unconditional (by decide) lang c
    | folded => exact CaseTables.insensitive_of_unconditional (by decide) lang c

/-- The text `éß` is uppercased in two parts. -/
theorem cased_append_two : ∃ x y,
    CaseMapping.uppered.apply ([0xC3, 0xA9] : List UInt8) [] = some x ∧
    CaseMapping.uppered.apply ([0xC3, 0x9F] : List UInt8) [] = some y ∧
    CaseMapping.uppered.apply ([0xC3, 0xA9, 0xC3, 0x9F] : List UInt8) [] = some (x ++ y) := by
  obtain ⟨parts, never⟩ := cased_append .utf8 [0xC3, 0xA9] [0xC3, 0x9F] []
    (wellFormed_encodeAll .utf8 [0xE9])
  exact parts .uppered fun c _ => never .uppered (by decide) c

end LibCxxExt.Text
