import LibCxxExt.ProofKit.BitSets
import LibCxxExt.Text.Char
import LibCxxExt.Text.UnicodeCasing
import Mathlib.Data.List.Find

/-! What the layers of a case mapping map and what they write. In all three mappings no layer maps
what some layer writes, so that a codepoint that was written is left as it is from then on. -/

namespace LibCxxExt.Text

open LibCxxExt.ProofKit

/-! ### Runs -/

def CaseRun.points (run : CaseRun) : List Nat :=
  (List.range ((run.last - run.first) / run.stride + 1)).map (run.first + run.stride * ·)

def CaseRun.image (run : CaseRun) (n : Nat) : UInt32 := .ofNat (run.mapped + (n - run.first))

theorem CaseRun.mem_points {run : CaseRun} {n : Nat} (covered : run.covers n = true) :
    n ∈ run.points := by
  simp only [covers, Bool.and_eq_true, decide_eq_true_eq, beq_iff_eq] at covered
  obtain ⟨⟨low, high⟩, step⟩ := covered
  refine List.mem_map.mpr ⟨(n - run.first) / run.stride, ?_, ?_⟩
  · exact List.mem_range.mpr (Nat.lt_succ_of_le (Nat.div_le_div_right (by omega)))
  · rw [Nat.mul_div_cancel' (Nat.dvd_of_mod_eq_zero step)]
    omega

/-! ### The layers of a mapping -/

/-- The rules, the special cases and the simple mappings that a special mapping function tries in
turn. -/
structure CaseTables where
  rules : List Rule
  cases : List (UInt32 × List UInt32)
  runs : List CaseRun

namespace CaseTables

variable (t : CaseTables)

def mapping (c : UInt32) (lang : List UInt8) (fctx : ForwardCasingContext)
    (lctx : LookaheadCasingContext) : List UInt32 :=
  specialMapping t.rules (t.cases.lookup ·) (mapRuns t.runs) c lang fctx lctx

def keys : List Nat := t.cases.map (·.1.toNat)

/-- Every codepoint that some layer maps. -/
def sources : List Nat := t.rules.map (·.cp.toNat) ++ t.keys ++ t.runs.flatMap CaseRun.points

/-- What a run writes for the codepoints that no special case takes. -/
def runImages (run : CaseRun) : List UInt32 :=
  (run.points.filter fun n => !(bitSet t.keys).testBit n).map run.image

/-- Every codepoint that some layer writes in place of another, and the replacement character. -/
def images : List UInt32 :=
  0xFFFD :: (t.rules.map (·.mapping) ++ t.cases.map Prod.snd).flatten ++ t.runs.flatMap t.runImages

/-- Neither a special case nor a simple mapping takes the codepoint. -/
def Unmapped (c : UInt32) : Prop :=
  t.cases.lookup c = none ∧ t.runs.find? (·.covers c.toNat) = none

instance (c : UInt32) : Decidable (t.Unmapped c) := inferInstanceAs (Decidable (_ ∧ _))

/-- No layer maps what some layer writes, which is scalar values only. A codepoint that a rule maps
is also mapped when its condition fails. -/
structure Stable : Prop where
  apart : bitSet t.sources &&& bitSet (t.images.map (·.toNat)) = 0
  scalar : t.images.all isScalar = true
  ruled : ∀ rule ∈ t.rules, ¬ t.Unmapped rule.cp

variable {t} {c d : UInt32} {lang : List UInt8} {fctx : ForwardCasingContext}
  {lctx : LookaheadCasingContext}

theorem mapping_of_none (noRule : t.rules.find? (·.holds c lang fctx lctx) = none)
    (unmapped : t.Unmapped c) : t.mapping c lang fctx lctx = [c] := by
  simp [mapping, specialMapping, noRule, unmapped.1, mapRuns, unmapped.2]

theorem rule_cp_of_holds {rule : Rule} (holds : rule.holds c lang fctx lctx = true) :
    rule.cp = c := by
  simp only [Guard.holds, Bool.and_eq_true, beq_iff_eq] at holds
  exact holds.1.1.symm

theorem mapping_of_unmapped (stable : t.Stable) (unmapped : t.Unmapped c) :
    t.mapping c lang fctx lctx = [c] := by
  refine mapping_of_none (List.find?_eq_none.mpr fun rule member holds => ?_) unmapped
  exact stable.ruled rule member (rule_cp_of_holds holds ▸ unmapped)

theorem mapping_of_not_source (outside : c.toNat ∉ t.sources) :
    t.mapping c lang fctx lctx = [c] := by
  simp only [sources, List.mem_append, not_or] at outside
  obtain ⟨⟨rules, cases⟩, runs⟩ := outside
  refine mapping_of_none (List.find?_eq_none.mpr fun rule member holds => rules ?_) ⟨?_, ?_⟩
  · exact List.mem_map.mpr ⟨rule, member, by rw [rule_cp_of_holds holds]⟩
  · refine List.lookup_eq_none_iff.mpr fun entry member => bne_iff_ne.mpr fun same => cases ?_
    exact List.mem_map.mpr ⟨entry, member, by rw [same]⟩
  · refine List.find?_eq_none.mpr fun run member covered => runs ?_
    exact List.mem_flatMap.mpr ⟨run, member, CaseRun.mem_points covered⟩

theorem mem_runImages {run : CaseRun} (covered : run.covers c.toNat = true)
    (noCase : t.cases.lookup c = none) : run.image c.toNat ∈ t.runImages run := by
  refine List.mem_map_of_mem (List.mem_filter.mpr ⟨CaseRun.mem_points covered, ?_⟩)
  rw [Bool.not_eq_true', Bool.eq_false_iff, ne_eq, testBit_bitSet]
  intro key
  obtain ⟨entry, member, same⟩ := List.mem_map.mp key
  have differs := List.lookup_eq_none_iff.mp noCase entry member
  rw [bne_iff_ne] at differs
  exact differs (UInt32.toNat_inj.mp same.symm)

/-- A codepoint that nothing maps is left, or images are written for it. -/
theorem mem_mapping (written : d ∈ t.mapping c lang fctx lctx) :
    d = c ∧ t.Unmapped c ∨ d ∈ t.images := by
  simp only [images, List.cons_append, List.mem_cons, List.mem_append, List.mem_flatten,
    List.mem_flatMap]
  unfold mapping specialMapping at written
  cases foundRule : t.rules.find? (·.holds c lang fctx lctx) with
  | some rule =>
    rw [foundRule] at written
    have member := List.mem_map_of_mem (f := (·.mapping)) (List.mem_of_find?_eq_some foundRule)
    exact .inr (.inr (.inl ⟨_, .inl member, written⟩))
  | none =>
    rw [foundRule] at written
    cases foundCase : t.cases.lookup c with
    | some mapping =>
      obtain ⟨before, behind, split, -⟩ := List.lookup_eq_some_iff.mp foundCase
      have member : mapping ∈ t.cases.map Prod.snd := by simp [split]
      simp only [foundCase, Option.getD_some] at written
      exact .inr (.inr (.inl ⟨mapping, .inr member, written⟩))
    | none =>
      simp only [foundCase, Option.getD_none, List.mem_singleton] at written
      unfold mapRuns at written
      cases foundRun : t.runs.find? (·.covers c.toNat) with
      | some run =>
        simp only [foundRun] at written
        have covered := List.find?_some foundRun
        exact .inr (.inr (.inr ⟨run, List.mem_of_find?_eq_some foundRun,
          written ▸ mem_runImages covered foundCase⟩))
      | none =>
        simp only [foundRun] at written
        exact .inl ⟨written, foundCase, foundRun⟩

theorem mapping_of_image (stable : t.Stable) (image : d ∈ t.images) :
    t.mapping d lang fctx lctx = [d] :=
  mapping_of_not_source (not_mem_of_bitSet_and stable.apart (List.mem_map_of_mem image))

/-! ### Neighbours -/

variable (t) in
/-- Some rule of the language maps the codepoint depending on what surrounds it. -/
def Sensitive (lang : List UInt8) (c : UInt32) : Prop :=
  ∃ rule ∈ t.rules, rule.cp = c ∧ (rule.language.all fun l => lang == l.tag) = true ∧
    rule.condition ≠ none

theorem mapping_of_insensitive (insensitive : ¬ t.Sensitive lang c) (fctx : ForwardCasingContext)
    (lctx : LookaheadCasingContext) : t.mapping c lang fctx lctx = t.mapping c lang {} {} := by
  have same : ∀ rule ∈ t.rules, rule.holds c lang fctx lctx = rule.holds c lang {} {} := by
    intro rule member
    unfold Guard.holds
    by_cases cp : rule.cp = c
    · by_cases spoken : (rule.language.all fun l => lang == l.tag) = true
      · have unconditional : rule.condition = none :=
          Classical.not_not.mp fun condition => insensitive ⟨rule, member, cp, spoken, condition⟩
        rw [unconditional]
        rfl
      · simp [Bool.eq_false_iff.mpr spoken]
    · simp [beq_eq_false_iff_ne.mpr (Ne.symm cp)]
  unfold mapping specialMapping
  rw [List.find?_congr same]

end CaseTables

def lowerTables : CaseTables := ⟨lowerRules, lowerCases, lowerRuns⟩

def upperTables : CaseTables := ⟨upperRules, upperCases, upperRuns⟩

def foldTables : CaseTables := ⟨foldRules, foldCases, foldRuns⟩

theorem lowerTables_stable : lowerTables.Stable :=
  ⟨by decide +kernel, by decide +kernel, by decide +kernel⟩

theorem upperTables_stable : upperTables.Stable :=
  ⟨by decide +kernel, by decide +kernel, by decide +kernel⟩

theorem foldTables_stable : foldTables.Stable :=
  ⟨by decide +kernel, by decide +kernel, by decide +kernel⟩

end LibCxxExt.Text
