import LibCxxExt.Text.Casing

/-! Lowercasing and uppercasing against the rules of the Unicode Character Database. Without a
language the final sigma is the only mapping that depends on what surrounds a codepoint. The Turkic
and the Lithuanian rules agree with the code but for those that delete a dot, of which the generated
functions have none. -/

namespace LibCxxExt.Text

open LibCxxExt.ProofKit

/-! ### Default lowercasing -/

/-- The lowercase of `c` in a language without rules of its own. -/
def lowerDefault (before : List UInt32) (c : UInt32) (behind : List UInt32) : List UInt32 :=
  if c = 0x3A3 then if SeesCased before ∧ ¬ SeesCased behind then [0x3C2] else [0x3C3]
  else if c = 0x130 then [0x69, 0x307]
  else [dcharToLowerSimple c]

theorem toLowerSimple_sigma : dcharToLowerSimple 0x3A3 = 0x3C3 := by decide +kernel

theorem find_lowerRules {lang : List UInt8} (other : ∀ l : Language, lang ≠ l.tag) (c : UInt32)
    (fctx : ForwardCasingContext) (lctx : LookaheadCasingContext) :
    lowerRules.find? (·.holds c lang fctx lctx) =
      if c = 0x3A3 ∧ fctx.isPrecededByCased = true ∧ lctx.followedByCased = false
      then some ⟨⟨0x3A3, none, some .finalSigma⟩, [0x3C2]⟩ else none := by
  have unspoken (l : Language) : (lang == l.tag) = false := by simpa using other l
  simp only [lowerRules, List.find?, Guard.holds, Option.all_some, Option.all_none, unspoken,
    Bool.and_false, Bool.false_and, Bool.and_true, Condition.eval]
  by_cases sigma : c = 0x3A3
  · subst sigma
    cases fctx.isPrecededByCased <;> cases lctx.followedByCased <;> simp
  · simp [beq_eq_false_iff_ne.mpr sigma, sigma]

theorem lookup_lowerCases (c : UInt32) :
    lowerCases.lookup c = if c = 0x130 then some [0x69, 0x307] else none := by
  by_cases dotted : c = 0x130
  · simp [lowerCases, dotted]
  · simp [lowerCases, List.lookup_cons, beq_eq_false_iff_ne.mpr dotted, dotted]

theorem casedAround_other {lang : List UInt8} (other : ∀ l : Language, lang ≠ l.tag)
    (before : List UInt32) (c : UInt32) (behind : List UInt32) :
    casedAround false lang before c behind = lowerDefault before c behind := by
  show lowerMapping c lang (forwardContext before) (lookaheadContext behind) = _
  rw [lowerMapping, specialMapping, find_lowerRules other, lookup_lowerCases]
  by_cases sigma : c = 0x3A3
  · subst sigma
    by_cases preceded : SeesCased before <;> by_cases followed : SeesCased behind <;>
      simp [lowerDefault, forwardContext, lookaheadContext, preceded, followed,
        toLowerSimple_sigma]
  · by_cases dotted : c = 0x130 <;> simp [lowerDefault, sigma, dotted]

/-- Without a language of its own rules, lowercasing is the default mapping of every codepoint. -/
theorem lowered_default (T : Encoding) (s : List T.Unit) (lang : List UInt8)
    (other : ∀ l : Language, lang ≠ l.tag) : ∃ cs, codepoints s = some cs ∧
      lowered s lang = some (encodeAll T.Unit (flatMapAround lowerDefault [] cs)) := by
  refine ⟨decoded s, codepoints_eq s, (asCased_eq false s lang).trans ?_⟩
  have mapped := funext fun before => funext fun c => funext fun behind =>
    casedAround_other other before c behind
  rw [mapped]

/-- The text "ΟΣ" without a language. -/
theorem lowered_default_sigma : (∀ l : Language, [] ≠ l.tag) ∧
    ∃ cs, codepoints (T := Encoding.utf32.Unit) [0x39F, 0x3A3] = some cs ∧
      lowered (T := Encoding.utf32.Unit) [0x39F, 0x3A3] [] =
        some (encodeAll Encoding.utf32.Unit (flatMapAround lowerDefault [] cs)) := by
  have other (l : Language) : [] ≠ l.tag := by cases l <;> decide
  exact ⟨other, lowered_default .utf32 [0x39F, 0x3A3] [] other⟩

/-! ### The dot above -/

/-- The Turkic rules: a dot above that follows an `I` is deleted. -/
def lowerTurkic (before : List UInt32) (c : UInt32) (behind : List UInt32) : List UInt32 :=
  if c = 0x307 ∧ AfterI before then []
  else if c = 0x49 then if BeforeDot behind then [0x69] else [0x131]
  else if c = 0x130 then [0x69]
  else lowerDefault before c behind

/-- The uppercase of `c` in a language without rules of its own. -/
def upperDefault (c : UInt32) : List UInt32 := (upperCases.lookup c).getD [dcharToUpperSimple c]

/-- The Lithuanian rule: a dot above that follows a soft dot is deleted. -/
def upperLithuanian (before : List UInt32) (c : UInt32) (_ : List UInt32) : List UInt32 :=
  if c = 0x307 ∧ AfterSoftDotted before then [] else upperDefault c

theorem find_lowerRules_turkic {l : Language} (turkic : l = .tr ∨ l = .az) (c : UInt32)
    (fctx : ForwardCasingContext) (lctx : LookaheadCasingContext) :
    lowerRules.find? (·.holds c l.tag fctx lctx) =
      if c = 0x3A3 ∧ fctx.isPrecededByCased = true ∧ lctx.followedByCased = false
      then some ⟨⟨0x3A3, none, some .finalSigma⟩, [0x3C2]⟩
      else if c = 0x130 then some ⟨⟨0x130, some l, none⟩, [0x69]⟩
      else if c = 0x49 ∧ lctx.beforeDot = false
      then some ⟨⟨0x49, some l, some .notBeforeDot⟩, [0x131]⟩
      else none := by
  have self (k : Language) : (k.tag == k.tag) = true := beq_self_eq_true _
  have apart : (Language.tr.tag == Language.az.tag) = false ∧
      (Language.az.tag == Language.tr.tag) = false ∧
      (Language.tr.tag == Language.lt.tag) = false ∧
      (Language.az.tag == Language.lt.tag) = false := by decide
  rcases turkic with rfl | rfl <;>
  · simp only [lowerRules, List.find?, Guard.holds, Option.all_some, Option.all_none, self, apart,
      Bool.and_false, Bool.false_and, Bool.and_true, Condition.eval]
    by_cases sigma : c = 0x3A3
    · subst sigma
      cases fctx.isPrecededByCased <;> cases lctx.followedByCased <;> simp
    · by_cases dotted : c = 0x130
      · simp [dotted]
      · by_cases capital : c = 0x49
        · subst capital
          cases lctx.beforeDot <;> simp
        · simp [beq_eq_false_iff_ne.mpr sigma, beq_eq_false_iff_ne.mpr dotted,
            beq_eq_false_iff_ne.mpr capital, sigma, dotted, capital]

theorem toLowerSimple_capital : dcharToLowerSimple 0x49 = 0x69 := by decide +kernel

theorem toLowerSimple_dot : dcharToLowerSimple 0x307 = 0x307 := by decide +kernel

theorem casedAround_turkic {l : Language} (turkic : l = .tr ∨ l = .az) {before : List UInt32}
    {c : UInt32} (behind : List UInt32) (kept : ¬ (c = 0x307 ∧ AfterI before)) :
    casedAround false l.tag before c behind = lowerTurkic before c behind := by
  show lowerMapping c l.tag (forwardContext before) (lookaheadContext behind) = _
  rw [lowerMapping, specialMapping, find_lowerRules_turkic turkic, lookup_lowerCases, lowerTurkic,
    if_neg kept]
  by_cases sigma : c = 0x3A3
  · subst sigma
    by_cases preceded : SeesCased before <;> by_cases followed : SeesCased behind <;>
      simp [lowerDefault, forwardContext, lookaheadContext, preceded, followed,
        toLowerSimple_sigma]
  · by_cases dotted : c = 0x130
    · simp [dotted]
    · by_cases capital : c = 0x49
      · subst capital
        by_cases dot : BeforeDot behind <;> simp [lookaheadContext, dot, toLowerSimple_capital]
      · simp [sigma, dotted, capital, lowerDefault]

theorem casedAround_turkic_dot {l : Language} (turkic : l = .tr ∨ l = .az)
    (before behind : List UInt32) :
    casedAround false l.tag before 0x307 behind = [0x307] := by
  show lowerMapping 0x307 l.tag (forwardContext before) (lookaheadContext behind) = _
  rw [lowerMapping, specialMapping, find_lowerRules_turkic turkic, lookup_lowerCases]
  simp [toLowerSimple_dot]

theorem casedAround_lithuanian (before : List UInt32) (c : UInt32) (behind : List UInt32) :
    casedAround true Language.lt.tag before c behind = upperDefault c := by
  have apart : (Language.lt.tag == Language.tr.tag) = false ∧
      (Language.lt.tag == Language.az.tag) = false := by decide
  show upperMapping c Language.lt.tag (forwardContext before) (lookaheadContext behind) = _
  simp [upperMapping, specialMapping, upperRules, Guard.holds, apart, upperDefault]

theorem upperDefault_dot : upperDefault 0x307 = [0x307] := by decide +kernel

/-- A dot above stands where the rule that looks for `sees` deletes it. -/
def HasDot (sees : List UInt32 → Prop) (cs : List UInt32) : Prop :=
  ∃ past behind, cs = past ++ 0x307 :: behind ∧ sees past.reverse

section Erased

variable {T : Type} [IUnicodeCharacter T] [LawfulCharacter T] {sees : List UInt32 → Prop}
  {f g : List UInt32 → UInt32 → List UInt32 → List UInt32}

/-- Two maps that differ in the deletion of dots give the same text only where there is no dot to
delete. -/
theorem encodeAll_eq_iff
    (same : ∀ before c behind, ¬ (c = 0x307 ∧ sees before) → f before c behind = g before c behind)
    (kept : ∀ before behind, f before 0x307 behind = [0x307])
    (erased : ∀ before behind, sees before → g before 0x307 behind = []) (cs : List UInt32) :
    encodeAll T (flatMapAround f [] cs) = encodeAll T (flatMapAround g [] cs) ↔
      ¬ HasDot sees cs := by
  unfold encodeAll
  rw [flatMap_flatMapAround, flatMap_flatMapAround, flatMapAround_eq_iff ?_]
  · constructor
    · rintro everywhere ⟨past, behind, split, seen⟩
      have here := everywhere past 0x307 behind split
      rw [List.append_nil] at here
      simp only [kept, erased _ _ seen, List.flatMap_singleton, List.flatMap_nil] at here
      have pos := LawfulCharacter.encode_pos (T := T) 0x307
      simp [here] at pos
    · intro none past c behind split
      have differs : ¬ (c = 0x307 ∧ sees past.reverse) := by
        rintro ⟨rfl, seen⟩
        exact none ⟨past, behind, split, seen⟩
      rw [List.append_nil]
      exact congrArg (List.flatMap LawfulCharacter.encode) (same past.reverse c behind differs)
  · intro before c behind
    by_cases dot : c = 0x307 ∧ sees before
    · obtain ⟨rfl, seen⟩ := dot
      exact .inr (by rw [erased before behind seen, List.flatMap_nil])
    · exact .inl (by rw [same before c behind dot])

end Erased

theorem lowered_turkic_iff {T : Encoding} (s : List T.Unit) {l : Language}
    (turkic : l = .tr ∨ l = .az) :
    lowered s l.tag = some (encodeAll T.Unit (flatMapAround lowerTurkic [] (decoded s))) ↔
      ¬ HasDot AfterI (decoded s) := by
  rw [lowered, asCased_eq, Option.some_inj]
  apply encodeAll_eq_iff
  · exact fun before c behind kept => casedAround_turkic turkic behind kept
  · exact fun before behind => casedAround_turkic_dot turkic before behind
  · exact fun before behind seen => if_pos ⟨rfl, seen⟩

theorem uppered_lithuanian_iff {T : Encoding} (s : List T.Unit) :
    uppered s Language.lt.tag =
        some (encodeAll T.Unit (flatMapAround upperLithuanian [] (decoded s))) ↔
      ¬ HasDot AfterSoftDotted (decoded s) := by
  rw [uppered, asCased_eq, Option.some_inj]
  apply encodeAll_eq_iff
  · intro before c behind kept
    rw [casedAround_lithuanian, upperLithuanian, if_neg kept]
  · intro before behind
    rw [casedAround_lithuanian, upperDefault_dot]
  · exact fun before behind seen => if_pos ⟨rfl, seen⟩

/-- Lowercasing follows the Turkic rules exactly on the texts without a dot above after an `I`, and
uppercasing the Lithuanian one on those without a dot above after a soft dot. -/
theorem dots_iff (T : Encoding) (s : List T.Unit) : ∃ cs, codepoints s = some cs ∧
    (lowered s Language.tr.tag = some (encodeAll T.Unit (flatMapAround lowerTurkic [] cs)) ↔
      ¬ HasDot AfterI cs) ∧
    (lowered s Language.az.tag = some (encodeAll T.Unit (flatMapAround lowerTurkic [] cs)) ↔
      ¬ HasDot AfterI cs) ∧
    (uppered s Language.lt.tag = some (encodeAll T.Unit (flatMapAround upperLithuanian [] cs)) ↔
      ¬ HasDot AfterSoftDotted cs) :=
  ⟨decoded s, codepoints_eq s, lowered_turkic_iff s (.inl rfl), lowered_turkic_iff s (.inr rfl),
    uppered_lithuanian_iff s⟩

/-- A decomposed "İ" keeps its dot in Turkish. -/
theorem lowered_keeps_dot :
    lowered (T := Encoding.utf32.Unit) [0x49, 0x307] Language.tr.tag = some [0x69, 0x307] ∧
      encodeAll Encoding.utf32.Unit (flatMapAround lowerTurkic [] [0x49, 0x307]) = [0x69] := by
  decide +kernel

/-! ### More above -/

def isAbove (c : UInt32) : Bool := dcharCcc c == .above

/-- A codepoint of class 230 comes next but for ones of a class other than 0 and 230. -/
abbrev MoreAbove (behind : List UInt32) : Prop := Sees isAbove interrupts behind

/-- The contexts of Final_Sigma, Before_Dot and More_Above, with `behind` after the codepoint. -/
def unicodeContext (behind : List UInt32) : LookaheadCasingContext where
  followedByCased := SeesCased behind
  moreAbove := MoreAbove behind
  beforeDot := BeforeDot behind

/-- The next codepoint has a class other than 0 and 230, and more of the kind lead up to one of
class 230. -/
def AboveLater : List UInt32 → Prop
  | [] => False
  | next :: behind => interrupts next = false ∧ MoreAbove behind

/-- The code only looks at the class of the next codepoint. -/
theorem moreAbove_iff (behind : List UInt32) :
    (lookaheadContext behind).moreAbove = decide (MoreAbove behind) ↔ ¬ AboveLater behind := by
  cases behind with
  | nil => simp [lookaheadContext, AboveLater, sees_nil]
  | cons next behind =>
    have seen : (lookaheadContext (next :: behind)).moreAbove = isAbove next := rfl
    rw [seen, decide_sees_cons, latch, AboveLater]
    cases above : isAbove next with
    | true =>
      have stops : interrupts next = true := by
        rw [interrupts, resetsCombining, show (dcharCcc next == .above) = true from above,
          Bool.or_true]
      simp [stops]
    | false => cases interrupts next <;> simp

/-- `followed_by_cased` and `before_dot` are the contexts of the standard. -/
theorem lookaheadContext_eq_iff (behind : List UInt32) :
    lookaheadContext behind = unicodeContext behind ↔ ¬ AboveLater behind := by
  rw [← moreAbove_iff]
  constructor
  · intro same
    rw [same]
    rfl
  · intro same
    rw [unicodeContext, ← same]
    rfl

theorem getElem_lookaheadContexts (cps : List UInt32) (i : Fin cps.length) :
    (lookaheadContextsForStr cps)[i.val]? = some (lookaheadContext (cps.drop (i + 1))) := by
  obtain ⟨i, inside⟩ := i
  induction cps generalizing i with
  | nil => simp at inside
  | cons c behind ih =>
    cases i with
    | zero => simp [lookaheadContextsForStr_cons]
    | succ i => simpa [lookaheadContextsForStr_cons] using ih i (by simpa using inside)

/-- The backward pass gives the contexts of the standard wherever no codepoint of class 230 comes
after a codepoint of another class that does not end the search. -/
theorem lookaheadContexts_iff (cps : List UInt32) (i : Fin cps.length) :
    (lookaheadContextsForStr cps)[i.val]? = some (unicodeContext (cps.drop (i + 1))) ↔
      ¬ AboveLater (cps.drop (i + 1)) := by
  rw [getElem_lookaheadContexts, Option.some_inj, lookaheadContext_eq_iff]

/-- In "I" with a dot below and a grave accent there is more above the letter. -/
theorem lookaheadContexts_grave :
    (lookaheadContextsForStr [0x49, 0x323, 0x300])[0]? = some ⟨false, false, false⟩ ∧
      unicodeContext [0x323, 0x300] = ⟨false, true, false⟩ := by
  decide +kernel

end LibCxxExt.Text
