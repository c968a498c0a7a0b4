import LibCxxExt.ProofKit.Neighbours
import LibCxxExt.Text.Transcode
import LibCxxExt.Text.UnicodeCCC
import LibCxxExt.Text.UnicodeCasing

/-! Case mapping of texts: `string::lowered`, `uppered` and `folded` (`StringEx.h`). A pass from the
back computes what follows each codepoint and a pass from the front what precedes it. Both amount to
looking for the nearest decisive codepoint, so that the result is a map over the codepoints and what
surrounds them. -/

namespace LibCxxExt.Text

open LibCxxExt.ProofKit

/-! ### Contexts -/

def resetsCombining (ccc : CanonicalCombiningClass) : Bool := ccc == .notReordered || ccc == .above

/-- The variables of the loop in `lookahead_contexts_for_str`. -/
structure LookaheadState where
  followedByCased : Bool := false
  beforeDot : Bool := false
  nextCp : UInt32 := 0

def LookaheadState.context (st : LookaheadState) : LookaheadCasingContext where
  followedByCased := st.followedByCased
  moreAbove := st.nextCp != 0 && dcharCcc st.nextCp == .above
  beforeDot := st.beforeDot

def LookaheadState.update (c : UInt32) (st : LookaheadState) : LookaheadState where
  followedByCased :=
    if dcharIsCased c then true
    else if !dcharIsCaseIgnorable c then false
    else st.followedByCased
  beforeDot :=
    if c == 0x307 then true
    else if resetsCombining (dcharCcc c) then false
    else st.beforeDot
  nextCp := c

/-- The loop, which goes from the last codepoint to the first: the contexts it has written and its
variables. -/
def lookaheadLoop : List UInt32 → List LookaheadCasingContext × LookaheadState
  | [] => ([], {})
  | c :: behind =>
    let (ret, st) := lookaheadLoop behind
    (st.context :: ret, st.update c)

def lookaheadContextsForStr (codepoints : List UInt32) : List LookaheadCasingContext :=
  (lookaheadLoop codepoints).1

def updateFcontextForChar (ctx : ForwardCasingContext) (c : UInt32) : ForwardCasingContext where
  isPrecededByCased :=
    if dcharIsCased c then true
    else if !dcharIsCaseIgnorable c then false
    else ctx.isPrecededByCased
  afterSoftDotted :=
    if dcharIsSoftDotted c then true
    else if resetsCombining (dcharCcc c) then false
    else ctx.afterSoftDotted
  afterI :=
    if c == 0x49 then true
    else if resetsCombining (dcharCcc c) then false
    else ctx.afterI

/-! ### Case mapping -/

section Model

variable {T : Type} [IUnicodeCharacter T] [Inhabited T]

/-- `char32_t conv[3];` -/
def conv : List UInt32 := List.replicate 3 default

/-- The loop over `conv` that appends to `ret` what is written for each codepoint. -/
def appendConv (ret : List T) (converted : List UInt32 × Nat) : Option (List T) :=
  (converted.1.take converted.2).foldlM (appendCodepoint (unitsPerCodepoint T)) ret

/-- One round of the loop in `as_cased` over `ret` and `fctx`. -/
def casedStep (isUpper : Bool) (lang : List UInt8) (state : List T × ForwardCasingContext)
    (codepoint : UInt32 × LookaheadCasingContext) : Option (List T × ForwardCasingContext) := do
  let (ret, fctx) := state
  let (c, lctx) := codepoint
  let converted ←
    if isUpper then dcharToUpperSpecial conv c lang fctx lctx
    else dcharToLowerSpecial conv c lang fctx lctx
  return (← appendConv ret converted, updateFcontextForChar fctx c)

/-- `string::as_cased`. -/
def asCased (isUpper : Bool) (s : List T) (lang : List UInt8) : Option (List T) := do
  let cps ← codepoints s
  if cps.isEmpty then
    return []
  let state ← (cps.zip (lookaheadContextsForStr cps)).foldlM (casedStep isUpper lang) ([], {})
  return state.1

def lowered (s : List T) (lang : List UInt8) : Option (List T) := asCased false s lang

def uppered (s : List T) (lang : List UInt8) : Option (List T) := asCased true s lang

def foldedStep (lang : List UInt8) (ret : List T) (c : UInt32) : Option (List T) := do
  appendConv ret (← dcharFoldSpecial conv c lang)

/-- `string::folded`. -/
def folded (s : List T) (lang : List UInt8) : Option (List T) := do
  (← codepoints s).foldlM (foldedStep lang) []

end Model

/-! ### What the passes compute -/

def isDot (c : UInt32) : Bool := c == 0x307

def isI (c : UInt32) : Bool := c == 0x49

/-- The combining class is 0 or 230. -/
def interrupts (c : UInt32) : Bool := resetsCombining (dcharCcc c)

def notCaseIgnorable (c : UInt32) : Bool := !dcharIsCaseIgnorable c

/-- A cased codepoint comes next but for case-ignorable ones. -/
abbrev SeesCased (around : List UInt32) : Prop := Sees dcharIsCased notCaseIgnorable around

abbrev AfterI (before : List UInt32) : Prop := Sees isI interrupts before

abbrev AfterSoftDotted (before : List UInt32) : Prop := Sees dcharIsSoftDotted interrupts before

abbrev BeforeDot (behind : List UInt32) : Prop := Sees isDot interrupts behind

/-- What `as_cased` knows about the codepoints before the current one, the nearest of which comes
first. -/
def forwardContext (before : List UInt32) : ForwardCasingContext where
  isPrecededByCased := SeesCased before
  afterSoftDotted := AfterSoftDotted before
  afterI := AfterI before

/-- What it knows about the codepoints behind the current one. -/
def lookaheadContext (behind : List UInt32) : LookaheadCasingContext where
  followedByCased := SeesCased behind
  moreAbove := behind.head?.any fun next => dcharCcc next == .above
  beforeDot := BeforeDot behind

theorem decide_sees_cons (set reset : UInt32 → Bool) (c : UInt32) (l : List UInt32) :
    decide (Sees set reset (c :: l)) = latch set reset c (decide (Sees set reset l)) := by
  rw [Bool.eq_iff_iff, decide_eq_true_iff, sees_cons, latch]
  cases set c <;> cases reset c <;> simp

theorem forwardContext_nil : forwardContext [] = {} := by
  simp [forwardContext, sees_nil]

theorem updateFcontextForChar_eq (before : List UInt32) (c : UInt32) :
    updateFcontextForChar (forwardContext before) c = forwardContext (c :: before) := by
  unfold forwardContext
  rw [decide_sees_cons, decide_sees_cons, decide_sees_cons]
  rfl

/-- The variables of the backward loop once it is behind the current codepoint. -/
theorem lookaheadLoop_eq (behind : List UInt32) :
    (lookaheadLoop behind).2.context = lookaheadContext behind ∧
      (lookaheadLoop behind).2.followedByCased = decide (SeesCased behind) ∧
      (lookaheadLoop behind).2.beforeDot = decide (BeforeDot behind) := by
  have flags : (lookaheadLoop behind).2.followedByCased = decide (SeesCased behind) ∧
      (lookaheadLoop behind).2.beforeDot = decide (BeforeDot behind) := by
    induction behind with
    | nil => simp [lookaheadLoop, sees_nil]
    | cons c behind ih =>
      rw [decide_sees_cons, decide_sees_cons, ← ih.1, ← ih.2]
      exact ⟨rfl, rfl⟩
  refine ⟨?_, flags⟩
  rw [LookaheadState.context, lookaheadContext, flags.1, flags.2]
  cases behind with
  | nil => simp [lookaheadLoop]
  | cons next behind =>
    have isNext : (lookaheadLoop (next :: behind)).2.nextCp = next := rfl
    have null : dcharCcc 0 ≠ .above := by decide +kernel
    rw [isNext]
    by_cases zero : next = 0 <;> simp [zero, null]

theorem lookaheadContextsForStr_cons (c : UInt32) (behind : List UInt32) :
    lookaheadContextsForStr (c :: behind) =
      lookaheadContext behind :: lookaheadContextsForStr behind := by
  rw [← (lookaheadLoop_eq behind).1]
  rfl

/-! ### The loops -/

theorem copy_eq {T : Type} (out : List T) (i : Nat) (units : List T)
    (room : i + units.length ≤ out.length) :
    copy out i units = some (out.take i ++ units ++ out.drop (i + units.length)) := by
  induction units generalizing out i with
  | nil => simp [copy]
  | cons unit rest ih =>
    rw [List.length_cons] at room
    have inside : i < out.length := by omega
    have stored : store out i unit = some (out.set i unit) := if_pos inside
    have tail := ih (out.set i unit) (i + 1) (by rw [List.length_set]; omega)
    have front : (out.set i unit).take (i + 1) = out.take i ++ [unit] := by
      rw [List.take_add_one, List.take_set_of_le (le_refl i)]
      simp [inside]
    have back : (out.set i unit).drop (i + 1 + rest.length) = out.drop (i + 1 + rest.length) :=
      List.drop_set_of_lt (by omega)
    rw [front, back] at tail
    simp [copy, stored, tail, Nat.add_assoc, Nat.add_comm 1]

variable {T : Type} [IUnicodeCharacter T] [Inhabited T] [LawfulCharacter T]

/-- The encoding of a list of codepoints, with U+FFFD for what is no scalar value. -/
def encodeAll (T : Type) [IUnicodeCharacter T] [LawfulCharacter T] (cs : List UInt32) : List T :=
  cs.flatMap LawfulCharacter.encode

theorem storeMapping_eq {mapping : List UInt32} (short : mapping.length ≤ 3) :
    storeMapping conv mapping = some (mapping ++ conv.drop mapping.length, mapping.length) := by
  simp [storeMapping, copy_eq conv 0 mapping (by simpa [conv] using short)]

theorem appendConv_eq (ret : List T) (mapping rest : List UInt32) :
    appendConv ret (mapping ++ rest, mapping.length) = some (ret ++ encodeAll T mapping) := by
  simp [appendConv, appendCodepoint_foldlM, encodeAll]

def casedMapping (isUpper : Bool) : UInt32 → List UInt8 → ForwardCasingContext →
    LookaheadCasingContext → List UInt32 :=
  if isUpper then upperMapping else lowerMapping

theorem casedStep_eq (isUpper : Bool) (lang : List UInt8) (ret : List T) (c : UInt32)
    (fctx : ForwardCasingContext) (lctx : LookaheadCasingContext) :
    casedStep isUpper lang (ret, fctx) (c, lctx) =
      some (ret ++ encodeAll T (casedMapping isUpper c lang fctx lctx),
        updateFcontextForChar fctx c) := by
  cases isUpper with
  | false =>
    have stored := storeMapping_eq (length_lowerMapping_le c lang fctx lctx)
    simp [casedStep, dcharToLowerSpecial, stored, appendConv_eq, casedMapping]
  | true =>
    have stored := storeMapping_eq (length_upperMapping_le c lang fctx lctx)
    simp [casedStep, dcharToUpperSpecial, stored, appendConv_eq, casedMapping]

/-- What a codepoint is mapped to where it stands. -/
def casedAround (isUpper : Bool) (lang : List UInt8) (before : List UInt32) (c : UInt32)
    (behind : List UInt32) : List UInt32 :=
  casedMapping isUpper c lang (forwardContext before) (lookaheadContext behind)

theorem casedLoop_eq (isUpper : Bool) (lang : List UInt8) (ret : List T)
    (before cps : List UInt32) :
    (cps.zip (lookaheadContextsForStr cps)).foldlM (casedStep isUpper lang)
        (ret, forwardContext before) =
      some (ret ++ encodeAll T (flatMapAround (casedAround isUpper lang) before cps),
        forwardContext (cps.reverse ++ before)) := by
  induction cps generalizing ret before with
  | nil => simp [flatMapAround, encodeAll]
  | cons c behind ih =>
    have step := casedStep_eq (T := T) isUpper lang ret c (forwardContext before)
      (lookaheadContext behind)
    rw [updateFcontextForChar_eq] at step
    rw [lookaheadContextsForStr_cons, List.zip_cons_cons, List.foldlM_cons, step]
    simp [ih, flatMapAround, encodeAll, casedAround]

/-- Case mapping is a map over the codepoints and what surrounds them. -/
theorem asCased_eq (isUpper : Bool) (s : List T) (lang : List UInt8) :
    asCased isUpper s lang =
      some (encodeAll T (flatMapAround (casedAround isUpper lang) [] (decoded s))) := by
  have loop := casedLoop_eq (T := T) isUpper lang [] [] (decoded s)
  rw [forwardContext_nil] at loop
  rcases empty : decoded s with _ | ⟨c, behind⟩
  · simp [asCased, codepoints_eq, empty, flatMapAround, encodeAll]
  · rw [empty] at loop
    simp [asCased, codepoints_eq, empty, loop]

theorem foldedStep_eq (lang : List UInt8) (ret : List T) (c : UInt32) :
    foldedStep lang ret c = some (ret ++ encodeAll T (foldMapping c lang)) := by
  have stored := storeMapping_eq (length_foldMapping_le c lang)
  simp [foldedStep, dcharFoldSpecial, stored, appendConv_eq]

theorem foldedLoop_eq (lang : List UInt8) (ret : List T) (cps : List UInt32) :
    cps.foldlM (foldedStep lang) ret =
      some (ret ++ encodeAll T (cps.flatMap (foldMapping · lang))) := by
  induction cps generalizing ret with
  | nil => simp [encodeAll]
  | cons c behind ih => simp [foldedStep_eq, ih, encodeAll]

/-- Folding is a map over the codepoints. -/
theorem folded_eq (s : List T) (lang : List UInt8) :
    folded s lang = some (encodeAll T ((decoded s).flatMap (foldMapping · lang))) := by
  simp [folded, codepoints_eq, foldedLoop_eq]

end LibCxxExt.Text
