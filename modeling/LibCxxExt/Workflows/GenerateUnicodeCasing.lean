import LibCxxExt.ProofKit.Prefixes
import LibCxxExt.Text.SpecialCasing

/-! The part of `generate_unicode_casing.py` that turns `SpecialCasing.txt` into
`dchar_to_lower_special` and `dchar_to_upper_special`. The entries of the file are read in order
into a table of unconditional mappings and a list of conditional rules, and some entries are left
out. -/

namespace LibCxxExt.Workflows.GenerateUnicodeCasing

open LibCxxExt.ProofKit LibCxxExt.Text

/-- A line of `SpecialCasing.txt`. -/
structure Entry where
  cp : UInt32
  lower : List UInt32
  upper : List UInt32
  language : Option Language
  condition : Option Condition
  deriving DecidableEq

/-- The line has a fifth part that is not empty. -/
def Entry.conditional (e : Entry) : Bool := e.language.isSome || e.condition.isSome

def Entry.guard (e : Entry) : Guard := ⟨e.cp, e.language, e.condition⟩

/-- `Dict[int, int]`, read from `UnicodeData.txt`. -/
abbrev SimpleMappings := UInt32 → Option UInt32

/-- What is collected for one direction. -/
structure Special where
  unconditional : UInt32 → Option (List UInt32)
  conditional : List Rule

/-- `len(cps) > 1 or (cp in simple_mappings and simple_mappings[cp] != cps[0])`. An empty list has
no `cps[0]`, and `main` ends with an `IndexError`. -/
def differsFromSimple (cp : UInt32) (cps : List UInt32) (simpleMappings : SimpleMappings) :
    Option Bool :=
  if cps.length > 1 then some true
  else match simpleMappings cp with
    | some mapped => cps.head?.map (mapped ≠ ·)
    | none => some false

def shouldAddToConditional (cp : UInt32) (cps : List UInt32) (simpleMappings : SimpleMappings)
    (unconditional : UInt32 → Option (List UInt32)) : Option Bool := do
  if ← differsFromSimple cp cps simpleMappings then return true
  match unconditional cp with
  | some uncond => return uncond ≠ cps
  | none => return false

/-- What the loop over the lines does for one direction. -/
def Special.add (simpleMappings : SimpleMappings) (mapping : Entry → List UInt32) (t : Special)
    (e : Entry) : Option Special := do
  if e.conditional then
    if ← shouldAddToConditional e.cp (mapping e) simpleMappings t.unconditional then
      return { t with conditional := t.conditional ++ [⟨e.guard, mapping e⟩] }
    else return t
  else
    if ← differsFromSimple e.cp (mapping e) simpleMappings then
      return { t with unconditional := Function.update t.unconditional e.cp (some (mapping e)) }
    else return t

def Special.empty : Special := ⟨fun _ => none, []⟩

/-- The loop of `main` over the lines of `SpecialCasing.txt`. -/
def main (simpleLower simpleUpper : SimpleMappings) (entries : List Entry) :
    Option (Special × Special) :=
  entries.foldlM (fun t e => do
    return (← t.1.add simpleLower Entry.lower e, ← t.2.add simpleUpper Entry.upper e))
    (.empty, .empty)

/-- The function that `write_simple_mapping` writes. -/
def writeSimpleMapping (mappings : SimpleMappings)
    (unconditionalSpecial : UInt32 → Option (List UInt32)) (c : UInt32) : UInt32 :=
  match mappings c with
  | some mapped => if unconditionalSpecial c = some [mapped] then c else mapped
  | none => c

/-- The function that `write_special_mapping` writes. -/
def writeSpecialMapping (simpleMappings : SimpleMappings) (t : Special) :
    UInt32 → List UInt8 → ForwardCasingContext → LookaheadCasingContext → List UInt32 :=
  specialMapping t.conditional t.unconditional (writeSimpleMapping simpleMappings t.unconditional)

/-! ### What the entries say -/

section Direction

variable (simple : SimpleMappings) (mapping : Entry → List UInt32)

/-- The first conditional entry for `c` whose language and condition hold. -/
def firstHolding (entries : List Entry) (c : UInt32) (lang : List UInt8)
    (fctx : ForwardCasingContext) (lctx : LookaheadCasingContext) : Option Entry :=
  entries.find? fun e => e.conditional && e.guard.holds c lang fctx lctx

def unconditionalFor (c : UInt32) (e : Entry) : Bool := !e.conditional && e.cp == c

def lastUnconditional (entries : List Entry) (c : UInt32) : Option Entry :=
  (entries.filter (unconditionalFor c)).getLast?

/-- The simple mapping of `c`, or `c`. -/
def simpleOrSelf (c : UInt32) : List UInt32 := [(simple c).getD c]

/-- The mapping that the entries give for `c`. -/
def specified (entries : List Entry) (c : UInt32) (lang : List UInt8)
    (fctx : ForwardCasingContext) (lctx : LookaheadCasingContext) : List UInt32 :=
  match firstHolding entries c lang fctx lctx with
  | some e => mapping e
  | none => match lastUnconditional entries c with
    | some e => mapping e
    | none => simpleOrSelf simple c

/-- The mapping has at most one codepoint, and is the simple mapping where there is one. -/
def plain (cp : UInt32) (cps : List UInt32) : Bool :=
  cps.length ≤ 1 && (simple cp).all fun mapped => cps == [mapped]

/-- Whether the generator keeps an entry that has the entries `before` in front of it. A plain entry
is kept if it is conditional and an unconditional entry for its codepoint is not plain. -/
def kept (before : List Entry) (e : Entry) : Bool :=
  !plain simple e.cp (mapping e) || (e.conditional && before.any fun u =>
    unconditionalFor e.cp u && !plain simple u.cp (mapping u))

/-- The entries that the generator keeps. -/
def keptEntries (entries : List Entry) : List Entry := filterAfter (kept simple mapping) [] entries

/-- All unconditional entries for `c` are plain. -/
def UnconditionalPlain (entries : List Entry) (c : UInt32) : Prop :=
  ∀ u ∈ entries, unconditionalFor c u = true → plain simple c (mapping u) = true

/-- The entries `hold` can hold for `c` where the entries `fail` do not. -/
def Together (c : UInt32) (hold fail : List Entry) : Prop :=
  ∃ lang fctx lctx, (∀ e ∈ hold, e.guard.holds c lang fctx lctx = true) ∧
    ∀ e ∈ fail, e.guard.holds c lang fctx lctx = false

/-- The conditional entries that are kept among the entries `behind` those `before`. -/
def rulesBehind (before behind : List Entry) : List Entry :=
  (filterAfter (kept simple mapping) before behind).filter Entry.conditional

/-- The conditional entry `e` between `before` and `behind` is not missed where it is the first to
hold. The first kept one that holds beside it has its mapping. Where none does, its mapping is the
simple one, and there is no other special mapping for its codepoint. -/
structure Shadowed (before : List Entry) (e : Entry) (behind : List Entry) : Prop where
  beside : ∀ mid k rest, rulesBehind simple mapping (before ++ [e]) behind = mid ++ k :: rest →
    Together e.cp [e, k] (before.filter Entry.conditional ++ mid) → mapping k = mapping e
  alone : Together e.cp [e]
      (before.filter Entry.conditional ++ rulesBehind simple mapping (before ++ [e]) behind) →
    UnconditionalPlain simple mapping (before ++ e :: behind) e.cp ∧
      mapping e = simpleOrSelf simple e.cp

/-- No entry is empty where there is a simple mapping, every conditional entry that is not kept is
shadowed, and no unconditional one is missed: where the last one for a codepoint is plain, and no
conditional one need hold, its mapping is the simple one, and there is no other special mapping. -/
structure Droppable (entries : List Entry) : Prop where
  nonempty : ∀ e ∈ entries, mapping e = [] → simple e.cp = none
  conditional : ∀ before e behind, entries = before ++ e :: behind → e.conditional = true →
    kept simple mapping before e = false → Shadowed simple mapping before e behind
  unconditional : ∀ c u, lastUnconditional entries c = some u → plain simple c (mapping u) = true →
    Together c [] (entries.filter Entry.conditional) →
    UnconditionalPlain simple mapping entries c ∧ mapping u = simpleOrSelf simple c

end Direction

/-! ### The loop -/

theorem differsFromSimple_eq {simple : SimpleMappings} {cp : UInt32} {cps : List UInt32}
    (nonempty : cps = [] → simple cp = none) :
    differsFromSimple cp cps simple = some (!plain simple cp cps) := by
  match cps, nonempty with
  | [], nonempty => simp [differsFromSimple, plain, nonempty rfl]
  | [x], _ =>
    cases mapped : simple cp <;>
      simp [differsFromSimple, plain, mapped, Bool.beq_eq_decide_eq, eq_comm]
  | x :: y :: rest, _ => simp [differsFromSimple, plain]

section Direction

variable {simple : SimpleMappings} {mapping : Entry → List UInt32}

variable (mapping) in
/-- The table and the rules that say what the entries say. -/
def tables (entries : List Entry) : Special where
  unconditional c := (lastUnconditional entries c).map mapping
  conditional := (entries.filter Entry.conditional).map fun e => ⟨e.guard, mapping e⟩

theorem cp_eq_of_unconditionalFor {c : UInt32} {e : Entry}
    (here : unconditionalFor c e = true) : e.cp = c := by
  simp only [unconditionalFor, Bool.and_eq_true, beq_iff_eq] at here
  exact here.2

theorem unconditional_kept (c : UInt32) (entries : List Entry) :
    (keptEntries simple mapping entries).filter (unconditionalFor c) =
      (entries.filter (unconditionalFor c)).filter fun u => !plain simple c (mapping u) := by
  refine filter_filterAfter (fun before u here => ?_) [] entries
  have parts : u.conditional = false ∧ u.cp = c := by simpa [unconditionalFor] using here
  simp [kept, parts.1, parts.2]

theorem lastUnconditional_kept {c : UInt32} {entries : List Entry} {u : Entry}
    (last : lastUnconditional (keptEntries simple mapping entries) c = some u) :
    u ∈ entries ∧ plain simple c (mapping u) = false ∧ unconditionalFor c u = true := by
  rw [lastUnconditional, unconditional_kept] at last
  have mem := List.mem_of_getLast? last
  simpa [and_assoc] using mem

theorem lastUnconditional_kept_eq_none {c : UInt32} {entries : List Entry} :
    lastUnconditional (keptEntries simple mapping entries) c = none ↔
      UnconditionalPlain simple mapping entries c := by
  rw [lastUnconditional, unconditional_kept, List.getLast?_eq_none_iff]
  simp only [UnconditionalPlain, List.filter_eq_nil_iff, List.mem_filter]
  constructor
  · intro none u mem here
    simpa using none u ⟨mem, here⟩
  · intro plain u mem
    simpa using plain u mem.1 mem.2

theorem keptEntries_snoc (entries : List Entry) (e : Entry) :
    keptEntries simple mapping (entries ++ [e]) = keptEntries simple mapping entries ++
      if kept simple mapping entries e then [e] else [] := by
  rw [keptEntries, filterAfter_snoc]
  rfl

theorem shouldAdd_eq {entries : List Entry} {e : Entry} (conditional : e.conditional = true)
    (nonempty : mapping e = [] → simple e.cp = none) :
    shouldAddToConditional e.cp (mapping e) simple
      (tables mapping (keptEntries simple mapping entries)).unconditional =
        some (kept simple mapping entries e) := by
  rw [shouldAddToConditional, differsFromSimple_eq nonempty]
  cases ordinary : plain simple e.cp (mapping e) with
  | false => simp [kept, ordinary]
  | true =>
    cases last : lastUnconditional (keptEntries simple mapping entries) e.cp with
    | none =>
      have dropped : kept simple mapping entries e = false := by
        have none := lastUnconditional_kept_eq_none.mp last
        simp only [kept, ordinary, Bool.not_true, Bool.false_or, conditional, Bool.true_and,
          List.any_eq_false, Bool.and_eq_true, not_and]
        intro u mem here
        rw [cp_eq_of_unconditionalFor here, none u mem here]
        exact nofun
      simp [tables, last, dropped]
    | some u =>
      obtain ⟨mem, special, here⟩ := lastUnconditional_kept last
      have differs : mapping u ≠ mapping e := fun same => by
        rw [same, ordinary] at special
        exact absurd special nofun
      have keeps : kept simple mapping entries e = true := by
        simp only [kept, ordinary, Bool.not_true, Bool.false_or, conditional, Bool.true_and,
          List.any_eq_true, Bool.and_eq_true]
        exact ⟨u, mem, here, by rw [cp_eq_of_unconditionalFor here, special]; rfl⟩
      simp [tables, last, differs, keeps]

theorem lastUnconditional_snoc (entries : List Entry) (e : Entry) (c : UInt32) :
    lastUnconditional (entries ++ [e]) c =
      if unconditionalFor c e then some e else lastUnconditional entries c := by
  by_cases here : unconditionalFor c e = true <;>
    simp [lastUnconditional, List.filter_append, here]

theorem add_eq {entries : List Entry} {e : Entry}
    (nonempty : mapping e = [] → simple e.cp = none) :
    (tables mapping (keptEntries simple mapping entries)).add simple mapping e =
      some (tables mapping (keptEntries simple mapping (entries ++ [e]))) := by
  rw [Special.add, keptEntries_snoc]
  cases conditional : e.conditional with
  | true =>
    rw [shouldAdd_eq conditional nonempty]
    cases keeps : kept simple mapping entries e with
    | true => simp [tables, conditional, lastUnconditional_snoc, unconditionalFor]
    | false => simp
  | false =>
    rw [differsFromSimple_eq nonempty]
    cases ordinary : plain simple e.cp (mapping e) with
    | true => simp [kept, ordinary, conditional]
    | false =>
      have keeps : kept simple mapping entries e = true := by simp [kept, ordinary]
      have stored : Function.update
          (fun c => (lastUnconditional (keptEntries simple mapping entries) c).map mapping) e.cp
            (some (mapping e)) = fun c =>
          (lastUnconditional (keptEntries simple mapping entries ++ [e]) c).map mapping := by
        funext c
        by_cases same : c = e.cp
        · subst same
          simp [lastUnconditional_snoc, unconditionalFor, conditional]
        · simp [lastUnconditional_snoc, unconditionalFor, same, Ne.symm same]
      simp [tables, keeps, stored, conditional]

theorem collect_eq {entries : List Entry}
    (nonempty : ∀ e ∈ entries, mapping e = [] → simple e.cp = none) :
    entries.foldlM (Special.add simple mapping) .empty =
      some (tables mapping (keptEntries simple mapping entries)) := by
  induction entries using List.reverseRecOn with
  | nil => rfl
  | append_singleton entries e ih =>
    rw [List.foldlM_append, ih fun u mem => nonempty u (by simp [mem])]
    simpa using add_eq (nonempty e (by simp))

theorem add_raises {e : Entry} (empty : mapping e = []) (mapped : simple e.cp ≠ none)
    (t : Special) : t.add simple mapping e = none := by
  obtain ⟨m, mapped⟩ := Option.ne_none_iff_exists'.mp mapped
  cases conditional : e.conditional <;>
    simp [Special.add, shouldAddToConditional, differsFromSimple, conditional, empty, mapped]

/-- The loop raises where an entry is empty for a codepoint with a simple mapping. -/
theorem nonempty_of_collect {entries : List Entry} {t : Special}
    (collected : entries.foldlM (Special.add simple mapping) .empty = some t) :
    ∀ e ∈ entries, mapping e = [] → simple e.cp = none := by
  induction entries using List.reverseRecOn generalizing t with
  | nil => exact fun _ mem => absurd mem nofun
  | append_singleton entries e ih =>
    simp only [List.foldlM_append, Option.bind_eq_bind, Option.bind_eq_some_iff, List.foldlM_cons,
      List.foldlM_nil] at collected
    obtain ⟨before, collected, t', added, -⟩ := collected
    intro u mem empty
    rcases List.mem_append.mp mem with mem | last
    · exact ih collected u mem empty
    · obtain rfl := List.mem_singleton.mp last
      by_contra mapped
      rw [add_raises empty mapped] at added
      exact absurd added nofun

/-! ### What is written -/

theorem find_rule (entries : List Entry) (c : UInt32) (lang : List UInt8)
    (fctx : ForwardCasingContext) (lctx : LookaheadCasingContext) :
    (tables mapping entries).conditional.find? (·.holds c lang fctx lctx) =
      (firstHolding entries c lang fctx lctx).map fun e => ⟨e.guard, mapping e⟩ := by
  simp only [tables, List.find?_map, List.find?_filter, firstHolding]
  congr 2
  funext e
  simp

/-- The written function says what the entries of its tables say. -/
theorem writeSpecialMapping_eq (entries : List Entry) :
    writeSpecialMapping simple (tables mapping entries) = specified simple mapping entries := by
  funext c lang fctx lctx
  rw [writeSpecialMapping, specialMapping, find_rule, specified]
  cases firstHolding entries c lang fctx lctx with
  | some e => rfl
  | none =>
    cases last : lastUnconditional entries c with
    | some u => simp [tables, last]
    | none => cases mapped : simple c <;>
        simp [tables, last, writeSimpleMapping, simpleOrSelf, mapped]

/-! ### What is dropped -/

section Dropped

variable {entries : List Entry} {c : UInt32} {lang : List UInt8} {fctx : ForwardCasingContext}
  {lctx : LookaheadCasingContext}

theorem mem_kept {e : Entry} (mem : e ∈ entries)
    (special : plain simple e.cp (mapping e) = false) : e ∈ keptEntries simple mapping entries :=
  mem_filterAfter (fun before => by simp [kept, special]) mem

theorem firstHolding_cp {e : Entry} (first : firstHolding entries c lang fctx lctx = some e) :
    e ∈ entries ∧ e.cp = c := by
  have holds := List.find?_some first
  simp only [Guard.holds, Entry.guard, Bool.and_eq_true, beq_iff_eq] at holds
  exact ⟨List.mem_of_find?_eq_some first, holds.2.1.1.symm⟩

/-- What is left of a mapping that the generator drops is another one, or the simple mapping. -/
theorem left_eq_iff {m : List UInt32} (ordinary : plain simple c m = true) :
    (match lastUnconditional (keptEntries simple mapping entries) c with
      | some u => mapping u
      | none => simpleOrSelf simple c) = m ↔
        UnconditionalPlain simple mapping entries c ∧ m = simpleOrSelf simple c := by
  cases last : lastUnconditional (keptEntries simple mapping entries) c with
  | some u =>
    obtain ⟨mem, special, here⟩ := lastUnconditional_kept last
    constructor
    · rintro rfl
      rw [ordinary] at special
      exact absurd special nofun
    · rintro ⟨plain, -⟩
      rw [plain u mem here] at special
      exact absurd special nofun
  | none =>
    have plain := lastUnconditional_kept_eq_none.mp last
    constructor
    · intro same
      exact ⟨plain, same.symm⟩
    · intro left
      exact left.2.symm

/-- The entry that decides the mapping of `c` is kept, or its mapping is what is left without it:
that of the next conditional entry that holds, or the simple mapping. -/
def Recovered (simple : SimpleMappings) (mapping : Entry → List UInt32) (entries : List Entry)
    (c : UInt32) (lang : List UInt8) (fctx : ForwardCasingContext)
    (lctx : LookaheadCasingContext) : Prop :=
  match firstHolding entries c lang fctx lctx with
  | some e => match firstHolding (keptEntries simple mapping entries) c lang fctx lctx with
    | some k => mapping k = mapping e
    | none => UnconditionalPlain simple mapping entries c ∧ mapping e = simpleOrSelf simple c
  | none => ∀ u, lastUnconditional entries c = some u → plain simple c (mapping u) = true →
      UnconditionalPlain simple mapping entries c ∧ mapping u = simpleOrSelf simple c

theorem specified_kept_iff : specified simple mapping (keptEntries simple mapping entries) c lang
    fctx lctx = specified simple mapping entries c lang fctx lctx ↔
      Recovered simple mapping entries c lang fctx lctx := by
  unfold specified Recovered
  cases first : firstHolding entries c lang fctx lctx with
  | some e =>
    obtain ⟨mem, rfl⟩ := firstHolding_cp first
    cases left : firstHolding (keptEntries simple mapping entries) e.cp lang fctx lctx with
    | some k => exact Iff.rfl
    | none =>
      have ordinary : plain simple e.cp (mapping e) = true := by
        by_contra special
        have keeps := mem_kept mem (Bool.not_eq_true _ ▸ special)
        have holds := List.find?_some first
        exact List.find?_eq_none.mp left e keeps holds
      exact left_eq_iff ordinary
  | none =>
    have left : firstHolding (keptEntries simple mapping entries) c lang fctx lctx = none := by
      rw [firstHolding, List.find?_eq_none] at first ⊢
      exact fun k mem => first k ((filterAfter_sublist _ _).subset mem)
    rw [left]
    cases last : lastUnconditional entries c with
    | none =>
      have plain : UnconditionalPlain simple mapping entries c := fun u mem here => by
        rw [lastUnconditional, List.getLast?_eq_none_iff, List.filter_eq_nil_iff] at last
        exact absurd here (last u mem)
      rw [lastUnconditional_kept_eq_none.mpr plain]
      exact iff_of_true rfl nofun
    | some u =>
      cases ordinary : plain simple c (mapping u) with
      | true =>
        refine (left_eq_iff ordinary).trans ⟨fun left v last _ => ?_, fun all => all u rfl ordinary⟩
        rwa [← Option.some.inj last]
      | false =>
        have stays : lastUnconditional (keptEntries simple mapping entries) c = some u := by
          rw [lastUnconditional, unconditional_kept]
          exact getLast?_filter last (by simp [ordinary])
        rw [stays]
        refine iff_of_true rfl fun v last plain => ?_
        rw [← Option.some.inj last, ordinary] at plain
        exact absurd plain nofun

theorem firstHolding_eq : firstHolding entries c lang fctx lctx =
    (entries.filter Entry.conditional).find? fun e => e.guard.holds c lang fctx lctx := by
  rw [List.find?_filter, firstHolding]
  simp only [Bool.decide_and, Bool.decide_eq_true]

theorem firstHolding_append_of_fail {front back : List Entry}
    (fail : ∀ e ∈ front.filter Entry.conditional, e.guard.holds c lang fctx lctx = false) :
    firstHolding (front ++ back) c lang fctx lctx = firstHolding back c lang fctx lctx := by
  rw [firstHolding_eq, List.filter_append, List.find?_append, List.find?_eq_none.mpr,
    Option.none_or, firstHolding_eq]
  exact fun e mem => by simp [fail e mem]

theorem keptEntries_split (before : List Entry) (e : Entry) (behind : List Entry) :
    keptEntries simple mapping (before ++ e :: behind) = keptEntries simple mapping before ++
      ((if kept simple mapping before e then [e] else []) ++
        filterAfter (kept simple mapping) (before ++ [e]) behind) := by
  rw [keptEntries, filterAfter_append, List.nil_append, keptEntries, filterAfter]
  split <;> rfl

/-- Where an entry that is dropped would be the first to hold, a kept one behind it decides. -/
theorem firstHolding_kept {before behind : List Entry} {e : Entry}
    (fail : ∀ u ∈ before.filter Entry.conditional, u.guard.holds c lang fctx lctx = false)
    (dropped : kept simple mapping before e = false) :
    firstHolding (keptEntries simple mapping (before ++ e :: behind)) c lang fctx lctx =
      (rulesBehind simple mapping (before ++ [e]) behind).find? fun k =>
        k.guard.holds c lang fctx lctx := by
  rw [keptEntries_split, dropped, if_neg nofun, List.nil_append, firstHolding_append_of_fail,
    firstHolding_eq, rulesBehind]
  intro u mem
  exact fail u (((filterAfter_sublist _ _).filter _).subset mem)

theorem firstHolding_here {before behind : List Entry} {e : Entry}
    (fail : ∀ u ∈ before.filter Entry.conditional, u.guard.holds c lang fctx lctx = false)
    (conditional : e.conditional = true) (holds : e.guard.holds c lang fctx lctx = true) :
    firstHolding (before ++ e :: behind) c lang fctx lctx = some e := by
  rw [firstHolding_append_of_fail fail]
  simp [firstHolding, conditional, holds]

section Shadowed

variable {before behind : List Entry} {e : Entry} (conditional : e.conditional = true)
  (dropped : kept simple mapping before e = false)

include conditional dropped

theorem recovered_dropped
    (fail : ∀ u ∈ before.filter Entry.conditional, u.guard.holds e.cp lang fctx lctx = false)
    (holds : e.guard.holds e.cp lang fctx lctx = true) :
    Recovered simple mapping (before ++ e :: behind) e.cp lang fctx lctx =
      match (rulesBehind simple mapping (before ++ [e]) behind).find? fun k =>
        k.guard.holds e.cp lang fctx lctx with
      | some k => mapping k = mapping e
      | none => UnconditionalPlain simple mapping (before ++ e :: behind) e.cp ∧
          mapping e = simpleOrSelf simple e.cp := by
  rw [Recovered, firstHolding_here fail conditional holds, firstHolding_kept fail dropped]

theorem Shadowed.of_recovered (recovered : ∀ lang fctx lctx,
    Recovered simple mapping (before ++ e :: behind) e.cp lang fctx lctx) :
    Shadowed simple mapping before e behind where
  beside mid k rest behindIs := by
    rintro ⟨lang, fctx, lctx, hold, fail⟩
    have left : (rulesBehind simple mapping (before ++ [e]) behind).find?
        (fun k => k.guard.holds e.cp lang fctx lctx) = some k := by
      refine List.find?_eq_some_iff_append.mpr ⟨hold k (by simp), mid, rest, behindIs, ?_⟩
      exact fun u mem => by simp [fail u (List.mem_append_right _ mem)]
    have here := recovered lang fctx lctx
    rw [recovered_dropped conditional dropped (fun u mem => fail u (List.mem_append_left _ mem))
      (hold e (by simp)), left] at here
    exact here
  alone := by
    rintro ⟨lang, fctx, lctx, hold, fail⟩
    have left : (rulesBehind simple mapping (before ++ [e]) behind).find?
        (fun k => k.guard.holds e.cp lang fctx lctx) = none :=
      List.find?_eq_none.mpr fun u mem => by simp [fail u (List.mem_append_right _ mem)]
    have here := recovered lang fctx lctx
    rw [recovered_dropped conditional dropped (fun u mem => fail u (List.mem_append_left _ mem))
      (hold e (by simp)), left] at here
    exact here

theorem Shadowed.recovered (shadowed : Shadowed simple mapping before e behind)
    (fail : ∀ u ∈ before.filter Entry.conditional, u.guard.holds e.cp lang fctx lctx = false)
    (holds : e.guard.holds e.cp lang fctx lctx = true) :
    Recovered simple mapping (before ++ e :: behind) e.cp lang fctx lctx := by
  rw [recovered_dropped conditional dropped fail holds]
  cases left : (rulesBehind simple mapping (before ++ [e]) behind).find?
      fun k => k.guard.holds e.cp lang fctx lctx with
  | some k =>
    obtain ⟨beside, mid, rest, behindIs, skipped⟩ := List.find?_eq_some_iff_append.mp left
    refine shadowed.beside mid k rest behindIs ⟨lang, fctx, lctx, by simp [holds, beside], ?_⟩
    intro u mem
    rcases List.mem_append.mp mem with mem | mem
    · exact fail u mem
    · simpa using skipped u mem
  | none =>
    refine shadowed.alone ⟨lang, fctx, lctx, by simp [holds], ?_⟩
    intro u mem
    rcases List.mem_append.mp mem with mem | mem
    · exact fail u mem
    · simpa using List.find?_eq_none.mp left u mem

end Shadowed

/-- What is said of each entry is what every codepoint needs in every language and context. -/
theorem droppable_iff : Droppable simple mapping entries ↔
    (∀ e ∈ entries, mapping e = [] → simple e.cp = none) ∧
      ∀ c lang fctx lctx, Recovered simple mapping entries c lang fctx lctx := by
  constructor
  · intro droppable
    refine ⟨droppable.nonempty, fun c lang fctx lctx => ?_⟩
    cases first : firstHolding entries c lang fctx lctx with
    | some e =>
      obtain ⟨-, rfl⟩ := firstHolding_cp first
      obtain ⟨holds, before, behind, rfl, fail⟩ := List.find?_eq_some_iff_append.mp first
      simp only [Bool.and_eq_true] at holds
      have failed : ∀ u ∈ before.filter Entry.conditional,
          u.guard.holds e.cp lang fctx lctx = false := by
        intro u mem
        obtain ⟨mem, conditional⟩ := List.mem_filter.mp mem
        simpa [conditional] using fail u mem
      cases keeps : kept simple mapping before e with
      | false =>
        have shadowed := droppable.conditional before e behind rfl holds.1 keeps
        exact shadowed.recovered holds.1 keeps failed holds.2
      | true =>
        have stays : firstHolding (keptEntries simple mapping (before ++ e :: behind)) e.cp lang
            fctx lctx = some e := by
          rw [keptEntries_split, keeps, if_pos rfl, List.singleton_append]
          refine firstHolding_here (fun u mem => ?_) holds.1 holds.2
          exact failed u (((filterAfter_sublist _ _).filter _).subset mem)
        rw [Recovered, first, stays]
    | none =>
      rw [Recovered, first]
      intro u last ordinary
      refine droppable.unconditional c u last ordinary ⟨lang, fctx, lctx, nofun, fun v mem => ?_⟩
      rw [firstHolding_eq] at first
      simpa using List.find?_eq_none.mp first v mem
  · rintro ⟨nonempty, recovered⟩
    refine ⟨nonempty, ?_, ?_⟩
    · rintro before e behind rfl conditional dropped
      exact Shadowed.of_recovered conditional dropped (recovered e.cp)
    · rintro c u last ordinary ⟨lang, fctx, lctx, -, fail⟩
      have here := recovered c lang fctx lctx
      have first : firstHolding entries c lang fctx lctx = none := by
        rw [firstHolding_eq]
        exact List.find?_eq_none.mpr fun v mem => by simp [fail v mem]
      rw [Recovered, first] at here
      exact here u last ordinary

end Dropped

end Direction

theorem main_eq_some {simpleLower simpleUpper : SimpleMappings} {entries : List Entry}
    {lower upper : Special} : main simpleLower simpleUpper entries = some (lower, upper) ↔
      entries.foldlM (Special.add simpleLower Entry.lower) .empty = some lower ∧
        entries.foldlM (Special.add simpleUpper Entry.upper) .empty = some upper := by
  rw [main, foldlM_pair]
  simp [Option.bind_eq_some_iff]

/-- The header is written, and its functions say what the entries say, if and only if what is
dropped in each direction can be told from what is kept. -/
theorem written_iff (simpleLower simpleUpper : SimpleMappings) (entries : List Entry) :
    (∃ lower upper, main simpleLower simpleUpper entries = some (lower, upper) ∧
      ∀ c lang fctx lctx,
        writeSpecialMapping simpleLower lower c lang fctx lctx =
          specified simpleLower Entry.lower entries c lang fctx lctx ∧
        writeSpecialMapping simpleUpper upper c lang fctx lctx =
          specified simpleUpper Entry.upper entries c lang fctx lctx) ↔
      Droppable simpleLower Entry.lower entries ∧ Droppable simpleUpper Entry.upper entries := by
  simp only [main_eq_some, droppable_iff]
  constructor
  · rintro ⟨lower, upper, ⟨collectedLower, collectedUpper⟩, agree⟩
    have nonemptyLower := nonempty_of_collect collectedLower
    have nonemptyUpper := nonempty_of_collect collectedUpper
    rw [collect_eq nonemptyLower, Option.some.injEq] at collectedLower
    rw [collect_eq nonemptyUpper, Option.some.injEq] at collectedUpper
    subst collectedLower collectedUpper
    simp only [writeSpecialMapping_eq, specified_kept_iff] at agree
    exact ⟨⟨nonemptyLower, fun c lang fctx lctx => (agree c lang fctx lctx).1⟩,
      ⟨nonemptyUpper, fun c lang fctx lctx => (agree c lang fctx lctx).2⟩⟩
  · rintro ⟨⟨nonemptyLower, lower⟩, nonemptyUpper, upper⟩
    refine ⟨_, _, ⟨collect_eq nonemptyLower, collect_eq nonemptyUpper⟩, ?_⟩
    simp only [writeSpecialMapping_eq, specified_kept_iff]
    exact fun c lang fctx lctx => ⟨lower c lang fctx lctx, upper c lang fctx lctx⟩

/-- The Turkic rule that deletes a dot above after an `I` is not written. -/
theorem drops_after_i :
    ∃ lower upper, main (fun _ => none) (fun _ => none)
        [⟨0x307, [], [0x307], some .tr, some .afterI⟩] = some (lower, upper) ∧
      writeSpecialMapping (fun _ => none) lower 0x307 Language.tr.tag { afterI := true } {} =
        [0x307] ∧
      specified (fun _ => none) Entry.lower [⟨0x307, [], [0x307], some .tr, some .afterI⟩] 0x307
        Language.tr.tag { afterI := true } {} = [] :=
  ⟨_, _, rfl, by decide, by decide⟩

end LibCxxExt.Workflows.GenerateUnicodeCasing
