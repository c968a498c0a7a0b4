import LibCxxExt.Workflows.GeneratedText

/-! The C++ text of `write_special_mapping` (`generate_unicode_casing.py`): a chain of conditions on
the language and the contexts, and a `switch`. Every block stores a mapping and returns its
length. -/

namespace LibCxxExt.Workflows

open LibCxxExt.ProofKit LibCxxExt.ProofKit.Python LibCxxExt.ProofKit.Cxx LibCxxExt.Text

/-- An entry of a list of conditional mappings. -/
structure SpecialEntry where
  cp : Int
  mapping : List Int
  language : Option Language
  condition : Option Condition
  deriving DecidableEq

/-- `CONDITION_MAP`. -/
def conditionExpr : Condition → List Char
  | .finalSigma => "fctx.is_preceded_by_cased && !lctx.followed_by_cased".toList
  | .afterSoftDotted => "fctx.after_soft_dotted".toList
  | .moreAbove => "lctx.more_above".toList
  | .afterI => "fctx.after_i".toList
  | .beforeDot => "lctx.before_dot".toList
  | .notBeforeDot => "!lctx.before_dot".toList

def languageLiteral : Language → List Char
  | .tr => "u8\"tr\"".toList
  | .az => "u8\"az\"".toList
  | .lt => "u8\"lt\"".toList

/-- The stores of a mapping and its length. An empty mapping leaves an empty line. -/
def writeBlock (mapping : List Int) : Option (List Char) := do
  let literals ← mapping.mapM literal
  let assignments := if literals.isEmpty then ['\n'] else literals.zipIdx.flatMap fun store =>
    "            out[".toList ++ (numeral 10 store.2 ++ ("] = ".toList ++ (store.1 ++ ";\n".toList)))
  return assignments ++ ("            return ".toList ++
    (numeral 10 mapping.length ++ ['_', 'u', 'z'] ++ ";\n".toList))

def writeEntry (e : SpecialEntry) : Option (List Char) := do
  let langExpr := e.language.toList.flatMap (" && lang == ".toList ++ languageLiteral ·)
  let condExpr := e.condition.toList.flatMap (" && ".toList ++ conditionExpr ·)
  return "        if (c == ".toList ++ ((← literal e.cp) ++ (langExpr ++ (condExpr ++
    ")\n        \x7b\n".toList))) ++ ((← writeBlock e.mapping) ++ "        \x7d\n".toList)

def contextParameters : List Char :=
  " [[maybe_unused]] const sys::forward_casing_context& fctx,".toList ++
    " [[maybe_unused]] const sys::lookahead_casing_context& lctx,".toList

def specialParameters (isFold : Bool) : List Char :=
  "char32_t out[], const char32_t c, const std::u8string_view lang,".toList ++
    ((if isFold then [] else contextParameters) ++ " decltype(unsafe))\n    \x7b\n".toList)

def writeSpecialMapping (name : List Char) (entries : List SpecialEntry)
    (unconditional : Dict (List Int)) (simpleFunc : List Char) (isFold : Bool) :
    Option (List Char) := do
  let chain ← entries.mapM writeEntry
  let cases ← unconditional.sorted.mapM fun (cp, cpList) => do
    return "        case ".toList ++ ((← literal cp) ++ [':', '\n']) ++ (← writeBlock cpList)
  return "    /// @internal\n    /// @ingroup sys_internal\n    constexpr ".toList ++
    ("sz".toList ++ ' ' :: (name ++ '(' :: specialParameters isFold)) ++
    (chain.flatten ++ ("        switch (c)\n        \x7b\n".toList ++ (cases.flatten ++
    ("        default:\n".toList ++ ("            out[0] = ".toList ++
    (simpleFunc ++ ['(', 'c', ')', ';', '\n']) ++
    ("            return ".toList ++ ("1_uz".toList ++ ";\n".toList) ++
    ("        \x7d\n".toList ++ "    \x7d\n".toList)))))))

/-! ### Conditions -/

/-- The value of a literal with the prefix `u8`. -/
def stringLiteral : Token → Option (List UInt8)
  | 'u' :: '8' :: '"' :: s =>
    if s.getLast? = some '"' then some (s.dropLast.map fun c => UInt8.ofNat c.toNat) else none
  | _ => none

/-- The members of the contexts. -/
def member (fctx : ForwardCasingContext) (lctx : LookaheadCasingContext) (object field : Token) :
    Option Bool :=
  if object = "fctx".toList then
    if field = "is_preceded_by_cased".toList then some fctx.isPrecededByCased
    else if field = "after_soft_dotted".toList then some fctx.afterSoftDotted
    else if field = "after_i".toList then some fctx.afterI
    else none
  else if object = "lctx".toList then
    if field = "followed_by_cased".toList then some lctx.followedByCased
    else if field = "more_above".toList then some lctx.moreAbove
    else if field = "before_dot".toList then some lctx.beforeDot
    else none
  else none

/-- The arguments of a special mapping function, of which one for folding has no contexts. -/
structure Arguments where
  c : UInt32
  lang : List UInt8
  contexts : Option (ForwardCasingContext × LookaheadCasingContext)

def Arguments.holds (args : Arguments) : List Token → Option Bool
  | [object, ['='], ['='], literal] =>
    if object = "lang".toList then (stringLiteral literal).map (args.lang == ·) else none
  | [object, ['.'], field] => args.contexts.bind fun (fctx, lctx) => member fctx lctx object field
  | [['!'], object, ['.'], field] =>
    args.contexts.bind fun (fctx, lctx) => (member fctx lctx object field).map not
  | _ => none

def Arguments.env (args : Arguments) (call : Token → Option (UInt32 → UInt32)) : Env :=
  ⟨args.c, call, args.holds⟩

def languageAtom (l : Language) : List Token := ["lang".toList, ['='], ['='], languageLiteral l]

def conditionAtoms : Condition → List (List Token)
  | .finalSigma => [["fctx".toList, ['.'], "is_preceded_by_cased".toList],
      [['!'], "lctx".toList, ['.'], "followed_by_cased".toList]]
  | .afterSoftDotted => [["fctx".toList, ['.'], "after_soft_dotted".toList]]
  | .moreAbove => [["lctx".toList, ['.'], "more_above".toList]]
  | .afterI => [["fctx".toList, ['.'], "after_i".toList]]
  | .beforeDot => [["lctx".toList, ['.'], "before_dot".toList]]
  | .notBeforeDot => [[['!'], "lctx".toList, ['.'], "before_dot".toList]]

/-- What `&&` joins to the comparison of `c`. -/
def SpecialEntry.atoms (e : SpecialEntry) : List (List Token) :=
  e.language.toList.map languageAtom ++ e.condition.toList.flatMap conditionAtoms

theorem lexes_language (l : Language) :
    Lexes (" && lang == ".toList ++ languageLiteral l) (['&'] :: ['&'] :: languageAtom l) := by
  cases l <;> decide

theorem lexes_condition (cond : Option Condition) :
    Lexes (cond.toList.flatMap (" && ".toList ++ conditionExpr ·) ++ ")\n        \x7b\n".toList)
      ((cond.toList.flatMap conditionAtoms).flatMap (['&'] :: ['&'] :: ·) ++ [[')'], ['{']]) := by
  cases cond with
  | none => decide
  | some cond => cases cond <;> decide

theorem lexes_atoms (e : SpecialEntry) :
    Lexes (e.language.toList.flatMap (" && lang == ".toList ++ languageLiteral ·) ++
      (e.condition.toList.flatMap (" && ".toList ++ conditionExpr ·) ++
        ")\n        \x7b\n".toList))
      (e.atoms.flatMap (['&'] :: ['&'] :: ·) ++ [[')'], ['{']]) := by
  rw [SpecialEntry.atoms, List.flatMap_append, List.flatMap_map, List.append_assoc]
  exact (Lexes.flatMap fun l _ => lexes_language l).append (lexes_condition e.condition)

theorem atoms_plain (e : SpecialEntry) : ∀ atom ∈ e.atoms, ∀ t ∈ atom,
    t ≠ ['&'] ∧ t ≠ [';'] ∧ t ≠ ['{'] ∧ t ≠ ['}'] := by
  have language : ∀ l : Language, ∀ t ∈ languageAtom l,
      t ≠ ['&'] ∧ t ≠ [';'] ∧ t ≠ ['{'] ∧ t ≠ ['}'] := by
    intro l
    cases l <;> decide
  have condition : ∀ cond : Condition, ∀ atom ∈ conditionAtoms cond, ∀ t ∈ atom,
      t ≠ ['&'] ∧ t ≠ [';'] ∧ t ≠ ['{'] ∧ t ≠ ['}'] := by
    intro cond
    cases cond <;> decide
  intro atom mem
  simp only [SpecialEntry.atoms, List.mem_append, List.mem_map, List.mem_flatMap] at mem
  rcases mem with ⟨l, -, rfl⟩ | ⟨cond, -, mem⟩
  · exact language l
  · exact condition cond atom mem

section Guard

variable (e : SpecialEntry) (args : Arguments) (call : Token → Option (UInt32 → UInt32))

/-- The rule that an entry stands for. -/
def SpecialEntry.rule : Rule := ⟨⟨char32 e.cp, e.language, e.condition⟩, e.mapping.map char32⟩

/-- The contexts, which a function without them does not ask for. -/
def Arguments.fctx : ForwardCasingContext := (args.contexts.map Prod.fst).getD {}

def Arguments.lctx : LookaheadCasingContext := (args.contexts.map Prod.snd).getD {}

def SpecialEntry.holds : Bool := e.rule.holds args.c args.lang args.fctx args.lctx

theorem conjunction_language (l : Option Language) :
    (args.env call).conjunction (l.toList.map languageAtom) =
      some (l.all fun l => args.lang == l.tag) := by
  cases l with
  | none => rfl
  | some l =>
    refine conjunction_one ?_
    cases l <;> rfl

theorem conjunction_condition {contexts : ForwardCasingContext × LookaheadCasingContext}
    (given : args.contexts = some contexts) (cond : Condition) :
    (args.env call).conjunction (conditionAtoms cond) = some (cond.eval args.fctx args.lctx) := by
  obtain ⟨c, lang, _⟩ := args
  obtain rfl := given
  cases cond with
  | finalSigma => exact conjunction_append (conjunction_one rfl) (conjunction_one rfl)
  | _ => exact conjunction_one rfl

def SpecialEntry.condTokens : List Token :=
  ['('] ::
    ([['c'], ['='], ['='], spelling e.cp] ++ e.atoms.flatMap (['&'] :: ['&'] :: ·) ++ [[')']])

/-- The condition of an entry is the guard of its rule. -/
theorem condition_holds (scalar : IsCodepoint e.cp)
    (given : args.contexts = none → e.condition = none) :
    (args.env call).condition e.condTokens = some (e.holds args) := by
  obtain ⟨-, names, -⟩ := literal_spec scalar
  have compares : (args.env call).atom [['c'], ['='], ['='], spelling e.cp] =
      some (args.c == char32 e.cp) := by
    rw [Env.atom, names]
    rfl
  have condition : (args.env call).conjunction (e.condition.toList.flatMap conditionAtoms) =
      some (e.condition.all (·.eval args.fctx args.lctx)) := by
    cases cond : e.condition with
    | none => rfl
    | some cond' =>
      obtain ⟨contexts, known⟩ := Option.ne_none_iff_exists'.mp fun none => by
        simp [cond] at given
        exact given none
      simpa using conjunction_condition args call known cond'
  have plain : ∀ atom ∈ [['c'], ['='], ['='], spelling e.cp] :: e.atoms, ['&'] ∉ atom := by
    intro atom mem
    rcases List.mem_cons.mp mem with rfl | mem
    · have other : spelling e.cp ≠ ['&'] := by
        intro same
        rw [same] at names
        exact nomatch names
      simpa using other.symm
    · exact fun inside => (atoms_plain e atom mem _ inside).1 rfl
  have rest := conjunction_append (conjunction_language args call e.language) condition
  rw [SpecialEntry.condTokens, condition_eq plain]
  refine (conjunction_append (conjunction_one compares) rest).trans ?_
  rw [← Bool.and_assoc]
  rfl

end Guard

/-! ### Blocks -/

/-- The statements of `writeBlock`. -/
def blockStatements (mapping : List Int) : List Statement :=
  mapping.zipIdx.map (fun store => .store store.2 [spelling store.1]) ++
    [.return [numeral 10 mapping.length ++ ['_', 'u', 'z']]]

theorem blockStatements_returns (mapping : List Int) : Returns (blockStatements mapping) :=
  ⟨mapping.zipIdx.map fun store => (store.2, [spelling store.1]), _, by
    rw [blockStatements, List.map_map]
    rfl⟩

theorem isValue_size (n : Nat) :
    IsValue (numeral 10 n ++ ['_', 'u', 'z']) [numeral 10 n ++ ['_', 'u', 'z']] := by
  have word : IsName (numeral 10 n ++ ['_', 'u', 'z']) := by
    obtain ⟨-, nonempty, digits⟩ := decimal_numeral n
    refine ⟨by simp [nonempty], fun c mem => ?_⟩
    rcases List.mem_append.mp mem with digit | suffix_
    · exact digits c digit
    · exact (by decide : IsName ['_', 'u', 'z']).2 c suffix_
  have stop : Lexes (';' :: ['\n']) [[';']] := by decide
  have apart := word_apart word.2
  exact ⟨.word word.1 word.2 (by decide) stop, by simpa using ⟨apart.1, apart.2.1, apart.2.2.1⟩⟩

theorem reads_store {cp : Int} (scalar : IsCodepoint cp) (index : Nat) :
    Reads ("            out[".toList ++
      (numeral 10 index ++ ("] = ".toList ++ (spelling cp ++ ";\n".toList))))
      [.store index [spelling cp]] := by
  obtain ⟨-, names, lexes⟩ := literal_spec scalar
  obtain ⟨value, nonempty, digits⟩ := decimal_numeral index
  have front : Lexes "            out[".toList ["out".toList, ['[']] := by decide
  have equals : Lexes (']' :: [' ', '=', ' ']) [[']'], ['=']] := by decide
  have stop : Lexes ";\n".toList [[';']] := by decide
  have whole : Lexes _ (["out".toList, ['['], numeral 10 index, [']'], ['='], spelling cp] ++
      [[';']]) := front.append ((Lexes.word nonempty digits (by decide) equals).append
    (lexes.append stop))
  rw [List.append_assoc (numeral 10 index)] at whole
  have number := word_apart digits
  have literal_ := charLiteral_apart names
  refine whole.reads (.of_plain ?_ ?_) ?_ ?_
  · simp only [List.forall_mem_cons]
    exact ⟨by decide, by decide, ⟨number.1, number.2.1, number.2.2.1⟩, by decide, by decide,
      ⟨literal_.1, literal_.2.1, literal_.2.2.1⟩, by decide⟩
  · exact fun label => absurd label (by simp [isLabel])
  · simp [isStop]
  · simp [readStatement, keyword, value]

theorem lexes_return_line : Lexes "            return ".toList ["return".toList] := by decide

theorem reads_block {mapping : List Int} (scalars : ∀ cp ∈ mapping, IsCodepoint cp) :
    ∃ text, writeBlock mapping = some text ∧ Reads text (blockStatements mapping) := by
  have literals : mapping.mapM literal = some (mapping.map spelling) :=
    mapM_eq fun cp mem => (literal_spec (scalars cp mem)).1
  have stores : Reads (if (mapping.map spelling).isEmpty then ['\n'] else
      (mapping.map spelling).zipIdx.flatMap fun store => "            out[".toList ++
        (numeral 10 store.2 ++ ("] = ".toList ++ (store.1 ++ ";\n".toList))))
      (mapping.zipIdx.map fun store => .store store.2 [spelling store.1]) := by
    cases mapping with
    | nil => exact Lexes.reads_nil (by decide)
    | cons cp cps =>
      rw [List.map_cons, List.isEmpty_cons, if_neg Bool.false_ne_true, ← List.map_cons,
        List.zipIdx_map, List.flatMap_map, List.map_eq_flatMap]
      exact .flatMap fun store mem =>
        reads_store (scalars _ (List.fst_mem_of_mem_zipIdx mem)) store.2
  refine ⟨_, ?_, stores.append (reads_return lexes_return_line (isValue_size mapping.length))⟩
  rw [writeBlock, literals]
  rfl

theorem reads_test {e : SpecialEntry} (scalar : IsCodepoint e.cp) :
    Reads ("        if (c == ".toList ++ (spelling e.cp ++
      (e.language.toList.flatMap (" && lang == ".toList ++ languageLiteral ·) ++
        (e.condition.toList.flatMap (" && ".toList ++ conditionExpr ·) ++
          ")\n        \x7b\n".toList)))) [.test e.condTokens] := by
  obtain ⟨-, names, lexes⟩ := literal_spec scalar
  have front : Lexes "        if (c == ".toList ["if".toList, ['('], ['c'], ['='], ['=']] := by
    decide
  have whole := front.append (lexes.append (lexes_atoms e))
  have apart := charLiteral_apart names
  have tokens : ["if".toList, ['('], ['c'], ['='], ['=']] ++ ([spelling e.cp] ++
      (e.atoms.flatMap (['&'] :: ['&'] :: ·) ++ [[')'], ['{']])) =
        ("if".toList :: e.condTokens) ++ [['{']] := by
    simp [SpecialEntry.condTokens]
  rw [tokens] at whole
  refine whole.reads (.of_plain ?_ ?_) ?_ ?_
  · have atoms : ∀ t ∈ e.atoms.flatMap (['&'] :: ['&'] :: ·),
        t ≠ [';'] ∧ t ≠ ['{'] ∧ t ≠ ['}'] := by
      simp only [List.mem_flatMap, List.mem_cons]
      rintro t ⟨atom, mem, rfl | rfl | inside⟩
      · decide
      · decide
      · exact (atoms_plain e atom mem t inside).2
    rw [SpecialEntry.condTokens]
    simp only [List.forall_mem_cons, List.forall_mem_append]
    exact ⟨by decide, by decide, ⟨⟨by decide, by decide, by decide,
      ⟨apart.1, apart.2.1, apart.2.2.1⟩, by decide⟩, atoms⟩, by decide, by decide⟩
  · exact fun label => absurd label (by simp [isLabel])
  · simp [isStop]
  · simp [readStatement, keyword]

/-- The statements of `writeEntry`. -/
def entryStatements (e : SpecialEntry) : List Statement :=
  .test e.condTokens :: (blockStatements e.mapping ++ [.close])

theorem reads_entry {e : SpecialEntry} (scalar : IsCodepoint e.cp)
    (scalars : ∀ cp ∈ e.mapping, IsCodepoint cp) :
    ∃ text, writeEntry e = some text ∧ Reads text (entryStatements e) := by
  obtain ⟨block, written, reads⟩ := reads_block scalars
  have close : Reads "        \x7d\n".toList [.close] := reads_close (by decide)
  refine ⟨_, ?_, (reads_test scalar).append (reads.append close)⟩
  rw [writeEntry, written, (literal_spec scalar).1]
  rfl

/-! ### The function -/

theorem getD_of_exists {o : Option (List Char)} {p : List Char → Prop}
    (h : ∃ text, o = some text ∧ p text) : o = some (o.getD []) ∧ p (o.getD []) := by
  obtain ⟨text, rfl, holds⟩ := h
  exact ⟨rfl, holds⟩

theorem exec_block {mapping : List Int} (scalars : ∀ cp ∈ mapping, IsCodepoint cp) (env : Env) :
    exec env .on (blockStatements mapping) =
      some ((mapping.map char32).zipIdx.map Prod.swap, .size mapping.length) := by
  rw [blockStatements, exec_stores fun store mem => value_spelling
    (scalars store.1 (List.fst_mem_of_mem_zipIdx mem)) env, env.value_size, Option.map_some,
    List.zipIdx_map, List.map_map]
  rfl

section Function

variable {name simpleFunc : List Char} {entries : List SpecialEntry}
  {unconditional : Dict (List Int)}

theorem reads_call (simpleNamed : IsName simpleFunc) :
    Reads ("            out[0] = ".toList ++ (simpleFunc ++ ['(', 'c', ')', ';', '\n']))
      [.store 0 [simpleFunc, ['('], ['c'], [')']]] := by
  have front : Lexes "            out[0] = ".toList
      ["out".toList, ['['], ['0'], [']'], ['=']] := by decide
  have back : Lexes ['(', 'c', ')', ';', '\n'] ([['('], ['c'], [')']] ++ [[';']]) := by decide
  have whole : Lexes _
      (["out".toList, ['['], ['0'], [']'], ['='], simpleFunc, ['('], ['c'], [')']] ++ [[';']]) :=
    front.append (.word simpleNamed.1 simpleNamed.2 (by decide) back)
  have apart := word_apart simpleNamed.2
  refine whole.reads (.of_plain ?_ ?_) ?_ ?_
  · simp only [List.forall_mem_cons]
    exact ⟨by decide, by decide, by decide, by decide, by decide,
      ⟨apart.1, apart.2.1, apart.2.2.1⟩, by decide, by decide, by decide, by decide⟩
  · exact fun label => absurd label (by simp [isLabel])
  · simp [isStop]
  · simp [readStatement, keyword, decimal]

/-- The tokens of the parameters in front of the body. -/
def specialTokens (isFold : Bool) : List Token :=
  ((lex ('(' :: specialParameters isFold)).drop 1).dropLast

theorem lexes_specialParameters (isFold : Bool) :
    Lexes ('(' :: specialParameters isFold) (['('] :: (specialTokens isFold ++ [['{']])) ∧
      ∀ t ∈ specialTokens isFold, t ≠ [';'] ∧ t ≠ ['{'] ∧ t ≠ ['}'] := by
  cases isFold <;> decide +kernel

/-- The statements of `writeSpecialMapping`. -/
def specialStatements (entries : List SpecialEntry) (unconditional : Dict (List Int))
    (simpleFunc : List Char) : List Statement :=
  entries.flatMap entryStatements ++ switchStatements ((sortedPoints unconditional.keys).map
    fun cp => (char32 cp, blockStatements (unconditional.value cp)))
    [.store 0 [simpleFunc, ['('], ['c'], [')']], .return ["1_uz".toList]]

theorem read_special (named : IsName name) (simpleNamed : IsName simpleFunc) (isFold : Bool)
    (scalars : ∀ e ∈ entries, IsCodepoint e.cp ∧ ∀ cp ∈ e.mapping, IsCodepoint cp)
    (scalars' : ∀ cp ∈ unconditional.keys, IsCodepoint cp ∧
      ∀ mapped ∈ unconditional.value cp, IsCodepoint mapped) :
    ∃ text, writeSpecialMapping name entries unconditional simpleFunc isFold = some text ∧
      readFunction text = some (name, specialStatements entries unconditional simpleFunc) := by
  have each (e : SpecialEntry) (mem : e ∈ entries) :=
    getD_of_exists (reads_entry (scalars e mem).1 (scalars e mem).2)
  have blocks (cp : Int) (mem : cp ∈ unconditional.keys) :=
    getD_of_exists (reads_block (scalars' cp mem).2)
  have chain : Reads ((entries.map fun e => (writeEntry e).getD []).flatten)
      (entries.flatMap entryStatements) := by
    rw [← List.flatMap_def]
    exact .flatMap fun e mem => (each e mem).2
  have cases : Reads (((sortedPoints unconditional.keys).map fun cp => "        case ".toList ++
      (spelling cp ++ [':', '\n']) ++ (writeBlock (unconditional.value cp)).getD []).flatten)
      ((sortedPoints unconditional.keys).flatMap fun cp =>
        .label (char32 cp) :: blockStatements (unconditional.value cp)) := by
    rw [← List.flatMap_def]
    refine .flatMap fun cp mem => ?_
    have known := mem_sortedPoints.mp mem
    obtain ⟨-, names, lexes⟩ := literal_spec (scalars' cp known).1
    exact (reads_case names lexes (by decide)).append (blocks cp known).2
  have default_ : Reads "        default:\n".toList [.default] := by
    have lexes : Lexes "        default:\n".toList (["default".toList] ++ [[':']]) := by decide
    exact lexes.reads (.of_plain (by decide) (by decide)) (by decide) (by decide)
  have call : Reads ("            out[0] = ".toList ++ (simpleFunc ++ ['(', 'c', ')', ';', '\n']))
      [.store 0 [simpleFunc, ['('], ['c'], [')']]] := reads_call simpleNamed
  have one : IsValue "1_uz".toList ["1_uz".toList] := ⟨by decide, by decide⟩
  have body := chain.append (reads_switch.append (cases.append (default_.append (call.append
    ((reads_return lexes_return_line one).append reads_closes)))))
  have typed : IsType "sz".toList ["sz".toList] := ⟨by decide, by decide⟩
  obtain ⟨parameters, plain⟩ := lexes_specialParameters isFold
  rw [specialStatements, switchStatements, List.flatMap_map]
  refine ⟨_, ?_, readFunction_head typed named parameters plain body⟩
  rw [writeSpecialMapping, mapM_eq fun e mem => (each e mem).1,
    unconditional.mapM_sorted (g := fun cp => "        case ".toList ++
      (spelling cp ++ [':', '\n']) ++ (writeBlock (unconditional.value cp)).getD [])]
  · rfl
  · intro cp mem
    simp only [(literal_spec (scalars' cp mem).1).1]
    rw [(blocks cp mem).1]
    rfl

theorem cases_return : ∀ case ∈ (sortedPoints unconditional.keys).map
    fun cp => (char32 cp, blockStatements (unconditional.value cp)), Returns case.2 := by
  simp only [List.mem_map, forall_exists_index, and_imp]
  rintro case cp - rfl
  exact blockStatements_returns _

theorem default_returns (simpleFunc : List Char) :
    Returns [.store 0 [simpleFunc, ['('], ['c'], [')']], .return ["1_uz".toList]] :=
  ⟨[(0, [simpleFunc, ['('], ['c'], [')']])], _, rfl⟩

theorem labels_special (entries : List SpecialEntry) (simpleFunc : List Char) :
    labels (specialStatements entries unconditional simpleFunc) =
      (sortedPoints unconditional.keys).map char32 := by
  rw [specialStatements]
  refine (labels_tests (fun e _ => blockStatements_returns e.mapping) _).trans ?_
  rw [labels_switchStatements cases_return (default_returns simpleFunc), List.map_map]
  rfl

theorem exec_special {args : Arguments} {call : Token → Option (UInt32 → UInt32)}
    {simple : UInt32 → UInt32} (called : call simpleFunc = some simple)
    (scalars : ∀ e ∈ entries, IsCodepoint e.cp ∧ ∀ cp ∈ e.mapping, IsCodepoint cp)
    (scalars' : ∀ cp ∈ unconditional.keys, IsCodepoint cp ∧
      ∀ mapped ∈ unconditional.value cp, IsCodepoint mapped)
    (contexts : ∀ e ∈ entries, args.contexts = none → e.condition = none) :
    ∃ mapping, mapping = specialMapping (entries.map SpecialEntry.rule)
        (unconditional.table (·.map char32)) simple args.c args.lang args.fctx args.lctx ∧
      exec (args.env call) .on (specialStatements entries unconditional simpleFunc) =
        some (mapping.zipIdx.map Prod.swap, .size mapping.length) := by
  refine ⟨_, rfl, ?_⟩
  rw [specialStatements]
  refine (exec_tests (fun e mem => ⟨blockStatements_returns e.mapping,
    condition_holds e args call (scalars e mem).1 (contexts e mem)⟩) _).trans ?_
  rw [specialMapping, List.find?_map]
  have same : ((fun rule : Rule => rule.holds args.c args.lang args.fctx args.lctx) ∘
      SpecialEntry.rule) = fun e => e.holds args := rfl
  rw [same]
  cases found : entries.find? fun e => e.holds args with
  | some e =>
    have mem := List.mem_of_find?_eq_some found
    refine (exec_block (scalars e mem).2 _).trans ?_
    rw [← List.length_map char32]
    rfl
  | none =>
    refine (exec_switch cases_return (default_returns simpleFunc)).trans ?_
    rw [lookup_keys fun cp mem => (scalars' cp (mem_sortedPoints.mp mem)).1, Dict.table, Dict.get]
    simp only [mem_sortedPoints]
    by_cases mem : (args.c.toNat : Int) ∈ unconditional.keys
    · have run := exec_block (scalars' _ mem).2 (args.env call)
      rw [← List.length_map char32] at run
      simpa [Arguments.env, mem] using run
    · have value : (args.env call).value [simpleFunc, ['('], ['c'], [')']] =
          some (.char (simple args.c)) := by
        rw [Env.value]
        simp [Arguments.env, called]
      have one : (args.env call).value ["1_uz".toList] = some (.size 1) := by
        have written : "1_uz".toList = numeral 10 1 ++ ['_', 'u', 'z'] := by decide
        rw [written, Env.value_size]
      have run : exec (args.env call) .on [.store 0 [simpleFunc, ['('], ['c'], [')']],
          .return ["1_uz".toList]] = some ([(0, simple args.c)], .size 1) := by
        rw [exec_store, value]
        simp only [exec_return, one, Option.map_some]
      simpa [Arguments.env, mem] using run

/-- Where all codepoints are scalar values, and no entry of folding has a condition, the function
that is written stores what the rules and tables say, in order from index 0 on, and returns how many
codepoints that are. No `case` stands in it twice. -/
theorem special_mapping_text (named : IsName name) (simpleNamed : IsName simpleFunc) (isFold : Bool)
    (scalars : ∀ e ∈ entries, IsCodepoint e.cp ∧ ∀ cp ∈ e.mapping, IsCodepoint cp)
    (scalars' : ∀ cp cps, unconditional.get cp = some cps →
      IsCodepoint cp ∧ ∀ mapped ∈ cps, IsCodepoint mapped)
    (noContexts : isFold = true → ∀ e ∈ entries, e.condition = none) :
    ∃ text statements,
      writeSpecialMapping name entries unconditional simpleFunc isFold = some text ∧
      readFunction text = some (name, statements) ∧ (labels statements).Nodup ∧
      ∀ (args : Arguments) (call : Token → Option (UInt32 → UInt32)) (simple : UInt32 → UInt32),
        call simpleFunc = some simple → (args.contexts = none → isFold = true) →
        ∃ mapping, mapping = specialMapping (entries.map SpecialEntry.rule)
            (unconditional.table (·.map char32)) simple args.c args.lang args.fctx args.lctx ∧
          exec (args.env call) .on statements =
            some (mapping.zipIdx.map Prod.swap, .size mapping.length) := by
  have known (cp : Int) (mem : cp ∈ unconditional.keys) := scalars' cp _ (Dict.get_of_mem mem)
  have keys : ∀ cp ∈ sortedPoints unconditional.keys, IsCodepoint cp :=
    fun cp mem => (known cp (mem_sortedPoints.mp mem)).1
  obtain ⟨text, written, read⟩ := read_special named simpleNamed isFold scalars known
  refine ⟨text, _, written, read, ?_, fun args call simple called contexts => ?_⟩
  · rw [labels_special]
    exact (nodup_sortedPoints _).map_on fun cp mem cp' mem' =>
      (char32_inj (keys cp mem) (keys cp' mem')).mp
  · exact exec_special called scalars known fun e mem none =>
      noContexts (contexts none) e mem

end Function

/-- `I` loses its dot for `tr` and not in front of a dot, and the ligature U+FB00 is taken apart. -/
theorem special_mapping_text_dotless : ∃ text statements,
    writeSpecialMapping "dchar_to_lower_special".toList
      [⟨0x49, [0x131], some .tr, some .notBeforeDot⟩] (Dict.empty.set 0xFB00 [0x66, 0x66])
      "dchar_to_lower_simple".toList false = some text ∧
    readFunction text = some ("dchar_to_lower_special".toList, statements) ∧
    exec (Arguments.env ⟨0x49, [0x74, 0x72], some ({}, {})⟩ fun _ => some id) .on statements =
      some ([(0, 0x131)], .size 1) ∧
    exec (Arguments.env ⟨0xFB00, [], some ({}, {})⟩ fun _ => some id) .on statements =
      some ([(0, 0x66), (1, 0x66)], .size 2) := by
  obtain ⟨text, statements, written, read, -, meaning⟩ := special_mapping_text
    (by decide : IsName "dchar_to_lower_special".toList)
    (by decide : IsName "dchar_to_lower_simple".toList) false
    (show ∀ e ∈ [(⟨0x49, [0x131], some .tr, some .notBeforeDot⟩ : SpecialEntry)],
      IsCodepoint e.cp ∧ ∀ cp ∈ e.mapping, IsCodepoint cp by decide)
    (show ∀ cp cps, (Dict.empty.set 0xFB00 [0x66, 0x66]).get cp = some cps →
      IsCodepoint cp ∧ ∀ mapped ∈ cps, IsCodepoint mapped from Dict.get_single (by decide)) nofun
  refine ⟨text, statements, written, read, ?_, ?_⟩
  · obtain ⟨mapping, rfl, run⟩ := meaning ⟨0x49, [0x74, 0x72], some ({}, {})⟩ (fun _ => some id) id
      rfl nofun
    exact run
  · obtain ⟨mapping, rfl, run⟩ := meaning ⟨0xFB00, [], some ({}, {})⟩ (fun _ => some id) id rfl
      nofun
    exact run

end LibCxxExt.Workflows
