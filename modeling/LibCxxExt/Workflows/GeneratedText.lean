import LibCxxExt.ProofKit.CxxText
import LibCxxExt.Workflows.GenerateUnicodeCasing
import LibCxxExt.Workflows.ParseCodepoints

/-! The C++ text that `generate_unicode_casing.py`, `generate_unicode_whitespace.py` and
`generate_unicode_ccc.py` write: a function is its head, perhaps a chain of conditions, and a
`switch` over the sorted codepoints of a table. -/

namespace LibCxxExt.Workflows

open LibCxxExt.ProofKit LibCxxExt.ProofKit.Python LibCxxExt.Text

/-- `Dict[int, β]`. -/
structure Dict (β : Type) where
  keys : Finset Int
  value : Int → β

namespace Dict

variable {β : Type}

def empty [Inhabited β] : Dict β := ⟨∅, fun _ => default⟩

def get (d : Dict β) (cp : Int) : Option β := if cp ∈ d.keys then some (d.value cp) else none

def set (d : Dict β) (cp : Int) (v : β) : Dict β :=
  ⟨insert cp d.keys, Function.update d.value cp v⟩

/-- `sorted(d.items())`. -/
def sorted (d : Dict β) : List (Int × β) := (sortedPoints d.keys).map fun cp => (cp, d.value cp)

end Dict

/-- `to_cxx_u32_literal`. -/
def toCxxU32Literal (hexStr : List Char) : Option (List Char) := do
  let hexStr := if ['0', 'x'] <+: hexStr then hexStr.drop 2 else hexStr
  let val ← int16 hexStr
  if val ≤ 0xFFFF then return "U'\\u".toList ++ zfill hexStr 4 ++ ['\'']
  else return "U'\\U".toList ++ zfill hexStr 8 ++ ['\'']

/-- `to_cxx_u32_literal(hex(cp)[2:].upper())`. -/
def literal (cp : Int) : Option (List Char) := toCxxU32Literal (upper ((hex cp).drop 2))

example : literal 0x1F600 = some "U'\\U0001F600'".toList := by decide

/-! ### Functions that only look up -/

/-- A function of the type with a `case` for each literal and what is returned for it. -/
def writeSwitch (type name : List Char) (cases : List (List Char × List Char))
    (otherwise : List Char) : List Char :=
  "    /// @internal\n    /// @ingroup sys_internal\n    constexpr ".toList ++
    (type ++ ' ' :: (name ++ '(' :: "const char32_t c) noexcept\n    \x7b\n".toList)) ++
    ("        switch (c)\n        \x7b\n".toList ++
    (cases.flatMap (fun case => "        case ".toList ++ (case.1 ++ [':']) ++
      (" return ".toList ++ (case.2 ++ ";\n".toList))) ++
    ("        default:".toList ++ (" return ".toList ++ (otherwise ++ ";\n".toList) ++
    ("        \x7d\n".toList ++ "    \x7d\n".toList)))))

/-- `write_bool_switch`, and what the generator of `dchar_is_ws` writes. -/
def writeBoolSwitch (name : List Char) (pointsSet : Finset Int) : Option (List Char) := do
  let cases ← (sortedPoints pointsSet).mapM fun cp => do return (← literal cp, "true".toList)
  return writeSwitch "bool".toList name cases "false".toList

/-- `write_simple_mapping`. -/
def writeSimpleMapping (name : List Char) (mappings : Dict Int)
    (unconditionalSpecial : Dict (List Int)) : Option (List Char) := do
  let kept := mappings.sorted.filter fun (cp, mapped) =>
    unconditionalSpecial.get cp ≠ some [mapped]
  let cases ← kept.mapM fun (cp, mapped) => do return (← literal cp, ← literal mapped)
  return writeSwitch "char32_t".toList name cases "c".toList

/-- The enumerator of a class: the name of the class, or `ccc` and its number. -/
def cccName (cccNames : Dict (List Char)) (ccc : Nat) : List Char :=
  (cccNames.get ccc).getD ("ccc".toList ++ numeral 10 ccc)

def qualified (name : List Char) : List Char := "sys::canonical_combining_class::".toList ++ name

/-- The `dchar_ccc` of `generate_unicode_ccc.py`. -/
def writeDcharCcc (cccNames : Dict (List Char)) (cccMap : Dict Nat) : Option (List Char) := do
  let cases ← cccMap.sorted.mapM fun (cp, ccc) => do
    return (← literal cp, qualified (cccName cccNames ccc))
  return writeSwitch "sys::canonical_combining_class".toList "dchar_ccc".toList cases
    (qualified "not_reordered".toList)

/-- The enumerators of `canonical_combining_class`. -/
def writeEnumerators (cccNames : Dict (List Char)) : List Char :=
  (List.range 256).flatMap fun val => "        ".toList ++ (cccName cccNames val ++
    (" = ".toList ++ (numeral 10 val ++ "u,\n".toList)))

/-! ### What the compiler reads -/

open Cxx

/-- The codepoints that a literal may name. -/
def IsCodepoint (cp : Int) : Prop := 0 ≤ cp ∧ cp.toNat.isValidChar

instance (cp : Int) : Decidable (IsCodepoint cp) := inferInstanceAs (Decidable (_ ∧ _))

def char32 (cp : Int) : UInt32 := UInt32.ofNat cp.toNat

theorem lexes_literal {s : List Char} {letter : Char} (other : '\'' ≠ letter) (hex : IsHex s) :
    Lexes ('U' :: '\'' :: '\\' :: letter :: (s ++ ['\'']))
      ['U' :: '\'' :: '\\' :: letter :: (s ++ ['\''])] := by
  have open_ : '\'' ∉ '\\' :: letter :: s := by
    simpa [other] using hex.not_mem (by decide)
  exact .charText open_

/-- The text of `literal`, which does not fail for a codepoint. -/
def spelling (cp : Int) : List Char := (literal cp).getD []

/-- The literal of a codepoint is one token, and names it. -/
theorem literal_spec {cp : Int} (scalar : IsCodepoint cp) :
    literal cp = some (spelling cp) ∧ charLiteral (spelling cp) = some (char32 cp) ∧
      Lexes (spelling cp) [spelling cp] := by
  suffices exists_ : ∃ text, literal cp = some text ∧ charLiteral text = some (char32 cp) ∧
      Lexes text [text] by
    obtain ⟨text, written, h⟩ := exists_
    rw [spelling, written]
    exact ⟨rfl, h⟩
  obtain ⟨n, rfl⟩ := Int.eq_ofNat_of_zero_le scalar.1
  have valid : n.isValidChar := scalar.2
  have small : n < 0x110000 := by
    rcases valid with low | ⟨-, high⟩ <;> omega
  obtain ⟨hex, value, short⟩ := upper_numeral n
  have plain : ¬ ['0', 'x'] <+: upper (numeral 16 n) := fun h =>
    hex.not_mem (by decide) (h.subset (List.mem_cons_of_mem _ List.mem_cons_self))
  have read : literal n = if (n : Int) ≤ 0xFFFF
      then some ("U'\\u".toList ++ zfill (upper (numeral 16 n)) 4 ++ ['\''])
      else some ("U'\\U".toList ++ zfill (upper (numeral 16 n)) 8 ++ ['\'']) := by
    show toCxxU32Literal (upper (numeral 16 n)) = _
    rw [toCxxU32Literal, if_neg plain, hex.int16_eq, value]
    rfl
  have name (width : Nat) (fits : n < 16 ^ width) (positive : 0 < width) :
      universalCharacter width (zfill (upper (numeral 16 n)) width ++ ['\'']) =
        some (char32 n) := by
    have length := length_zfill (short width fits positive)
    have named := universalCharacter_eq (hex.zfill width) (by rwa [hexValue_zfill, value])
    rwa [length, hexValue_zfill, value] at named
  rw [read]
  split_ifs with low
  · exact ⟨_, rfl, name 4 (by omega) (by decide), lexes_literal (by decide) (hex.zfill 4)⟩
  · exact ⟨_, rfl, name 8 (by omega) (by decide), lexes_literal (by decide) (hex.zfill 8)⟩

/-- A value that stands in front of a `;`. -/
structure IsValue (text : List Char) (tokens : List Token) : Prop where
  lexes : Lexes (text ++ ";\n".toList) (tokens ++ [[';']])
  plain : ∀ t ∈ tokens, t ≠ [';'] ∧ t ≠ ['{'] ∧ t ≠ ['}']

theorem lexes_return : Lexes " return ".toList ["return".toList] := by decide

theorem reads_return {front text : List Char} {tokens : List Token}
    (keyword : Lexes front ["return".toList]) (h : IsValue text tokens) :
    Reads (front ++ (text ++ ";\n".toList)) [.return tokens] := by
  have lexes := keyword.append h.lexes
  rw [← List.append_assoc ["return".toList]] at lexes
  refine lexes.reads (.of_plain ?_ ?_) ?_ ?_
  · rw [List.singleton_append, List.forall_mem_cons]
    exact ⟨by decide, h.plain⟩
  · exact fun label => absurd label (by rw [isLabel_append (by simp)]; decide)
  · simp [isStop]
  · simp [readStatement, Cxx.keyword]

theorem reads_case {text tail : List Char} {cp : UInt32} (value : charLiteral text = some cp)
    (lexes : Lexes text [text]) (colon : Lexes (':' :: tail) [[':']]) :
    Reads ("        case ".toList ++ (text ++ ':' :: tail)) [.label cp] := by
  have head : Lexes "        case ".toList ["case".toList] := by decide
  have whole := head.append (lexes.append colon)
  have apart := charLiteral_apart value
  rw [← List.append_assoc ["case".toList]] at whole
  refine whole.reads (.of_plain ?_ ?_) ?_ ?_
  · simp [apart]
  · exact fun _ => by simpa using apart.2.2.2.symm
  · simp [isStop, isLabel]
  · simp [readStatement, keyword, value]

theorem reads_default : Reads "        default:".toList [.default] := by
  have lexes : Lexes "        default:".toList (["default".toList] ++ [[':']]) := by
    decide
  exact lexes.reads (.of_plain (by decide) (by decide)) (by decide) (by decide)

theorem reads_switch : Reads "        switch (c)\n        \x7b\n".toList [.switch] := by
  have lexes : Lexes "        switch (c)\n        \x7b\n".toList
      (["switch".toList, ['('], ['c'], [')']] ++ [['{']]) := by decide
  exact lexes.reads (.of_plain (by decide) (by decide)) (by decide) (by decide)

theorem reads_close {text : List Char} (brace : Lexes text [['}']]) : Reads text [.close] :=
  Lexes.reads (show Lexes text ([] ++ [['}']]) from brace) (.of_plain (by decide) (by decide))
    (by decide) (by decide)

theorem reads_closes : Reads ("        \x7d\n".toList ++ "    \x7d\n".toList) [.close, .close] :=
  (reads_close (by decide)).append (reads_close (by decide))

/-- The return type of a function, in front of its name. -/
structure IsType (text : List Char) (tokens : List Token) : Prop where
  lexes : Lexes (text ++ [' ']) tokens
  plain : ∀ t ∈ tokens, t ≠ [';'] ∧ t ≠ ['{'] ∧ t ≠ ['}'] ∧ t ≠ ['(']

def IsName (name : List Char) : Prop := name ≠ [] ∧ ∀ c ∈ name, isWord c = true

instance (name : List Char) : Decidable (IsName name) :=
  decidable_of_iff (name ≠ [] ∧ name.all isWord = true) (by simp [IsName])

theorem lexes_head : Lexes "    /// @internal\n    /// @ingroup sys_internal\n    constexpr ".toList
    ["constexpr".toList] := by decide

/-- A function is read under its name, if its parameters end in front of its body. -/
theorem readFunction_head {type name parameters body : List Char}
    {typeTokens parameterTokens : List Token} {statements : List Statement}
    (typed : IsType type typeTokens) (named : IsName name)
    (lexes : Lexes ('(' :: parameters) (['('] :: (parameterTokens ++ [['{']])))
    (plain : ∀ t ∈ parameterTokens, t ≠ [';'] ∧ t ≠ ['{'] ∧ t ≠ ['}'])
    (reads : Reads body statements) :
    readFunction ("    /// @internal\n    /// @ingroup sys_internal\n    constexpr ".toList ++
      (type ++ ' ' :: (name ++ '(' :: parameters)) ++ body) = some (name, statements) := by
  have apart := word_apart named.2
  have head := lexes_head.append
    (typed.lexes.append (.word named.1 named.2 (by decide) lexes))
  rw [← List.append_assoc _ typeTokens, List.append_assoc type] at head
  refine readFunction_eq head (.of_plain ?_ ?_) ?_ reads
  · simp only [List.mem_append, List.mem_cons, List.not_mem_nil, or_false]
    rintro t ((rfl | mem) | rfl | rfl | mem)
    · decide
    · exact ⟨(typed.plain t mem).1, (typed.plain t mem).2.1, (typed.plain t mem).2.2.1⟩
    · exact ⟨apart.1, apart.2.1, apart.2.2.1⟩
    · decide
    · exact plain t mem
  · exact fun label => absurd label (by simp [isLabel])
  · simp only [List.mem_append, List.mem_singleton]
    rintro t ((rfl | mem) | rfl)
    · decide
    · exact (typed.plain t mem).2.2.2
    · rintro rfl
      exact absurd (named.2 _ List.mem_cons_self) (by decide)

theorem mapM_eq {α β : Type} {f : α → Option β} {g : α → β} {l : List α}
    (h : ∀ a ∈ l, f a = some (g a)) : l.mapM f = some (l.map g) := by
  induction l with
  | nil => rfl
  | cons a l ih =>
    rw [List.mapM_cons, h a List.mem_cons_self, ih fun b mem => h b (List.mem_cons_of_mem _ mem)]
    rfl

theorem eq_char32 {cp : Int} (scalar : IsCodepoint cp) (c : UInt32) :
    c = char32 cp ↔ (c.toNat : Int) = cp := by
  have ⟨nonneg, valid⟩ := scalar
  have small : cp.toNat < 2 ^ 32 := by
    rcases valid with low | ⟨-, high⟩ <;> omega
  rw [char32, ← UInt32.toNat_inj, UInt32.toNat_ofNat_of_lt' small]
  omega

theorem char32_inj {cp cp' : Int} (scalar : IsCodepoint cp) (scalar' : IsCodepoint cp') :
    char32 cp = char32 cp' ↔ cp = cp' := by
  rw [eq_char32 scalar', (eq_char32 scalar _).mp rfl]

/-- The first pair for `c` is that of its own codepoint. -/
theorem lookup_keys {γ : Type} {keys : List Int} (scalars : ∀ cp ∈ keys, IsCodepoint cp)
    (f : Int → γ) (c : UInt32) :
    (keys.map fun cp => (char32 cp, f cp)).lookup c =
      if (c.toNat : Int) ∈ keys then some (f c.toNat) else none := by
  induction keys with
  | nil => rfl
  | cons cp keys ih =>
    have same := eq_char32 (scalars cp List.mem_cons_self) c
    rw [List.map_cons, List.lookup_cons, ih fun k mem => scalars k (List.mem_cons_of_mem _ mem)]
    by_cases here : (c.toNat : Int) = cp
    · have found : (c == char32 cp) = true := by simpa using same.mpr here
      rw [found, ← here]
      simp
    · have other : (c == char32 cp) = false := by simpa [same] using here
      simp [other, here]

section Switch

variable {keys : List Int} {text : Int → List Char} {value : Int → List Token}
  {type name otherwise : List Char} {typeTokens otherTokens : List Token}

theorem readFunction_writeSwitch (typed : IsType type typeTokens) (named : IsName name)
    (scalars : ∀ cp ∈ keys, IsCodepoint cp) (values : ∀ cp ∈ keys, IsValue (text cp) (value cp))
    (other : IsValue otherwise otherTokens) :
    readFunction (writeSwitch type name (keys.map fun cp => (spelling cp, text cp)) otherwise) =
      some (name, switchStatements (keys.map fun cp => (char32 cp, [.return (value cp)]))
        [.return otherTokens]) := by
  have cases : Reads (keys.flatMap fun cp => "        case ".toList ++ (spelling cp ++ [':']) ++
      (" return ".toList ++ (text cp ++ ";\n".toList)))
      (keys.flatMap fun cp => [.label (char32 cp), .return (value cp)]) := by
    refine .flatMap fun cp mem => ?_
    obtain ⟨-, names, lexes⟩ := literal_spec (scalars cp mem)
    exact (reads_case names lexes (by decide)).append (reads_return lexes_return (values cp mem))
  have body := reads_switch.append (cases.append (reads_default.append
    ((reads_return lexes_return other).append reads_closes)))
  have parameters : Lexes ('(' :: "const char32_t c) noexcept\n    \x7b\n".toList) (['('] ::
      (["const".toList, "char32_t".toList, ['c'], [')'], "noexcept".toList] ++ [['{']])) := by
    decide
  have whole := readFunction_head typed named parameters (by decide) body
  rw [List.append_assoc] at whole
  unfold writeSwitch switchStatements
  rw [List.flatMap_map, List.flatMap_map]
  exact whole

/-- The function that is read has no label twice, and returns what stands behind the label of its
argument. -/
theorem writeSwitch_means (typed : IsType type typeTokens) (named : IsName name)
    (scalars : ∀ cp ∈ keys, IsCodepoint cp) (nodup : keys.Nodup)
    (values : ∀ cp ∈ keys, IsValue (text cp) (value cp)) (other : IsValue otherwise otherTokens) :
    ∃ statements,
      readFunction (writeSwitch type name (keys.map fun cp => (spelling cp, text cp)) otherwise) =
        some (name, statements) ∧
      (labels statements).Nodup ∧
      ∀ env : Env, exec env .on statements =
        (env.value (if (env.c.toNat : Int) ∈ keys then value env.c.toNat else otherTokens)).map
          ([], ·) := by
  have returns : ∀ case ∈ keys.map fun cp => (char32 cp, [Statement.return (value cp)]),
      Returns case.2 := by
    simp only [List.mem_map, forall_exists_index, and_imp]
    rintro case cp - rfl
    exact ⟨[], value cp, rfl⟩
  have otherReturns : Returns [.return otherTokens] := ⟨[], otherTokens, rfl⟩
  refine ⟨_, readFunction_writeSwitch typed named scalars values other, ?_, fun env => ?_⟩
  · rw [labels_switchStatements returns otherReturns, List.map_map]
    exact nodup.map_on fun cp mem cp' mem' => (char32_inj (scalars cp mem) (scalars cp' mem')).mp
  · rw [exec_switch returns otherReturns, lookup_keys scalars]
    split_ifs <;> exact exec_return _ []

end Switch

theorem isValue_true : IsValue "true".toList ["true".toList] := ⟨by decide, by decide⟩

theorem isValue_false : IsValue "false".toList ["false".toList] := ⟨by decide, by decide⟩

theorem isValue_c : IsValue "c".toList [['c']] := ⟨by decide, by decide⟩

theorem isValue_spelling {cp : Int} (scalar : IsCodepoint cp) :
    IsValue (spelling cp) [spelling cp] := by
  obtain ⟨-, names, lexes⟩ := literal_spec scalar
  have apart := charLiteral_apart names
  exact ⟨lexes.append (by decide), by simpa using ⟨apart.1, apart.2.1, apart.2.2.1⟩⟩

theorem value_spelling {cp : Int} (scalar : IsCodepoint cp) (env : Env) :
    env.value [spelling cp] = some (.char (char32 cp)) :=
  env.value_charLiteral (literal_spec scalar).2.1

theorem isType_word {name : List Char} (word : IsName name) : IsType name [name] := by
  refine ⟨.word word.1 word.2 (by decide) (by decide), fun t mem => ?_⟩
  obtain rfl := List.mem_singleton.mp mem
  have apart := word_apart word.2
  refine ⟨apart.1, apart.2.1, apart.2.2.1, ?_⟩
  rintro rfl
  exact absurd (word.2 _ List.mem_cons_self) (by decide)

/-- The predicate that is written for a property of a file accepts the codepoints of the lines that
are taken for the property, and has each of them for a label only once. -/
theorem property_switch (lines : List UcdLine) (propertyName : List Char) {name : List Char}
    (named : IsName name) (scalars : ∀ cp, Taken lines propertyName cp → IsCodepoint cp) :
    ∃ points text statements, parseCodepoints (fileText lines) propertyName = some points ∧
      writeBoolSwitch name points = some text ∧ readFunction text = some (name, statements) ∧
      (labels statements).Nodup ∧
      ∀ env : Env, ∃ b, exec env .on statements = some ([], .bool b) ∧
        (b = true ↔ Taken lines propertyName env.c.toNat) := by
  obtain ⟨points, parsed, mem_points⟩ := parseCodepoints_spec lines propertyName
  have mem_sort (cp : Int) : cp ∈ sortedPoints points ↔ Taken lines propertyName cp :=
    mem_sortedPoints.trans (mem_points cp)
  have keys : ∀ cp ∈ sortedPoints points, IsCodepoint cp :=
    fun cp mem => scalars cp ((mem_sort cp).mp mem)
  have bool : IsName "bool".toList := by decide
  obtain ⟨statements, read, nodup, returned⟩ := writeSwitch_means (isType_word bool) named keys
    (nodup_sortedPoints points) (fun _ _ => isValue_true) isValue_false
  refine ⟨points, _, statements, parsed, ?_, read, nodup, fun env => ?_⟩
  · rw [writeBoolSwitch, mapM_eq (g := fun cp => (spelling cp, "true".toList))]
    · rfl
    · intro cp mem
      rw [(literal_spec (keys cp mem)).1]
      rfl
  · rw [returned, ← mem_sort]
    split_ifs with taken
    · exact ⟨true, rfl, by simp [taken]⟩
    · exact ⟨false, rfl, by simp [taken]⟩

namespace Dict

variable {β : Type} (d : Dict β)

/-- The table that the generated functions look up in. -/
def table {γ : Type} (f : β → γ) (c : UInt32) : Option γ := (d.get c.toNat).map f

theorem mapM_sorted {γ : Type} {f : Int × β → Option γ} {g : Int → γ}
    (h : ∀ cp ∈ d.keys, f (cp, d.value cp) = some (g cp)) :
    d.sorted.mapM f = some ((sortedPoints d.keys).map g) := by
  rw [sorted, List.mapM_map]
  exact mapM_eq fun cp mem => h cp (mem_sortedPoints.mp mem)

variable {d}

theorem get_of_mem {cp : Int} (mem : cp ∈ d.keys) : d.get cp = some (d.value cp) := if_pos mem

theorem get_single [Inhabited β] {cp : Int} {v : β} {p : Int → β → Prop} (h : p cp v)
    (cp' : Int) (v' : β) (here : (empty.set cp v).get cp' = some v') : p cp' v' := by
  have mem : cp' ∈ (empty.set cp v).keys := by
    by_contra absent
    rw [get, if_neg absent] at here
    exact nomatch here
  obtain rfl : cp' = cp := by simpa [set, empty] using mem
  rw [get_of_mem mem] at here
  obtain rfl : v = v' := by simpa [set] using here
  exact h

theorem table_eq_singleton {d : Dict (List Int)} {cp : Int}
    (scalars : ∀ cps, d.get cp = some cps → ∀ mapped ∈ cps, IsCodepoint mapped) {c : UInt32}
    (same : (c.toNat : Int) = cp) {mapped : Int} (scalar : IsCodepoint mapped) :
    d.table (·.map char32) c = some [char32 mapped] ↔ d.get cp = some [mapped] := by
  rw [table, same, Option.map_eq_some_iff]
  constructor
  · rintro ⟨cps, here, single⟩
    obtain ⟨x, rfl, equal⟩ := List.map_eq_singleton_iff.mp single
    rw [here, (char32_inj (scalars _ here x (List.mem_singleton_self x)) scalar).mp equal]
  · exact fun here => ⟨[mapped], here, rfl⟩

end Dict

/-- `dchar_is_ws` of a file with one line accepts a space. -/
theorem property_switch_space : ∃ points text statements,
    parseCodepoints (fileText [spaceLine]) "White_Space".toList = some points ∧
    writeBoolSwitch "dchar_is_ws".toList points = some text ∧
    readFunction text = some ("dchar_is_ws".toList, statements) ∧
    ∀ env : Env, env.c = 0x20 → exec env .on statements = some ([], .bool true) := by
  have space : spaceLine.Has 0x20 := show (0x20 : Int) = hexValue "0020".toList by decide
  obtain ⟨points, text, statements, parsed, written, read, -, returned⟩ :=
    property_switch [spaceLine] "White_Space".toList
      (by decide : IsName "dchar_is_ws".toList) fun cp taken => by
        obtain ⟨line, mem, -, has⟩ := taken
        obtain rfl := List.mem_singleton.mp mem
        obtain rfl : cp = hexValue "0020".toList := has
        decide
  refine ⟨points, text, statements, parsed, written, read, fun env same => ?_⟩
  obtain ⟨b, run, accepts⟩ := returned env
  rw [run, accepts.mpr]
  rw [same]
  exact ⟨spaceLine, List.mem_singleton_self _, by decide, space⟩

section SimpleMapping

variable {mappings : Dict Int} {special : Dict (List Int)}

/-- The codepoints that `writeSimpleMapping` writes a `case` for. -/
def keptKeys (mappings : Dict Int) (special : Dict (List Int)) : List Int :=
  (sortedPoints mappings.keys).filter fun cp => special.get cp ≠ some [mappings.value cp]

theorem mem_keptKeys {cp : Int} : cp ∈ keptKeys mappings special ↔
    cp ∈ mappings.keys ∧ special.get cp ≠ some [mappings.value cp] := by
  simp [keptKeys, mem_sortedPoints]

theorem read_simple {name : List Char} (named : IsName name)
    (scalars : ∀ cp ∈ mappings.keys, IsCodepoint cp ∧ IsCodepoint (mappings.value cp)) :
    ∃ text statements, writeSimpleMapping name mappings special = some text ∧
      readFunction text = some (name, statements) ∧ (labels statements).Nodup ∧
      ∀ env : Env, exec env .on statements =
        (env.value (if (env.c.toNat : Int) ∈ keptKeys mappings special then
          [spelling (mappings.value env.c.toNat)] else [['c']])).map ([], ·) := by
  have scalar (cp : Int) (mem : cp ∈ keptKeys mappings special) :=
    scalars cp (mem_keptKeys.mp mem).1
  have kept : (mappings.sorted.filter fun (cp, mapped) => special.get cp ≠ some [mapped]) =
      (keptKeys mappings special).map fun cp => (cp, mappings.value cp) := by
    rw [Dict.sorted, List.filter_map]
    rfl
  have char32_t : IsName "char32_t".toList := by decide
  obtain ⟨statements, read, nodup, returned⟩ := writeSwitch_means (isType_word char32_t) named
    (fun cp mem => (scalar cp mem).1) ((nodup_sortedPoints _).filter _)
    (fun cp mem => isValue_spelling (scalar cp mem).2) isValue_c
  refine ⟨_, statements, ?_, read, nodup, returned⟩
  rw [writeSimpleMapping, kept, List.mapM_map,
    mapM_eq (g := fun cp => (spelling cp, spelling (mappings.value cp)))]
  · rfl
  · intro cp mem
    simp only [Function.comp, (literal_spec (scalar cp mem).1).1,
      (literal_spec (scalar cp mem).2).1]
    rfl

theorem value_simple
    (scalars : ∀ cp ∈ mappings.keys, IsCodepoint cp ∧ IsCodepoint (mappings.value cp))
    (scalars' : ∀ cp cps, special.get cp = some cps → ∀ mapped ∈ cps, IsCodepoint mapped)
    (env : Env) :
    env.value (if (env.c.toNat : Int) ∈ keptKeys mappings special then
      [spelling (mappings.value env.c.toNat)] else [['c']]) = some (.char
        (GenerateUnicodeCasing.writeSimpleMapping (mappings.table char32)
          (special.table (·.map char32)) env.c)) := by
  rw [GenerateUnicodeCasing.writeSimpleMapping, Dict.table, Dict.get]
  by_cases mem : (env.c.toNat : Int) ∈ mappings.keys
  · have same := Dict.table_eq_singleton (scalars' env.c.toNat) rfl (scalars _ mem).2
    simp only [mem_keptKeys, mem, true_and, if_true, Option.map_some, same]
    by_cases dropped : special.get env.c.toNat = some [mappings.value env.c.toNat]
    · rw [if_neg fun other => other dropped, if_pos dropped]
      rfl
    · rw [if_pos dropped, if_neg dropped, value_spelling (scalars _ mem).2]
  · simp only [mem_keptKeys, mem, false_and, if_false]
    rfl

/-- Where all codepoints are scalar values, the function that is written for simple mappings is the
one that leaves out what the special mappings say as well. -/
theorem simple_mapping_text {name : List Char} (named : IsName name) (mappings : Dict Int)
    (special : Dict (List Int))
    (scalars : ∀ cp mapped, mappings.get cp = some mapped → IsCodepoint cp ∧ IsCodepoint mapped)
    (scalars' : ∀ cp cps, special.get cp = some cps → ∀ mapped ∈ cps, IsCodepoint mapped) :
    ∃ text statements, writeSimpleMapping name mappings special = some text ∧
      readFunction text = some (name, statements) ∧ (labels statements).Nodup ∧
      ∀ env : Env, exec env .on statements = some ([], .char
        (GenerateUnicodeCasing.writeSimpleMapping (mappings.table char32)
          (special.table (·.map char32)) env.c)) := by
  have known (cp : Int) (mem : cp ∈ mappings.keys) := scalars cp _ (Dict.get_of_mem mem)
  obtain ⟨text, statements, written, read, nodup, returned⟩ := read_simple named known
  refine ⟨text, statements, written, read, nodup, fun env => ?_⟩
  rw [returned, value_simple known scalars']
  rfl

end SimpleMapping

/-- `dchar_to_lower_simple` maps `A` to `a`. -/
theorem simple_mapping_text_a : ∃ text statements,
    writeSimpleMapping "dchar_to_lower_simple".toList (Dict.empty.set 0x41 0x61) Dict.empty =
      some text ∧
    readFunction text = some ("dchar_to_lower_simple".toList, statements) ∧
    ∀ env : Env, env.c = 0x41 → exec env .on statements = some ([], .char 0x61) := by
  obtain ⟨text, statements, written, read, -, returned⟩ := simple_mapping_text
    (by decide : IsName "dchar_to_lower_simple".toList) (Dict.empty.set 0x41 0x61)
    Dict.empty (Dict.get_single (by decide)) fun _ _ here => nomatch here
  refine ⟨text, statements, written, read, fun env same => ?_⟩
  rw [returned, same]
  rfl

/-! ### Combining classes -/

/-- The tokens of `qualified`. -/
def qualifiedTokens (name : List Char) : List Token :=
  ["sys".toList, [':'], [':'], "canonical_combining_class".toList, [':'], [':'], name]

theorem isValue_qualified {name : List Char} (named : IsName name) :
    IsValue (qualified name) (qualifiedTokens name) := by
  have front : Lexes "sys::canonical_combining_class::".toList ["sys".toList, [':'], [':'],
      "canonical_combining_class".toList, [':'], [':']] := by decide
  have stop : Lexes (';' :: ['\n']) [[';']] := by decide
  have apart := word_apart named.2
  refine ⟨?_, ?_⟩
  · have whole := front.append (.word named.1 named.2 (by decide) stop)
    rwa [← List.append_assoc] at whole
  · rw [qualifiedTokens]
    simp only [List.forall_mem_cons]
    exact ⟨by decide, by decide, by decide, by decide, by decide, by decide,
      ⟨apart.1, apart.2.1, apart.2.2.1⟩, by decide⟩

theorem readEnumerators_write {cccNames : Dict (List Char)}
    (named : ∀ ccc < 256, IsName (cccName cccNames ccc)) :
    readEnumerators (lex (writeEnumerators cccNames)) =
      some ((List.range 256).map fun val => (cccName cccNames val, val)) := by
  have lexes : ∀ val ∈ List.range 256, Lexes ("        ".toList ++ (cccName cccNames val ++
      (" = ".toList ++ (numeral 10 val ++ "u,\n".toList))))
      [cccName cccNames val, ['='], numeral 10 val ++ ['u'], [',']] := by
    intro val mem
    have name := named val (List.mem_range.mp mem)
    have value := decimal_numeral val
    have digits : ∀ c ∈ numeral 10 val ++ ['u'], isWord c = true := by
      intro c mem
      rcases List.mem_append.mp mem with digit | unsigned
      · exact value.2.2 c digit
      · rw [List.mem_singleton.mp unsigned]
        rfl
    have comma : Lexes (',' :: ['\n']) [[',']] := by decide
    have literal := Lexes.word (by simp) digits (by decide) comma
    have equals : Lexes (' ' :: ['=', ' ']) [['=']] := by decide
    have named := (Lexes.spaces 8).append (.word name.1 name.2 (by decide) equals)
    have whole := named.append literal
    simpa using whole
  have read (vals : List Nat) : readEnumerators (vals.flatMap fun val =>
      [cccName cccNames val, ['='], numeral 10 val ++ ['u'], [',']]) =
        some (vals.map fun val => (cccName cccNames val, val)) := by
    induction vals with
    | nil => rfl
    | cons val vals ih =>
      rw [List.flatMap_cons, List.cons_append, List.cons_append, List.cons_append, List.cons_append,
        List.nil_append, readEnumerators, unsignedLiteral_numeral, ih]
      rfl
  rw [writeEnumerators, (Lexes.flatMap lexes).lex_eq, read]

theorem lookup_injective {α β : Type} [BEq α] [LawfulBEq α] {f : β → α} {l : List β}
    (injective : ∀ a ∈ l, ∀ b ∈ l, f a = f b → a = b) {b : β} (mem : b ∈ l) :
    (l.map fun a => (f a, a)).lookup (f b) = some b := by
  induction l with
  | nil => exact nomatch mem
  | cons a l ih =>
    rw [List.map_cons, List.lookup_cons]
    by_cases same : f b = f a
    · rw [injective b mem a List.mem_cons_self same]
      simp
    · have other : (f b == f a) = false := by simpa using same
      have later : b ∈ l := (List.mem_cons.mp mem).resolve_left fun equal => same (congrArg f equal)
      rw [other]
      exact ih (fun x mx y my => injective x (List.mem_cons_of_mem _ mx) y
        (List.mem_cons_of_mem _ my)) later

/-- Where the names of the classes are pairwise different identifiers and class 0 is
`not_reordered`, and the table maps scalar values to classes below 256: the enumerator that
`dchar_ccc` returns is one of `canonical_combining_class`, with the value of the table, or 0. -/
theorem combining_class_text {cccNames : Dict (List Char)} {cccMap : Dict Nat}
    (named : ∀ ccc < 256, IsName (cccName cccNames ccc))
    (distinct : Set.InjOn (cccName cccNames) {ccc | ccc < 256})
    (notReordered : cccName cccNames 0 = "not_reordered".toList)
    (scalars : ∀ cp ccc, cccMap.get cp = some ccc → IsCodepoint cp ∧ ccc < 256) :
    ∃ text statements enumerators, writeDcharCcc cccNames cccMap = some text ∧
      readFunction text = some ("dchar_ccc".toList, statements) ∧ (labels statements).Nodup ∧
      readEnumerators (lex (writeEnumerators cccNames)) = some enumerators ∧
      enumerators.map Prod.snd = List.range 256 ∧
      ∀ env : Env, ∃ enumerator, exec env .on statements = some ([], .enumerator enumerator) ∧
        enumerators.lookup enumerator = some ((cccMap.get env.c.toNat).getD 0) := by
  have scalar {cp : Int} (mem : cp ∈ cccMap.keys) := scalars cp _ (Dict.get_of_mem mem)
  have injective : ∀ a ∈ List.range 256, ∀ b ∈ List.range 256,
      cccName cccNames a = cccName cccNames b → a = b :=
    fun a small b small' => distinct (List.mem_range.mp small) (List.mem_range.mp small')
  have typed : IsType "sys::canonical_combining_class".toList ["sys".toList, [':'], [':'],
    "canonical_combining_class".toList] := ⟨by decide, by decide⟩
  have keys : ∀ cp ∈ sortedPoints cccMap.keys, cp ∈ cccMap.keys := fun cp => mem_sortedPoints.mp
  obtain ⟨statements, read, nodup, returned⟩ := writeSwitch_means typed
    (by decide : IsName "dchar_ccc".toList) (fun cp mem => (scalar (keys cp mem)).1)
    (nodup_sortedPoints _)
    (fun cp mem => isValue_qualified (named _ (scalar (keys cp mem)).2))
    (isValue_qualified (by decide : IsName "not_reordered".toList))
  refine ⟨_, statements, _, ?_, read, nodup, readEnumerators_write named, ?_, fun env => ?_⟩
  · rw [writeDcharCcc, cccMap.mapM_sorted (g := fun cp =>
      (spelling cp, qualified (cccName cccNames (cccMap.value cp))))]
    · rfl
    · intro cp mem
      simp only [(literal_spec (scalar mem).1).1]
      rfl
  · rw [List.map_map]
    exact List.map_id _
  · rw [returned, Dict.get]
    simp only [mem_sortedPoints]
    split_ifs with mem
    · exact ⟨_, rfl, lookup_injective injective (List.mem_range.mpr (scalar mem).2)⟩
    · refine ⟨_, rfl, ?_⟩
      rw [← notReordered]
      exact lookup_injective injective (List.mem_range.mpr (by decide : 0 < 256))

/-- The names if only that of class 0 is known. -/
def defaultNames : Dict (List Char) := Dict.empty.set 0 "not_reordered".toList

theorem cccName_default {val : Nat} (nonzero : val ≠ 0) :
    cccName defaultNames val = "ccc".toList ++ numeral 10 val := by
  have absent : (val : Int) ∉ defaultNames.keys := by
    simpa [defaultNames, Dict.set, Dict.empty] using nonzero
  rw [cccName, Dict.get, if_neg absent]
  rfl

theorem isName_default (val : Nat) : IsName (cccName defaultNames val) := by
  by_cases nonzero : val = 0
  · subst nonzero
    exact (by decide : IsName "not_reordered".toList)
  · rw [cccName_default nonzero]
    refine ⟨by simp, fun c mem => ?_⟩
    rcases List.mem_append.mp mem with front | digit
    · exact (by decide : IsName "ccc".toList).2 c front
    · exact (decimal_numeral val).2.2 c digit

theorem cccName_default_injective :
    Function.Injective fun val : Nat => cccName defaultNames val := by
  have known : cccName defaultNames 0 = "not_reordered".toList := rfl
  have apart (val : Nat) : "not_reordered".toList ≠ "ccc".toList ++ numeral 10 val := fun same => by
    have first : some 'n' = some 'c' := congrArg List.head? same
    exact absurd first (by decide)
  intro a b same
  by_cases zero : a = 0 <;> by_cases zero' : b = 0
  · rw [zero, zero']
  · subst zero
    simp only [known, cccName_default zero'] at same
    exact absurd same (apart b)
  · subst zero'
    simp only [known, cccName_default zero] at same
    exact absurd same.symm (apart a)
  · simp only [cccName_default zero, cccName_default zero', List.append_cancel_left_eq] at same
    have value := (decimal_numeral a).1
    rw [same, (decimal_numeral b).1] at value
    exact (Option.some_inj.mp value).symm

/-- The acute accent has the class 230. -/
theorem combining_class_text_acute : ∃ text statements enumerators,
    writeDcharCcc defaultNames (Dict.empty.set 0x301 230) = some text ∧
    readFunction text = some ("dchar_ccc".toList, statements) ∧
    readEnumerators (lex (writeEnumerators defaultNames)) = some enumerators ∧
    ∀ env : Env, env.c = 0x301 → ∃ enumerator,
      exec env .on statements = some ([], .enumerator enumerator) ∧
      enumerators.lookup enumerator = some 230 := by
  obtain ⟨text, statements, enumerators, written, read, -, enumerated, -, returned⟩ :=
    combining_class_text (fun val _ => isName_default val) cccName_default_injective.injOn rfl
      (Dict.get_single (show IsCodepoint 0x301 ∧ 230 < 256 by decide))
  refine ⟨text, statements, enumerators, written, read, enumerated, fun env same => ?_⟩
  obtain ⟨enumerator, run, value⟩ := returned env
  rw [same] at value
  exact ⟨enumerator, run, value⟩

end LibCxxExt.Workflows
