import LibCxxExt.ProofKit.PythonText

/-! The C++ of generated tables: functions of a character that test conditions, store to an array
and return, with one `switch`. A text is split into tokens, read as a list of statements, and the
statements are executed. -/

namespace LibCxxExt.ProofKit.Cxx

open Python

abbrev Token := List Char

/-! ### Tokens -/

inductive Mode
  | code
  | literal (quote : Char)
  | comment
deriving DecidableEq

def isWord (c : Char) : Bool := c.isAlphanum || c == '_'

def flush (word : Token) : List Token := if word.isEmpty then [] else [word]

/-- The tokens that end in front of a character or with it, and the state behind it. -/
def step (next : Option Char) : Mode → Token → Char → List Token × Mode × Token
  | .code, word, c =>
    if isWord c then ([], .code, word ++ [c])
    else if c = '\'' ∨ c = '"' then ([], .literal c, word ++ [c])
    else if c = '/' ∧ next = some '/' then (flush word, .comment, [])
    else (flush word ++ (if isSpace c then [] else [[c]]), .code, [])
  | .literal quote, word, c =>
    if c = quote then ([word ++ [c]], .code, []) else ([], .literal quote, word ++ [c])
  | .comment, _, c => ([], if c = '\n' then .code else .comment, [])

def scan : Mode → Token → List Char → List Token × Mode × Token
  | mode, word, [] => ([], mode, word)
  | mode, word, c :: rest =>
    let (ended, mode, word) := step rest.head? mode word c
    let (tokens, final) := scan mode word rest
    (ended ++ tokens, final)

/-- The token that the text ends in. -/
def finish : Mode → Token → List Token
  | .comment, _ => []
  | _, word => flush word

/-- The tokens of a text: words, literals without escaped quotes, and single characters. -/
def lex (text : List Char) : List Token :=
  let (tokens, mode, word) := scan .code [] text
  tokens ++ finish mode word

/-- The digits of `\u` or `\U` and the closing quote. -/
def universalCharacter (count : Nat) (s : Token) : Option UInt32 :=
  let digits := s.take count
  let cp := hexValue digits
  if digits.length = count ∧ digits.all (fun c => (hexDigit c).isSome) ∧ s.drop count = ['\''] ∧
      cp.isValidChar then
    some (UInt32.ofNat cp)
  else none

/-- The value of a literal `U'\uXXXX'` or `U'\UXXXXXXXX'`, which names no surrogate. -/
def charLiteral : Token → Option UInt32
  | 'U' :: '\'' :: '\\' :: 'u' :: s => universalCharacter 4 s
  | 'U' :: '\'' :: '\\' :: 'U' :: s => universalCharacter 8 s
  | _ => none

def decimal (s : Token) : Option Nat :=
  if s ≠ [] ∧ s.all Char.isDigit then some (s.foldl (fun n c => 10 * n + (c.toNat - 48)) 0)
  else none

/-- The value of a literal with the suffix `u`. -/
def unsignedLiteral (s : Token) : Option Nat :=
  if s.getLast? = some 'u' then decimal s.dropLast else none

/-- The value of a literal with the suffix `_uz`. -/
def sizeLiteral (s : Token) : Option Nat :=
  if s.rtake 3 = ['_', 'u', 'z'] then decimal (s.rdrop 3) else none

/-! ### Statements -/

inductive Statement
  | test (cond : List Token)
  | switch
  | label (cp : UInt32)
  | default
  | store (index : Nat) (value : List Token)
  | return (value : List Token)
  | close
deriving DecidableEq

/-- The tokens in front of a `;`, `{` or `}`, or of the `:` of a label. -/
structure Segment where
  tokens : List Token
  stop : Token

def isLabel : List Token → Bool
  | keyword :: _ => keyword = "case".toList ∨ keyword = "default".toList
  | [] => false

def isStop (tokens : List Token) (t : Token) : Bool :=
  t = [';'] ∨ t = ['{'] ∨ t = ['}'] ∨ t = [':'] ∧ isLabel tokens = true

def segments (tokens : List Token) : List Token → List Segment
  | [] => if tokens.isEmpty then [] else [⟨tokens, []⟩]
  | t :: rest =>
    if isStop tokens t then ⟨tokens, t⟩ :: segments [] rest else segments (tokens ++ [t]) rest

def keyword (s : Segment) : Token := s.tokens.headD []

def readStatement (s : Segment) : Option Statement :=
  if s.tokens = [] ∧ s.stop = ['}'] then some .close
  else if keyword s = "if".toList ∧ s.stop = ['{'] then some (.test (s.tokens.drop 1))
  else if s.tokens = ["switch".toList, ['('], ['c'], [')']] ∧ s.stop = ['{'] then some .switch
  else if keyword s = "case".toList ∧ s.stop = [':'] then match s.tokens.drop 1 with
    | [literal] => (charLiteral literal).map .label
    | _ => none
  else if s.tokens = ["default".toList] ∧ s.stop = [':'] then some .default
  else if keyword s = "return".toList ∧ s.stop = [';'] then some (.return (s.tokens.drop 1))
  else match s.tokens, s.stop with
    | ['o', 'u', 't'] :: ['['] :: index :: [']'] :: ['='] :: value, [';'] =>
      (decimal index).map (.store · value)
    | _, _ => none

/-- The statements of a text. -/
def read (text : List Char) : Option (List Statement) :=
  (segments [] (lex text)).mapM readStatement

/-- The name of the function in a text, and its statements. -/
def readFunction (text : List Char) : Option (Token × List Statement) := do
  match segments [] (lex text) with
  | header :: body =>
    let name ← (header.tokens.takeWhile (· ≠ ['('])).getLast?
    return (name, ← body.mapM readStatement)
  | [] => none

/-- The names and values of the enumerators of an enumeration. -/
def readEnumerators : List Token → Option (List (Token × Nat))
  | [] => some []
  | name :: ['='] :: value :: [','] :: rest => do
    return (name, ← unsignedLiteral value) :: (← readEnumerators rest)
  | _ => none

/-! ### Execution -/

inductive Value
  | char (cp : UInt32)
  | bool (b : Bool)
  | size (n : Nat)
  | enumerator (name : Token)
deriving DecidableEq

/-- The argument, the functions that may be called with it, and what the other conditions are. -/
structure Env where
  c : UInt32
  call : Token → Option (UInt32 → UInt32)
  holds : List Token → Option Bool

namespace Env

variable (env : Env)

def value : List Token → Option Value
  | [f, ['('], ['c'], [')']] => (env.call f).map fun f => .char (f env.c)
  | [_, [':'], [':'], _, [':'], [':'], name] => some (.enumerator name)
  | [t] =>
    if t = ['c'] then some (.char env.c)
    else if t = "true".toList then some (.bool true)
    else if t = "false".toList then some (.bool false)
    else ((charLiteral t).map .char).or ((sizeLiteral t).map .size)
  | _ => none

/-- One of the conditions that `&&` joins. -/
def atom : List Token → Option Bool
  | [['c'], ['='], ['='], literal] => (charLiteral literal).map (env.c == ·)
  | tokens => env.holds tokens

def conjunction (atoms : List (List Token)) : Option Bool := (atoms.mapM env.atom).map (·.all id)

/-- A condition in parentheses. -/
def condition (tokens : List Token) : Option Bool :=
  if tokens.head? = some ['('] ∧ tokens.getLast? = some [')'] then
    env.conjunction (pieces ['&'] [['&']] [] (tokens.drop 1).dropLast)
  else none

end Env

inductive Run
  | on
  | skip
  | seek (label : Option UInt32)

/-- What a statement does: stores, after which the execution goes on, or a `return`. -/
inductive Effect
  | go (stores : List (Nat × UInt32)) (run : Run)
  | done (value : Value)

/-- A statement in front of `rest`. A condition that does not hold is followed by the `}` of its
block, and a `switch` by the label of the argument or by `default`. -/
def Run.effect (env : Env) (rest : List Statement) : Run → Statement → Option Effect
  | .on, .test cond => do return .go [] (if ← env.condition cond then .on else .skip)
  | .on, .switch => some (.go [] (.seek (if .label env.c ∈ rest then some env.c else none)))
  | .on, .store index value => do
    let .char cp ← env.value value | none
    return .go [(index, cp)] .on
  | .on, .return value => do return .done (← env.value value)
  | .skip, s => some (.go [] (if s = .close then .on else .skip))
  | .seek (some cp), .label cp' => some (.go [] (if cp' = cp then .on else .seek (some cp)))
  | .seek none, .default => some (.go [] .on)
  | run, _ => some (.go [] run)

/-- What statements store, and what they return. -/
def exec (env : Env) : Run → List Statement → Option (List (Nat × UInt32) × Value)
  | _, [] => none
  | run, s :: rest => do
    match ← run.effect env rest s with
    | .go stores run =>
      let (more, value) ← exec env run rest
      return (stores ++ more, value)
    | .done value => return ([], value)

/-- The labels, of which the compiler takes no two that are alike. -/
def labels (statements : List Statement) : List UInt32 :=
  statements.filterMap fun
    | .label cp => some cp
    | _ => none

/-! ### Reading what was written -/

/-- The text has these tokens, whatever follows it. -/
def Lexes (text : List Char) (tokens : List Token) : Prop :=
  text.getLast? ≠ some '/' ∧ scan .code [] text = (tokens, .code, [])

instance (text : List Char) (tokens : List Token) : Decidable (Lexes text tokens) :=
  inferInstanceAs (Decidable (_ ∧ _))

theorem scan_append {text : List Char} (last : text.getLast? ≠ some '/') (mode : Mode)
    (word : Token) (rest : List Char) :
    scan mode word (text ++ rest) =
      let (tokens, mode, word) := scan mode word text
      let (more, final) := scan mode word rest
      (tokens ++ more, final) := by
  induction text generalizing mode word with
  | nil => rfl
  | cons c text ih =>
    have next : step (text ++ rest).head? mode word c = step text.head? mode word c := by
      cases text with
      | cons => rfl
      | nil =>
        have other : c ≠ '/' := by simpa using last
        cases mode <;> simp [step, other]
    have last' : text.getLast? ≠ some '/' := by
      cases text with
      | nil => simp
      | cons d text => rwa [List.getLast?_cons_cons] at last
    rw [List.cons_append, scan, next, scan]
    simp only [ih last', List.append_assoc]

theorem Lexes.append {text text' : List Char} {tokens tokens' : List Token}
    (h : Lexes text tokens) (h' : Lexes text' tokens') :
    Lexes (text ++ text') (tokens ++ tokens') := by
  refine ⟨?_, ?_⟩
  · rw [List.getLast?_append]
    cases last : text'.getLast? with
    | none => simpa using h.1
    | some c => simpa [last] using h'.1
  · rw [scan_append h.1, h.2]
    simp only [h'.2]

theorem Lexes.lex_append {text : List Char} {tokens : List Token} (h : Lexes text tokens)
    (rest : List Char) : lex (text ++ rest) = tokens ++ lex rest := by
  rw [lex, scan_append h.1, h.2, lex]
  exact List.append_assoc ..

theorem Lexes.lex_eq {text : List Char} {tokens : List Token} (h : Lexes text tokens) :
    lex text = tokens := by
  have whole := h.lex_append []
  rwa [List.append_nil, show lex [] = [] from rfl, List.append_nil] at whole

theorem Lexes.flatMap {α : Type} {text : α → List Char} {tokens : α → List Token} {items : List α}
    (h : ∀ item ∈ items, Lexes (text item) (tokens item)) :
    Lexes (items.flatMap text) (items.flatMap tokens) := by
  induction items with
  | nil => exact ⟨nofun, rfl⟩
  | cons item items ih =>
    exact (h item List.mem_cons_self).append
      (ih fun other mem => h other (List.mem_cons_of_mem _ mem))

theorem scan_word {s : List Char} (word : ∀ c ∈ s, isWord c = true) (w : Token)
    (rest : List Char) : scan .code w (s ++ rest) = scan .code (w ++ s) rest := by
  induction s generalizing w with
  | nil => rw [List.append_nil, List.nil_append]
  | cons c s ih =>
    rw [List.cons_append, scan, step, if_pos (word c List.mem_cons_self)]
    simp only [ih fun d mem => word d (List.mem_cons_of_mem _ mem), List.append_assoc,
      List.singleton_append, List.nil_append]

/-- A word ends in front of a character that is not one of a word nor starts a literal. -/
theorem Lexes.word {s text : List Char} {c : Char} {tokens : List Token} (nonempty : s ≠ [])
    (word : ∀ d ∈ s, isWord d = true) (ends : isWord c = false ∧ c ≠ '\'' ∧ c ≠ '"')
    (h : Lexes (c :: text) tokens) : Lexes (s ++ c :: text) (s :: tokens) := by
  have flushed : step text.head? .code s c =
      (s :: (step text.head? .code [] c).1, (step text.head? .code [] c).2) := by
    simp only [step, ends, Bool.false_eq_true, if_false, or_self, flush, List.isEmpty_nil, if_true,
      List.isEmpty_eq_false_iff.mpr nonempty]
    split_ifs <;> rfl
  refine ⟨by simpa [List.getLast?_append] using h.1, ?_⟩
  have alone := h.2
  rw [scan] at alone
  rw [scan_word word, List.nil_append, scan, flushed]
  simp only [Prod.mk.injEq, List.cons_append, List.cons.injEq, true_and] at alone ⊢
  exact alone

theorem scan_literal {s : List Char} {quote : Char} (open_ : quote ∉ s) (w : Token) :
    scan (.literal quote) w (s ++ [quote]) = ([w ++ s ++ [quote]], .code, []) := by
  induction s generalizing w with
  | nil => simp [scan, step]
  | cons c s ih =>
    rw [List.mem_cons, not_or] at open_
    rw [List.cons_append, scan, step, if_neg (Ne.symm open_.1)]
    simp [ih open_.2]

/-- A literal of a character with its quotes. -/
theorem Lexes.charText {s : List Char} (open_ : '\'' ∉ s) :
    Lexes ('U' :: '\'' :: (s ++ ['\''])) ['U' :: '\'' :: (s ++ ['\''])] := by
  refine ⟨by simp [List.getLast?_cons], ?_⟩
  have letter (next : Option Char) : step next .code [] 'U' = ([], .code, ['U']) := rfl
  have quote (next : Option Char) :
      step next .code ['U'] '\'' = ([], .literal '\'', ['U', '\'']) := rfl
  rw [scan, letter]
  simp only [scan, quote, scan_literal open_]
  rfl

theorem Lexes.spaces (n : Nat) : Lexes (List.replicate n ' ') [] := by
  induction n with
  | zero => decide
  | succ n ih => exact Lexes.append (show Lexes [' '] [] by decide) ih

theorem Lexes.comment {s : List Char} (oneLine : '\n' ∉ s) :
    Lexes ('/' :: '/' :: (s ++ ['\n'])) [] := by
  have skipped : scan .comment [] (s ++ ['\n']) = ([], .code, []) := by
    induction s with
    | nil => decide
    | cons c s ih =>
      rw [List.mem_cons, not_or] at oneLine
      rw [List.cons_append, scan, step, if_neg (Ne.symm oneLine.1)]
      simp [ih oneLine.2]
  exact ⟨by simp [List.getLast?_cons], by simpa [scan, step, isWord, flush] using skipped⟩

theorem isLabel_append {tokens : List Token} (nonempty : tokens ≠ []) (more : List Token) :
    isLabel (tokens ++ more) = isLabel tokens := by
  cases tokens with
  | nil => exact absurd rfl nonempty
  | cons => rfl

/-- No token ends the statement that the tokens belong to. -/
def Unstopped (tokens : List Token) : Prop :=
  ∀ front t back, tokens = front ++ t :: back → isStop front t = false

/-- Only the `:` of a label ends a statement, beside `;` and the braces. -/
theorem Unstopped.of_plain {tokens : List Token}
    (plain : ∀ t ∈ tokens, t ≠ [';'] ∧ t ≠ ['{'] ∧ t ≠ ['}'])
    (colon : isLabel tokens = true → [':'] ∉ tokens) : Unstopped tokens := by
  rintro front t back rfl
  have mem : t ∈ front ++ t :: back := by simp
  have apart := plain t mem
  rw [isStop, decide_eq_false_iff_not]
  rintro (same | same | same | ⟨rfl, label⟩)
  · exact apart.1 same
  · exact apart.2.1 same
  · exact apart.2.2 same
  · have nonempty : front ≠ [] := by
      rintro rfl
      exact nomatch label
    exact colon ((isLabel_append nonempty _).trans label) mem

theorem segments_unstopped {tokens : List Token} (unstopped : Unstopped tokens)
    (more : List Token) : segments [] (tokens ++ more) = segments tokens more := by
  induction tokens using List.reverseRecOn generalizing more with
  | nil => rfl
  | append_singleton front t ih =>
    rw [List.append_assoc, List.singleton_append, ih fun f u b split => unstopped f u (b ++ [t])
      (by rw [split, List.append_assoc, List.cons_append]), segments,
      unstopped front t [] rfl]
    rfl

/-- The text is read as these statements, whatever follows it. -/
def Reads (text : List Char) (statements : List Statement) : Prop :=
  ∀ rest, read (text ++ rest) = (read rest).map (statements ++ ·)

theorem Reads.nil : Reads [] [] := fun rest => by simp

theorem Lexes.reads_nil {text : List Char} (h : Lexes text []) : Reads text [] := fun rest => by
  rw [read, h.lex_append, List.nil_append]
  exact Option.map_id'.symm

theorem Reads.append {text text' : List Char} {statements statements' : List Statement}
    (h : Reads text statements) (h' : Reads text' statements') :
    Reads (text ++ text') (statements ++ statements') := fun rest => by
  rw [List.append_assoc, h, h', Option.map_map]
  congr 1
  funext more
  simp

theorem Reads.flatMap {α : Type} {text : α → List Char} {statements : α → List Statement}
    {items : List α} (h : ∀ item ∈ items, Reads (text item) (statements item)) :
    Reads (items.flatMap text) (items.flatMap statements) := by
  induction items with
  | nil => exact .nil
  | cons item items ih =>
    exact (h item List.mem_cons_self).append
      (ih fun other mem => h other (List.mem_cons_of_mem _ mem))

theorem Reads.read {text : List Char} {statements : List Statement} (h : Reads text statements) :
    Cxx.read text = some statements := by
  have whole := h []
  rw [List.append_nil] at whole
  rw [whole]
  simp [show Cxx.read [] = some [] from rfl]

/-- A text with the tokens of one statement is read as that statement. -/
theorem Lexes.reads {text : List Char} {tokens : List Token} {stop : Token} {s : Statement}
    (h : Lexes text (tokens ++ [stop])) (unstopped : Unstopped tokens)
    (stops : isStop tokens stop = true) (statement : readStatement ⟨tokens, stop⟩ = some s) :
    Reads text [s] := fun rest => by
  rw [Cxx.read, h.lex_append, List.append_assoc, segments_unstopped unstopped,
    List.singleton_append, segments,
    if_pos stops, List.mapM_cons, statement]
  rw [Cxx.read]
  cases (segments [] (lex rest)).mapM readStatement <;> rfl

/-- The name of a function is the token in front of its parameters. -/
theorem readFunction_eq {head text : List Char} {front parameters : List Token} {name : Token}
    {statements : List Statement}
    (h : Lexes head (front ++ name :: ['('] :: (parameters ++ [['{']])))
    (unstopped : Unstopped (front ++ name :: ['('] :: parameters))
    (before : ∀ t ∈ front ++ [name], t ≠ ['(']) (body : Reads text statements) :
    readFunction (head ++ text) = some (name, statements) := by
  have whole := body.read
  rw [Cxx.read] at whole
  have split : front ++ name :: ['('] :: (parameters ++ [['{']]) =
      (front ++ name :: ['('] :: parameters) ++ [['{']] := by simp
  have found : ((front ++ name :: ['('] :: parameters).takeWhile (· ≠ ['('])).getLast? =
      some name := by
    have front_ : front ++ name :: ['('] :: parameters =
        (front ++ [name]) ++ ['('] :: parameters := by simp
    rw [front_, List.takeWhile_append_of_pos (by simpa using before),
      List.takeWhile_cons_of_neg (by simp), List.append_nil, List.getLast?_concat]
  rw [readFunction, h.lex_append, split, List.append_assoc, segments_unstopped unstopped,
    List.singleton_append, segments, if_pos (by simp [isStop])]
  simp only [found, whole]
  rfl

/-! ### Literals -/

theorem charLiteral_apart {t : Token} {cp : UInt32} (h : charLiteral t = some cp) :
    t ≠ [';'] ∧ t ≠ ['{'] ∧ t ≠ ['}'] ∧ t ≠ [':'] := by
  refine ⟨?_, ?_, ?_, ?_⟩ <;> rintro rfl <;> exact nomatch h

theorem Env.value_charLiteral (env : Env) {t : Token} {cp : UInt32}
    (h : charLiteral t = some cp) : env.value [t] = some (.char cp) := by
  have other : t ≠ ['c'] ∧ t ≠ "true".toList ∧ t ≠ "false".toList := by
    refine ⟨?_, ?_, ?_⟩ <;> rintro rfl <;> exact nomatch h
  rw [value, if_neg other.1, if_neg other.2.1, if_neg other.2.2, h]
  rfl

theorem word_apart {t : Token} (word : ∀ c ∈ t, isWord c = true) :
    t ≠ [';'] ∧ t ≠ ['{'] ∧ t ≠ ['}'] ∧ t ≠ [':'] := by
  refine ⟨?_, ?_, ?_, ?_⟩ <;> rintro rfl <;> exact absurd (word _ List.mem_cons_self) (by decide)

theorem universalCharacter_eq {digits : List Char} (hex : IsHex digits)
    (valid : (hexValue digits).isValidChar) :
    universalCharacter digits.length (digits ++ ['\'']) =
      some (UInt32.ofNat (hexValue digits)) := by
  rw [universalCharacter, List.take_left, List.drop_left]
  exact if_pos ⟨rfl, List.all_eq_true.mpr hex.2, rfl, valid⟩

theorem digit_isWord {d : Nat} (small : d < 10) :
    isWord (Nat.digitChar d) = true ∧ (Nat.digitChar d).isDigit = true := by
  rw [isWord, Char.isAlphanum, Nat.isDigit_digitChar]
  simp [small]

theorem foldl_decimal {digits : List Nat} (below : ∀ d ∈ digits, d < 10) (value : Nat) :
    digits.foldl (fun n d => 10 * n + ((Nat.digitChar d).toNat - 48)) value =
      digits.foldl (fun n d => 10 * n + d) value := by
  induction digits generalizing value with
  | nil => rfl
  | cons d digits ih =>
    have small := below d List.mem_cons_self
    rw [List.foldl_cons, List.foldl_cons, Nat.toNat_digitChar_sub_48_of_lt_ten small]
    exact ih (fun e mem => below e (List.mem_cons_of_mem _ mem)) _

theorem decimal_numeral (n : Nat) : decimal (numeral 10 n) = some n ∧ numeral 10 n ≠ [] ∧
    ∀ c ∈ numeral 10 n, isWord c = true := by
  obtain ⟨digits, written, nonempty, below, value, -⟩ := numeral_eq (n := n) (by decide : 1 < 10)
  have each : ∀ c ∈ numeral 10 n, isWord c = true ∧ c.isDigit = true := by
    rw [written]
    simp only [List.mem_map, forall_exists_index, and_imp]
    rintro c d mem rfl
    exact digit_isWord (below d mem)
  have nonempty' : numeral 10 n ≠ [] := by simpa [written] using nonempty
  refine ⟨?_, nonempty', fun c mem => (each c mem).1⟩
  rw [decimal, if_pos ⟨nonempty', List.all_eq_true.mpr fun c mem => (each c mem).2⟩, written,
    List.foldl_map, ← value]
  congr 1
  exact foldl_decimal below 0

theorem unsignedLiteral_numeral (n : Nat) : unsignedLiteral (numeral 10 n ++ ['u']) = some n := by
  rw [unsignedLiteral, List.getLast?_concat, if_pos rfl, List.dropLast_concat]
  exact (decimal_numeral n).1

theorem sizeLiteral_numeral (n : Nat) :
    sizeLiteral (numeral 10 n ++ ['_', 'u', 'z']) = some n := by
  rw [sizeLiteral, List.rtake, List.rdrop]
  simp [(decimal_numeral n).1]

theorem Env.value_size (env : Env) (n : Nat) :
    env.value [numeral 10 n ++ ['_', 'u', 'z']] = some (.size n) := by
  obtain ⟨value, nonempty, -⟩ := decimal_numeral n
  obtain ⟨c, rest, written⟩ := List.exists_cons_of_ne_nil nonempty
  have other : c ≠ 'U' := by
    rintro rfl
    rw [written, decimal, if_neg (by simp)] at value
    exact nomatch value
  have last : (numeral 10 n ++ ['_', 'u', 'z']).getLast? = some 'z' := by simp
  have apart : ∀ t : Token, t.getLast? ≠ some 'z' → numeral 10 n ++ ['_', 'u', 'z'] ≠ t := by
    rintro t different rfl
    exact different last
  have noCharacter : charLiteral (numeral 10 n ++ ['_', 'u', 'z']) = none := by
    rw [written, List.cons_append, charLiteral]
    · intros
      simp_all
    · intros
      simp_all
  rw [Env.value, if_neg (apart _ (by decide)), if_neg (apart _ (by decide)),
    if_neg (apart _ (by decide)), noCharacter, sizeLiteral_numeral]
  rfl

/-! ### Executing blocks -/

/-- Stores that end in a `return`. -/
def Returns (block : List Statement) : Prop :=
  ∃ (stores : List (Nat × List Token)) (value : List Token),
    block = stores.map (fun s => .store s.1 s.2) ++ [.return value]

variable {env : Env} {block : List Statement}

theorem exec_go {run run' : Run} {s : Statement} {rest : List Statement}
    (h : run.effect env rest s = some (.go [] run')) :
    exec env run (s :: rest) = exec env run' rest := by
  rw [exec, h]
  cases later : exec env run' rest <;> simp [later]

theorem exec_return (value : List Token) (rest : List Statement) :
    exec env .on (.return value :: rest) = (env.value value).map ([], ·) := by
  rw [exec, Run.effect]
  cases env.value value <;> rfl

theorem exec_store (index : Nat) (value : List Token) (rest : List Statement) :
    exec env .on (.store index value :: rest) = match env.value value with
      | some (.char cp) => (exec env .on rest).map fun run => ((index, cp) :: run.1, run.2)
      | _ => none := by
  rw [exec, Run.effect]
  cases env.value value with
  | none => rfl
  | some v =>
    cases v with
    | char cp => cases later : exec env .on rest <;> simp [later]
    | _ => rfl

theorem Returns.exec_append (h : Returns block) (rest : List Statement) :
    exec env .on (block ++ rest) = exec env .on block := by
  obtain ⟨stores, value, rfl⟩ := h
  induction stores with
  | nil => exact (exec_return value _).trans (exec_return value []).symm
  | cons s stores ih =>
    rw [List.map_cons, List.cons_append, List.cons_append, exec_store, exec_store, ih]

theorem Returns.not_mem (h : Returns block) :
    Statement.close ∉ block ∧ Statement.default ∉ block ∧ ∀ cp, Statement.label cp ∉ block := by
  obtain ⟨stores, value, rfl⟩ := h
  simp

theorem Returns.labels_append (h : Returns block) (rest : List Statement) :
    labels (block ++ rest) = labels rest := by
  obtain ⟨stores, value, rfl⟩ := h
  simp [labels]

theorem exec_skip (open_ : Statement.close ∉ block) (rest : List Statement) :
    exec env .skip (block ++ .close :: rest) = exec env .on rest := by
  induction block with
  | nil => exact exec_go (by rw [Run.effect, if_pos rfl])
  | cons s block ih =>
    rw [List.mem_cons, not_or] at open_
    have inside : Run.skip.effect env (block ++ .close :: rest) s = some (.go [] .skip) := by
      rw [Run.effect, if_neg (Ne.symm open_.1)]
    rw [List.cons_append, exec_go inside, ih open_.2]

theorem exec_test (h : Returns block) {cond : List Token} {b : Bool}
    (holds : env.condition cond = some b) (rest : List Statement) :
    exec env .on (.test cond :: (block ++ .close :: rest)) =
      if b then exec env .on block else exec env .on rest := by
  have tested : Run.on.effect env (block ++ .close :: rest) (.test cond) =
      some (.go [] (if b then .on else .skip)) := by
    rw [Run.effect, holds]
    rfl
  rw [exec_go tested]
  cases b with
  | true => exact h.exec_append _
  | false => exact exec_skip h.not_mem.1 rest

theorem pieces_conjuncts {first : List Token} {atoms : List (List Token)}
    (plain : ∀ atom ∈ first :: atoms, ['&'] ∉ atom) :
    pieces ['&'] [['&']] [] (first ++ atoms.flatMap (['&'] :: ['&'] :: ·)) = first :: atoms := by
  have here := plain first List.mem_cons_self
  induction atoms generalizing first with
  | nil => rw [pieces_skip_all here, List.nil_append, List.flatMap_nil, pieces_nil]
  | cons atom atoms ih =>
    have later : ∀ a ∈ atom :: atoms, ['&'] ∉ a := fun a mem => plain a (List.mem_cons_of_mem _ mem)
    rw [List.flatMap_cons, pieces_skip_all here, List.nil_append, List.cons_append,
      List.cons_append]
    exact (pieces_found _ _).trans
      (congrArg (first :: ·) (ih later (later atom List.mem_cons_self)))

theorem condition_eq {first : List Token} {atoms : List (List Token)}
    (plain : ∀ atom ∈ first :: atoms, ['&'] ∉ atom) :
    env.condition (['('] :: (first ++ atoms.flatMap (['&'] :: ['&'] :: ·) ++ [[')']])) =
      env.conjunction (first :: atoms) := by
  rw [Env.condition, if_pos ⟨rfl, by rw [← List.cons_append, List.getLast?_concat]⟩, List.drop_one,
    List.tail_cons, List.dropLast_concat, pieces_conjuncts plain]

theorem conjunction_one {atom : List Token} {b : Bool} (h : env.atom atom = some b) :
    env.conjunction [atom] = some b := by
  rw [Env.conjunction, List.mapM_cons, h]
  simp

theorem conjunction_append {atoms more : List (List Token)} {b b' : Bool}
    (h : env.conjunction atoms = some b) (h' : env.conjunction more = some b') :
    env.conjunction (atoms ++ more) = some (b && b') := by
  obtain ⟨values, each, rfl⟩ := Option.map_eq_some_iff.mp h
  obtain ⟨values', each', rfl⟩ := Option.map_eq_some_iff.mp h'
  rw [Env.conjunction, List.mapM_append, each, each']
  simp

section Tests

variable {α : Type} {items : List α} {cond : α → List Token} {body : α → List Statement}

/-- A chain of tests executes the block of the first test that holds. -/
theorem exec_tests {holds : α → Bool}
    (h : ∀ a ∈ items, Returns (body a) ∧ env.condition (cond a) = some (holds a))
    (rest : List Statement) :
    exec env .on (items.flatMap (fun a => .test (cond a) :: (body a ++ [.close])) ++ rest) =
      match items.find? holds with
      | some a => exec env .on (body a)
      | none => exec env .on rest := by
  induction items with
  | nil => rfl
  | cons a items ih =>
    obtain ⟨returns, value⟩ := h a List.mem_cons_self
    rw [List.flatMap_cons, List.append_assoc, List.cons_append, List.append_assoc,
      List.singleton_append, exec_test returns value, List.find?_cons,
      ih fun other mem => h other (List.mem_cons_of_mem _ mem)]
    cases holds a <;> rfl

theorem labels_tests (h : ∀ a ∈ items, Returns (body a)) (rest : List Statement) :
    labels (items.flatMap (fun a => .test (cond a) :: (body a ++ [.close])) ++ rest) =
      labels rest := by
  induction items with
  | nil => rfl
  | cons a items ih =>
    have later := ih fun other mem => h other (List.mem_cons_of_mem _ mem)
    rw [← later, List.flatMap_cons, List.append_assoc, List.cons_append, List.append_assoc]
    exact (h a List.mem_cons_self).labels_append _

end Tests

theorem exec_stores {α : Type} {items : List α} {index : α → Nat} {value : α → List Token}
    {cp : α → UInt32} (h : ∀ item ∈ items, env.value (value item) = some (.char (cp item)))
    (returned : List Token) :
    exec env .on (items.map (fun item => .store (index item) (value item)) ++ [.return returned]) =
      (env.value returned).map (items.map fun item => (index item, cp item), ·) := by
  induction items with
  | nil => exact exec_return returned []
  | cons item items ih =>
    rw [List.map_cons, List.cons_append, exec_store, h item List.mem_cons_self,
      ih fun other mem => h other (List.mem_cons_of_mem _ mem)]
    cases env.value returned <;> rfl

theorem exec_seek (label : Option UInt32) {cp : UInt32} (other : label ≠ some cp)
    (h : Returns block) (rest : List Statement) :
    exec env (.seek label) (.label cp :: (block ++ rest)) = exec env (.seek label) rest := by
  have inside (block : List Statement) (noDefault : Statement.default ∉ block)
      (noLabel : ∀ cp, Statement.label cp ∉ block) :
      exec env (.seek label) (block ++ rest) = exec env (.seek label) rest := by
    induction block with
    | nil => rfl
    | cons s block ih =>
      simp only [List.mem_cons, not_or] at noDefault noLabel
      have stays : (Run.seek label).effect env (block ++ rest) s = some (.go [] (.seek label)) := by
        cases s with
        | label cp => exact absurd rfl (noLabel cp).1
        | default => exact absurd rfl noDefault.1
        | _ => cases label <;> rfl
      rw [List.cons_append, exec_go stays, ih noDefault.2 fun cp => (noLabel cp).2]
  have passes : (Run.seek label).effect env (block ++ rest) (.label cp) =
      some (.go [] (.seek label)) := by
    cases label with
    | none => rfl
    | some l => rw [Run.effect, if_neg fun same => other (congrArg some same.symm)]
  rw [exec_go passes, inside block h.not_mem.2.1 h.not_mem.2.2]

/-- The statements of a `switch` with its cases and the block behind `default`. -/
def switchStatements (cases : List (UInt32 × List Statement)) (otherwise : List Statement) :
    List Statement :=
  .switch :: (cases.flatMap (fun case => .label case.1 :: case.2) ++
    .default :: (otherwise ++ [.close, .close]))

theorem labels_switchStatements {cases : List (UInt32 × List Statement)}
    (h : ∀ case ∈ cases, Returns case.2) {otherwise : List Statement} (other : Returns otherwise) :
    labels (switchStatements cases otherwise) = cases.map Prod.fst := by
  induction cases with
  | nil => exact other.labels_append _
  | cons case cases ih =>
    have later := ih fun c mem => h c (List.mem_cons_of_mem _ mem)
    have here := (h case List.mem_cons_self).labels_append
      (cases.flatMap (fun case => .label case.1 :: case.2) ++
        .default :: (otherwise ++ [.close, .close]))
    rw [List.map_cons, ← later, switchStatements, List.flatMap_cons, List.append_assoc,
      List.cons_append]
    exact congrArg (case.1 :: ·) here

theorem mem_cases {cases : List (UInt32 × List Statement)} (h : ∀ case ∈ cases, Returns case.2)
    {otherwise : List Statement} (other : Returns otherwise) (cp : UInt32) :
    Statement.label cp ∈ cases.flatMap (fun case => .label case.1 :: case.2) ++
      .default :: (otherwise ++ [.close, .close]) ↔ cp ∈ cases.map Prod.fst := by
  have inside : ∀ case ∈ cases, Statement.label cp ∉ case.2 :=
    fun case mem => (h case mem).not_mem.2.2 cp
  simp only [List.mem_append, List.mem_flatMap, List.mem_cons, List.mem_map, reduceCtorEq,
    other.not_mem.2.2 cp, Statement.label.injEq, List.not_mem_nil, or_false]
  constructor
  · rintro ⟨case, mem, same | within⟩
    · exact ⟨case, mem, same.symm⟩
    · exact absurd within (inside case mem)
  · rintro ⟨case, mem, same⟩
    exact ⟨case, mem, .inl same.symm⟩

theorem exec_seek_cases {cases : List (UInt32 × List Statement)}
    (h : ∀ case ∈ cases, Returns case.2) {label : Option UInt32}
    (absent : ∀ case ∈ cases, label ≠ some case.1) (rest : List Statement) :
    exec env (.seek label) (cases.flatMap (fun case => .label case.1 :: case.2) ++ rest) =
      exec env (.seek label) rest := by
  induction cases with
  | nil => rfl
  | cons case cases ih =>
    have here := absent case List.mem_cons_self
    rw [List.flatMap_cons, List.append_assoc, List.cons_append,
      exec_seek label here (h case List.mem_cons_self)]
    exact ih (fun c mem => h c (List.mem_cons_of_mem _ mem))
      fun c mem => absent c (List.mem_cons_of_mem _ mem)

/-- A `switch` executes the block of the first case with the argument as its label, or the block
behind `default`. -/
theorem exec_switch {cases : List (UInt32 × List Statement)} (h : ∀ case ∈ cases, Returns case.2)
    {otherwise : List Statement} (other : Returns otherwise) :
    exec env .on (switchStatements cases otherwise) =
      exec env .on ((cases.lookup env.c).getD otherwise) := by
  rw [switchStatements, exec_go rfl]
  simp only [mem_cases h other]
  cases found : cases.lookup env.c with
  | none =>
    have absent := List.lookup_eq_none_iff.mp found
    have out : env.c ∉ cases.map Prod.fst := by
      rw [List.mem_map]
      rintro ⟨case, mem, same⟩
      simpa [same] using absent case mem
    have none_ : ∀ case ∈ cases, (none : Option UInt32) ≠ some case.1 := fun _ _ => nofun
    rw [if_neg out, exec_seek_cases h none_, exec_go rfl, Option.getD_none]
    exact other.exec_append _
  | some block =>
    obtain ⟨front, back, rfl, before⟩ := List.lookup_eq_some_iff.mp found
    rw [if_pos (by simp), List.flatMap_append, List.append_assoc,
      exec_seek_cases fun c mem => h c (List.mem_append_left _ mem)]
    · have returns : Returns block := h (env.c, block) (by simp)
      have reached (rest : List Statement) :
          (Run.seek (some env.c)).effect env rest (.label env.c) = some (.go [] .on) := by
        rw [Run.effect, if_pos rfl]
      rw [List.flatMap_cons, List.append_assoc, List.cons_append, exec_go (reached _)]
      exact returns.exec_append _
    · intro case mem same
      simpa [Option.some_inj.mp same] using before case mem

end LibCxxExt.ProofKit.Cxx
