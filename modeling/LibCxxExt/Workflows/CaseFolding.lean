import LibCxxExt.Workflows.GeneratedSpecialMapping

/-! From `CaseFolding.txt` to `dchar_fold_simple` and `dchar_fold_special`: what
`generate_unicode_casing.py` reads from the file, what it writes, and what the written functions do.
The file has lines with the status `C` (common), `F` (full), `S` (simple) and `T` (Turkic). -/

namespace LibCxxExt.Workflows

open LibCxxExt.ProofKit LibCxxExt.ProofKit.Python LibCxxExt.ProofKit.Cxx LibCxxExt.Text

/-- What is aggregated from the file. -/
structure Folding where
  simple : Dict Int
  unconditional : Dict (List Int)
  conditional : List SpecialEntry

namespace Folding

def empty : Folding := ⟨.empty, .empty, []⟩

/-- `len(mapping) > 1 or (cf_cp in simple and simple[cf_cp] != mapping[0])`. An empty list has no
`mapping[0]`, and `main` ends with an `IndexError`. -/
def differs (simple : Dict Int) (cp : Int) (mapping : List Int) : Option Bool :=
  if mapping.length > 1 then some true
  else match simple.get cp with
    | some mapped => mapping.head?.map (mapped ≠ ·)
    | none => some false

/-- What the fields of a line add. -/
def add (t : Folding) (cp : Int) (status : List Char) (mapping : List Int) : Option Folding := do
  let simple ← if status = ['C'] ∨ status = ['S'] then mapping.head?.map (t.simple.set cp ·)
    else some t.simple
  let t := { t with simple }
  if status = ['C'] ∨ status = ['F'] then
    if ← differs t.simple cp mapping then
      return { t with unconditional := t.unconditional.set cp mapping }
    else return t
  else if status = ['T'] then
    return { t with conditional := t.conditional ++
      [⟨cp, mapping, some .tr, none⟩, ⟨cp, mapping, some .az, none⟩] }
  else return t

end Folding

/-- What the loop over the lines does. -/
def parseFoldLine (t : Folding) (line : List Char) : Option Folding := do
  let cleanLine := strip (← (← Python.split line ['#']).head?)
  if cleanLine = [] then return t
  match (← Python.split cleanLine [';']).map strip with
  | code :: status :: mapping :: _ =>
    t.add (← int16 code) status (← (words mapping).mapM int16)
  | _ => return t

def parseCaseFolding (text : List Char) : Option Folding :=
  (readLines [] text).foldlM parseFoldLine .empty

/-- The two functions that are written. -/
def writeFolding (t : Folding) : Option (List Char × List Char) := do
  return (← writeSimpleMapping "dchar_fold_simple".toList t.simple t.unconditional,
    ← writeSpecialMapping "dchar_fold_special".toList t.conditional t.unconditional
      "dchar_fold_simple".toList true)

/-! ### Files -/

inductive FoldStatus
  | common
  | full
  | simple
  | turkic
  deriving DecidableEq

def FoldStatus.letter : FoldStatus → Char
  | common => 'C'
  | full => 'F'
  | simple => 'S'
  | turkic => 'T'

/-- The line `<code>; <status>; <mapping>; # <name>`. -/
structure FoldLine where
  code : List Char
  status : FoldStatus
  mapping : List (List Char)
  name : List Char
  codeHex : IsHex code
  mappingHex : ∀ digits ∈ mapping, IsHex digits
  nonempty : mapping ≠ []
  oneLine : '\n' ∉ name ∧ '\r' ∉ name

/-- A line of a file, which may be a comment or blank. -/
inductive FoldFileLine
  | entry (line : FoldLine)
  | comment (text : List Char) (oneLine : '\n' ∉ text ∧ '\r' ∉ text)
  | blank

namespace FoldLine

variable (line : FoldLine)

def cp : Int := hexValue line.code

def cps : List Int := line.mapping.map fun digits => (hexValue digits : Int)

/-- What stands in front of the comment, without the blank at the end. -/
def fields : List Char :=
  line.code ++ ';' :: ([' ', line.status.letter] ++ ';' ::
    (' ' :: [' '].intercalate line.mapping ++ [';']))

def text : List Char := line.fields ++ ' ' :: '#' :: ' ' :: line.name

end FoldLine

def FoldFileLine.text : FoldFileLine → List Char
  | entry line => line.text
  | comment text _ => '#' :: text
  | blank => []

def foldEntries (lines : List FoldFileLine) : List FoldLine :=
  lines.filterMap fun
    | .entry line => some line
    | _ => none

def foldFileText (lines : List FoldFileLine) : List Char :=
  lines.flatMap fun line => line.text ++ ['\n']

namespace FoldLine

variable (line : FoldLine)

theorem mapping_solid : ∀ digits ∈ line.mapping, digits ≠ [] ∧ ∀ c ∈ digits, isSpace c = false :=
  fun digits mem => ⟨(line.mappingHex digits mem).1, (line.mappingHex digits mem).solid⟩

theorem mem_mappingText {c : Char} (mem : c ∈ [' '].intercalate line.mapping) :
    (hexDigit c).isSome ∨ c = ' ' := by
  obtain ⟨first, rest, split⟩ := List.exists_cons_of_ne_nil line.nonempty
  have hex := line.mappingHex
  rw [split] at hex mem
  simp only [intercalate_cons_eq, List.mem_append, List.mem_flatMap, List.mem_singleton] at mem
  rcases mem with mem | ⟨digits, inside, mem | mem⟩
  · exact .inl ((hex first List.mem_cons_self).2 c mem)
  · exact .inr mem
  · exact .inl ((hex digits (List.mem_cons_of_mem _ inside)).2 c mem)

theorem mappingText_not_mem {d : Char} (other : hexDigit d = none) (blank : d ≠ ' ') :
    d ∉ [' '].intercalate line.mapping := fun mem =>
  (line.mem_mappingText mem).elim (fun digit => hexDigit_ne digit other rfl) blank

theorem mappingText_last : ∀ c ∈ ([' '].intercalate line.mapping).getLast?, isSpace c = false := by
  obtain ⟨init, last, split⟩ := List.eq_nil_or_concat line.mapping |>.resolve_left line.nonempty
  obtain ⟨nonempty, solid⟩ := line.mapping_solid last (by simp [split])
  have ends : ([' '].intercalate line.mapping).getLast? = last.getLast? := by
    obtain ⟨digits, d, rfl⟩ := List.eq_nil_or_concat last |>.resolve_left nonempty
    rw [split, List.concat_eq_append]
    cases init with
    | nil => simp [intercalate_cons_eq]
    | cons first init => simp [intercalate_cons_eq, List.getLast?_append, List.getLast?_cons]
  intro c mem
  rw [ends] at mem
  exact solid c (List.mem_of_getLast? mem)

theorem mappingText_first : ∀ c ∈ ([' '].intercalate line.mapping).head?, isSpace c = false := by
  obtain ⟨first, rest, split⟩ := List.exists_cons_of_ne_nil line.nonempty
  obtain ⟨nonempty, solid⟩ := line.mapping_solid first (by simp [split])
  obtain ⟨d, digits, rfl⟩ := List.exists_cons_of_ne_nil nonempty
  simpa [split, intercalate_cons_eq] using solid d List.mem_cons_self

theorem not_mem_fields {d : Char} (mark : d ∉ [';', ' ', 'C', 'F', 'S', 'T'])
    (other : hexDigit d = none) : d ∉ line.fields := by
  simp only [List.mem_cons, not_or, List.not_mem_nil, not_false_eq_true, and_true] at mark
  have letter : d ≠ line.status.letter := by
    cases line.status
    · exact mark.2.2.1
    · exact mark.2.2.2.1
    · exact mark.2.2.2.2.1
    · exact mark.2.2.2.2.2
  simp only [fields, List.mem_append, List.mem_cons, List.not_mem_nil, or_false, not_or]
  exact ⟨line.codeHex.not_mem other, mark.1, ⟨mark.2.1, letter⟩, mark.1,
    ⟨mark.2.1, line.mappingText_not_mem other mark.2.1⟩, mark.1⟩

theorem strip_fields : strip (line.fields ++ [' ']) = line.fields := by
  refine strip_eq (by simp [isSpace] : ∀ c ∈ [] ++ [' '], isSpace c = true) ?_ ?_
  · obtain ⟨c, code, split⟩ := List.exists_cons_of_ne_nil line.codeHex.1
    simpa [fields, split] using line.codeHex.solid c (by simp [split])
  · simp [isSpace, List.getLast?_cons]

theorem split_fields : (pieces ';' [] [] line.fields).map strip =
    [line.code, [line.status.letter], [' '].intercalate line.mapping, []] := by
  have found (acc rest : List Char) :
      pieces ';' [] acc (';' :: rest) = acc :: pieces ';' [] [] rest := pieces_found acc rest
  have code : strip line.code = line.code := by
    have blank : ∀ c ∈ ([] : List Char), isSpace c = true := by simp
    simpa using strip_append line.codeHex.solid blank
  have status : strip [' ', line.status.letter] = [line.status.letter] := by
    cases line.status <;> decide
  have mapping : strip (' ' :: [' '].intercalate line.mapping) =
      [' '].intercalate line.mapping := by
    have stripped := strip_eq (by simp [isSpace] : ∀ c ∈ [' '] ++ [], isSpace c = true)
      line.mappingText_first line.mappingText_last
    simpa using stripped
  have letter : ';' ∉ [' ', line.status.letter] := by
    cases line.status <;> decide
  have numbers : ';' ∉ ' ' :: [' '].intercalate line.mapping := by
    simpa using line.mappingText_not_mem (by decide) (by decide)
  rw [fields, pieces_skip_all (line.codeHex.not_mem (by decide)), found, pieces_skip_all letter,
    found, pieces_skip_all numbers, found, pieces_nil]
  simp only [List.map_cons, List.nil_append, code, status, mapping]
  rfl

/-- The fields of a line are added. -/
theorem parseFoldLine_text (t : Folding) :
    parseFoldLine t (line.text ++ ['\n']) = t.add line.cp [line.status.letter] line.cps := by
  have front : '#' ∉ line.fields ++ [' '] := by
    simpa using line.not_mem_fields (by decide) (by decide)
  have cut : line.text ++ ['\n'] =
      (line.fields ++ [' ']) ++ '#' :: ([] ++ ' ' :: (line.name ++ ['\n'])) := by
    simp [text]
  have nonempty : line.fields ≠ [] := by simp [fields]
  have numbers : line.mapping.mapM int16 = some line.cps :=
    mapM_eq fun digits mem => (line.mappingHex digits mem).int16_eq
  rw [parseFoldLine, cut, Python.split, pieces_skip_all front, pieces_found]
  simp only [Option.bind_eq_bind, Option.bind_some, List.head?_cons, List.nil_append, strip_fields,
    if_neg nonempty, Python.split, split_fields, line.codeHex.int16_eq,
    words_intercalate line.mapping_solid, numbers]
  rfl

end FoldLine

theorem FoldFileLine.oneLine (line : FoldFileLine) : '\n' ∉ line.text ∧ '\r' ∉ line.text := by
  cases line with
  | blank => exact ⟨nofun, nofun⟩
  | comment text oneLine => simpa [FoldFileLine.text] using oneLine
  | entry line =>
    have lf := line.not_mem_fields (by decide : '\n' ∉ [';', ' ', 'C', 'F', 'S', 'T']) (by decide)
    have cr := line.not_mem_fields (by decide : '\r' ∉ [';', ' ', 'C', 'F', 'S', 'T']) (by decide)
    simpa [FoldFileLine.text, FoldLine.text, lf, cr] using line.oneLine

/-- What the entry of a line adds. -/
def Folding.addLine (t : Folding) (line : FoldLine) : Option Folding :=
  t.add line.cp [line.status.letter] line.cps

/-- Only the entries of a file count. -/
theorem parseCaseFolding_text (lines : List FoldFileLine) :
    parseCaseFolding (foldFileText lines) = (foldEntries lines).foldlM Folding.addLine .empty := by
  have read : readLines [] (foldFileText lines) = lines.map (·.text ++ ['\n']) := by
    have texts : foldFileText lines = (lines.map (·.text)).flatMap (· ++ ['\n']) := by
      rw [foldFileText, List.flatMap_map]
    rw [texts, readLines_flatMap, List.map_map]
    · rfl
    · intro text mem
      obtain ⟨line, -, rfl⟩ := List.mem_map.mp mem
      exact line.oneLine
  have skip (t : Folding) (rest : List Char) : parseFoldLine t ('#' :: rest) = some t := by
    have cut : pieces '#' [] [] ('#' :: rest) = [] :: pieces '#' [] [] rest := pieces_found [] rest
    rw [parseFoldLine, Python.split, cut]
    rfl
  rw [parseCaseFolding, read]
  clear read
  generalize Folding.empty = t
  induction lines generalizing t with
  | nil => rfl
  | cons line lines ih =>
    cases line with
    | entry line =>
      have entries : foldEntries (.entry line :: lines) = line :: foldEntries lines := rfl
      rw [List.map_cons, List.foldlM_cons, entries, List.foldlM_cons, FoldFileLine.text,
        line.parseFoldLine_text, ← Folding.addLine]
      cases t.addLine line with
      | none => rfl
      | some t' => exact ih t'
    | comment text oneLine =>
      have entries : foldEntries (.comment text oneLine :: lines) = foldEntries lines := rfl
      rw [List.map_cons, List.foldlM_cons, entries, FoldFileLine.text, List.cons_append, skip]
      exact ih t
    | blank =>
      have entries : foldEntries (.blank :: lines) = foldEntries lines := rfl
      have nothing : parseFoldLine t ['\n'] = some t := by
        have cut : pieces '#' [] [] ['\n'] = [['\n']] := by
          rw [pieces_skip (by decide), pieces_nil, List.nil_append]
        rw [parseFoldLine, Python.split, cut]
        rfl
      rw [List.map_cons, List.foldlM_cons, entries, FoldFileLine.text, List.nil_append, nothing]
      exact ih t

/-! ### Well-formed files -/

namespace FoldLine

/-- The line counts for simple folding. -/
def IsSimple (line : FoldLine) : Prop := line.status = .common ∨ line.status = .simple

/-- The line counts for full folding. -/
def IsFull (line : FoldLine) : Prop := line.status = .common ∨ line.status = .full

instance (line : FoldLine) : Decidable line.IsSimple := inferInstanceAs (Decidable (_ ∨ _))

instance (line : FoldLine) : Decidable line.IsFull := inferInstanceAs (Decidable (_ ∨ _))

end FoldLine

/-- No two of the lines that satisfy `p` say different things of a codepoint. -/
def Agree (lines : List FoldLine) (p : FoldLine → Prop) : Prop :=
  ∀ a ∈ lines, ∀ b ∈ lines, p a → p b → a.cp = b.cp → a.cps = b.cps

/-- Simple foldings are single codepoints and full ones that are not common are longer. Where the
simple folding is not the common one, there is a full one. -/
structure WellFormed (lines : List FoldLine) : Prop where
  scalars : ∀ line ∈ lines, IsCodepoint line.cp ∧ ∀ cp ∈ line.cps, IsCodepoint cp
  single : ∀ line ∈ lines, line.IsSimple → line.cps.length = 1
  grows : ∀ line ∈ lines, line.status = .full → 1 < line.cps.length
  other : ∀ line ∈ lines, line.status = .simple → ∃ line' ∈ lines, line'.IsFull ∧ line'.cp = line.cp
  simple : Agree lines FoldLine.IsSimple
  full : Agree lines FoldLine.IsFull
  turkic : Agree lines (·.status = .turkic)

/-- The mapping on the first line for `cp` that satisfies `p`. -/
def lookupLine (lines : List FoldLine) (p : FoldLine → Prop) [DecidablePred p] (cp : Int) :
    Option (List Int) :=
  (lines.find? fun line => p line ∧ line.cp = cp).map FoldLine.cps

/-- Simple folding, by the lines `C` and `S`. -/
def simpleFolding (lines : List FoldLine) (c : UInt32) : UInt32 :=
  ((lookupLine lines FoldLine.IsSimple c.toNat).bind List.head?).elim c char32

def isTurkic (lang : List UInt8) : Bool := lang == Language.tr.tag || lang == Language.az.tag

/-- Full folding, by the lines `C` and `F`, and before them by `T` in the languages it is for. -/
def fullFolding (lines : List FoldLine) (c : UInt32) (lang : List UInt8) : List UInt32 :=
  let turkic := if isTurkic lang then lookupLine lines (·.status = .turkic) c.toNat else none
  (turkic.or (lookupLine lines FoldLine.IsFull c.toNat)).elim [c] (·.map char32)

theorem lookupLine_eq_some {lines : List FoldLine} {p : FoldLine → Prop} [DecidablePred p]
    (agree : Agree lines p) {cp : Int} {cps : List Int} :
    lookupLine lines p cp = some cps ↔ ∃ line ∈ lines, p line ∧ line.cp = cp ∧ line.cps = cps := by
  rw [lookupLine, Option.map_eq_some_iff]
  constructor
  · rintro ⟨line, found, rfl⟩
    have here : p line ∧ line.cp = cp := by simpa using List.find?_some found
    exact ⟨line, List.mem_of_find?_eq_some found, here.1, here.2, rfl⟩
  · rintro ⟨line, mem, holds, at_, rfl⟩
    cases found : lines.find? fun line => p line ∧ line.cp = cp with
    | none => simpa [holds, at_] using List.find?_eq_none.mp found line mem
    | some other =>
      have here : p other ∧ other.cp = cp := by simpa using List.find?_some found
      exact ⟨other, rfl, agree other (List.mem_of_find?_eq_some found) line mem here.1 holds
        (here.2.trans at_.symm)⟩

theorem Dict.get_set {β : Type} (d : Dict β) (cp : Int) (v : β) (cp' : Int) :
    (d.set cp v).get cp' = if cp' = cp then some v else d.get cp' := by
  rw [get, get, set]
  simp only [Finset.mem_insert, Function.update_apply]
  by_cases same : cp' = cp
  · simp [same]
  · simp [same]

/-- The table has what the lines give. -/
def Records {β : Type} (d : Dict β) (lines : List FoldLine) (value : FoldLine → Option β) : Prop :=
  ∀ cp v, d.get cp = some v ↔ ∃ line ∈ lines, line.cp = cp ∧ value line = some v

section Records

variable {β : Type} {d : Dict β} {seen : List FoldLine} {value : FoldLine → Option β}
  {line : FoldLine}

theorem Records.skip (told : Records d seen value) (silent : value line = none) :
    Records d (seen ++ [line]) value := fun cp v => by
  simp [told cp v, silent, or_and_right, exists_or]

theorem Records.set (told : Records d seen value) {v : β} (here : value line = some v)
    (agree : ∀ other ∈ seen, ∀ w, value other = some w → other.cp = line.cp → w = v) :
    Records (d.set line.cp v) (seen ++ [line]) value := fun cp w => by
  rw [Dict.get_set]
  by_cases same : cp = line.cp
  · subst same
    rw [if_pos rfl]
    constructor
    · rintro ⟨⟩
      exact ⟨line, by simp, rfl, here⟩
    · rintro ⟨other, mem, at_, told⟩
      rcases List.mem_append.mp mem with before | last
      · rw [agree other before w told at_]
      · rw [List.mem_singleton.mp last, here] at told
        exact told
  · rw [if_neg same, told cp w]
    constructor
    · rintro ⟨other, mem, at_, told⟩
      exact ⟨other, List.mem_append_left _ mem, at_, told⟩
    · rintro ⟨other, mem, at_, told⟩
      rcases List.mem_append.mp mem with before | last
      · exact ⟨other, before, at_, told⟩
      · rw [List.mem_singleton.mp last] at at_
        exact absurd at_.symm same

end Records

/-- The simple folding of a line, if it has one. -/
def simpleValue (line : FoldLine) : Option Int := if line.IsSimple then line.cps.head? else none

def unconditionalValue (line : FoldLine) : Option (List Int) :=
  if line.status = .full then some line.cps else none

/-- What the lines up to some place say is what is aggregated there. -/
structure Aggregated (seen : List FoldLine) (t : Folding) : Prop where
  simple : Records t.simple seen simpleValue
  unconditional : Records t.unconditional seen unconditionalValue
  conditional : t.conditional = (seen.filter (·.status = .turkic)).flatMap fun line =>
    [⟨line.cp, line.cps, some .tr, none⟩, ⟨line.cp, line.cps, some .az, none⟩]

theorem Aggregated.empty : Aggregated [] .empty where
  simple := by simp [Records, Folding.empty, Dict.get, Dict.empty]
  unconditional := by simp [Records, Folding.empty, Dict.get, Dict.empty]
  conditional := rfl

section WellFormed

variable {lines seen : List FoldLine} {t : Folding} {line : FoldLine}

theorem WellFormed.simple_agree (wellFormed : WellFormed lines) (sub : seen ⊆ lines)
    (mem : line ∈ lines) {v : Int} (here : simpleValue line = some v) :
    ∀ other ∈ seen, ∀ w, simpleValue other = some w → other.cp = line.cp → w = v := by
  intro other before w told at_
  have counts {l : FoldLine} {x : Int} (value : simpleValue l = some x) : l.IsSimple := by
    by_contra silent
    rw [simpleValue, if_neg silent] at value
    exact nomatch value
  have same := wellFormed.simple other (sub before) line mem (counts told) (counts here) at_
  rw [simpleValue, if_pos (counts told), same] at told
  rw [simpleValue, if_pos (counts here), told] at here
  exact Option.some_inj.mp here

theorem WellFormed.full_agree (wellFormed : WellFormed lines) (sub : seen ⊆ lines)
    (mem : line ∈ lines) {v : List Int} (here : unconditionalValue line = some v) :
    ∀ other ∈ seen, ∀ w, unconditionalValue other = some w → other.cp = line.cp → w = v := by
  intro other before w told at_
  simp only [unconditionalValue, Option.ite_none_right_eq_some, Option.some.injEq] at told here
  have same := wellFormed.full other (sub before) line mem (.inr told.1) (.inr here.1) at_
  rw [← told.2, ← here.2, same]

/-- A line of a well-formed file is aggregated, and raises no exception. -/
theorem Aggregated.step (wellFormed : WellFormed lines) (aggregated : Aggregated seen t)
    (mem : line ∈ lines) (sub : seen ⊆ lines) :
    ∃ t', t.addLine line = some t' ∧ Aggregated (seen ++ [line]) t' := by
  obtain ⟨simple, unconditional, conditional⟩ := aggregated
  cases status : line.status with
  | common =>
    obtain ⟨v, mapping⟩ := List.length_eq_one_iff.mp (wellFormed.single line mem (.inl status))
    have here : simpleValue line = some v := by
      simp [simpleValue, FoldLine.IsSimple, status, mapping]
    refine ⟨{ t with simple := t.simple.set line.cp v }, ?_,
      simple.set here (wellFormed.simple_agree sub mem here), unconditional.skip ?_, ?_⟩
    · simp [Folding.addLine, Folding.add, Folding.differs, status, mapping, FoldStatus.letter,
        Dict.get_set]
    · simp [unconditionalValue, status]
    · simp [conditional, status]
  | simple =>
    obtain ⟨v, mapping⟩ := List.length_eq_one_iff.mp (wellFormed.single line mem (.inr status))
    have here : simpleValue line = some v := by
      simp [simpleValue, FoldLine.IsSimple, status, mapping]
    refine ⟨{ t with simple := t.simple.set line.cp v }, ?_,
      simple.set here (wellFormed.simple_agree sub mem here), unconditional.skip ?_, ?_⟩
    · simp [Folding.addLine, Folding.add, status, mapping, FoldStatus.letter]
    · simp [unconditionalValue, status]
    · simp [conditional, status]
  | full =>
    have grows := wellFormed.grows line mem status
    have here : unconditionalValue line = some line.cps := by simp [unconditionalValue, status]
    refine ⟨{ t with unconditional := t.unconditional.set line.cp line.cps }, ?_, simple.skip ?_,
      unconditional.set here (wellFormed.full_agree sub mem here), ?_⟩
    · simp [Folding.addLine, Folding.add, Folding.differs, status, grows, FoldStatus.letter]
    · simp [simpleValue, FoldLine.IsSimple, status]
    · simp [conditional, status]
  | turkic =>
    refine ⟨{ t with conditional := t.conditional ++ [⟨line.cp, line.cps, some .tr, none⟩,
      ⟨line.cp, line.cps, some .az, none⟩] }, ?_, simple.skip ?_, unconditional.skip ?_, ?_⟩
    · simp [Folding.addLine, Folding.add, status, FoldStatus.letter]
    · simp [simpleValue, FoldLine.IsSimple, status]
    · simp [unconditionalValue, status]
    · simp [conditional, status]

/-- A well-formed file is aggregated. -/
theorem WellFormed.aggregated (wellFormed : WellFormed lines) :
    ∃ t, lines.foldlM Folding.addLine .empty = some t ∧ Aggregated lines t := by
  suffices run : ∀ rest seen t, seen ++ rest = lines → Aggregated seen t →
      ∃ t', rest.foldlM Folding.addLine t = some t' ∧ Aggregated lines t' from
    run lines [] .empty rfl .empty
  intro rest
  induction rest with
  | nil =>
    rintro seen t split aggregated
    exact ⟨t, rfl, by rwa [← split, List.append_nil]⟩
  | cons line rest ih =>
    rintro seen t split aggregated
    have mem : line ∈ lines := by simp [← split]
    have sub : seen ⊆ lines := fun _ before => by simp [← split, before]
    obtain ⟨t', added, aggregated'⟩ := aggregated.step wellFormed mem sub
    obtain ⟨t'', read, whole⟩ := ih (seen ++ [line]) t' (by simp [← split]) aggregated'
    refine ⟨t'', ?_, whole⟩
    rw [List.foldlM_cons, added]
    exact read

theorem Aggregated.simple_get (aggregated : Aggregated lines t) (wellFormed : WellFormed lines)
    (cp : Int) : t.simple.get cp = (lookupLine lines FoldLine.IsSimple cp).bind List.head? := by
  refine Option.ext fun v => ?_
  simp only [aggregated.simple cp v, Option.bind_eq_some_iff, lookupLine_eq_some wellFormed.simple,
    simpleValue, Option.ite_none_right_eq_some]
  constructor
  · rintro ⟨line, mem, at_, counts, first⟩
    exact ⟨line.cps, ⟨line, mem, counts, at_, rfl⟩, first⟩
  · rintro ⟨cps, ⟨line, mem, counts, at_, rfl⟩, first⟩
    exact ⟨line, mem, at_, counts, first⟩

/-- The unconditional mappings are the foldings that are not common. -/
theorem Aggregated.unconditional_get (aggregated : Aggregated lines t) (cp : Int)
    (cps : List Int) : t.unconditional.get cp = some cps ↔
      ∃ line ∈ lines, line.status = .full ∧ line.cp = cp ∧ line.cps = cps := by
  simp only [aggregated.unconditional cp cps, unconditionalValue, Option.ite_none_right_eq_some,
    Option.some.injEq]
  constructor
  · rintro ⟨line, mem, at_, full, same⟩
    exact ⟨line, mem, full, at_, same⟩
  · rintro ⟨line, mem, full, at_, same⟩
    exact ⟨line, mem, at_, full, same⟩

theorem Aggregated.writeSimpleMapping_eq (aggregated : Aggregated lines t)
    (wellFormed : WellFormed lines) (c : UInt32) :
    GenerateUnicodeCasing.writeSimpleMapping (t.simple.table char32)
      (t.unconditional.table (·.map char32)) c = simpleFolding lines c := by
  have long (mapped : UInt32) : t.unconditional.table (·.map char32) c ≠ some [mapped] := by
    intro short
    obtain ⟨cps, here, single⟩ := Option.map_eq_some_iff.mp short
    obtain ⟨line, mem, full, -, rfl⟩ := (aggregated.unconditional_get _ _).mp here
    have grows := wellFormed.grows line mem full
    rw [← List.length_map char32, single] at grows
    simp at grows
  rw [GenerateUnicodeCasing.writeSimpleMapping, Dict.table, aggregated.simple_get wellFormed,
    simpleFolding]
  cases (lookupLine lines FoldLine.IsSimple c.toNat).bind List.head? with
  | none => rfl
  | some v => exact if_neg (long _)

/-- The rule of a line for one of its languages. -/
def turkicRule (line : FoldLine) (l : Language) : Rule :=
  ⟨⟨char32 line.cp, some l, none⟩, line.cps.map char32⟩

theorem Aggregated.mem_rules (aggregated : Aggregated lines t) {rule : Rule} :
    rule ∈ t.conditional.map SpecialEntry.rule ↔ ∃ line ∈ lines, line.status = .turkic ∧
      ∃ l, (l = .tr ∨ l = .az) ∧ rule = turkicRule line l := by
  rw [aggregated.conditional, List.mem_map]
  simp only [List.mem_flatMap, List.mem_filter, decide_eq_true_eq, List.mem_cons, List.not_mem_nil,
    or_false]
  constructor
  · rintro ⟨e, ⟨line, ⟨mem, turkic⟩, rfl | rfl⟩, rfl⟩
    · exact ⟨line, mem, turkic, .tr, .inl rfl, rfl⟩
    · exact ⟨line, mem, turkic, .az, .inr rfl, rfl⟩
  · rintro ⟨line, mem, turkic, l, rfl | rfl, rfl⟩
    · exact ⟨_, ⟨line, ⟨mem, turkic⟩, .inl rfl⟩, rfl⟩
    · exact ⟨_, ⟨line, ⟨mem, turkic⟩, .inr rfl⟩, rfl⟩

theorem turkicRule_holds (wellFormed : WellFormed lines) (mem : line ∈ lines) (c : UInt32)
    (lang : List UInt8) (l : Language) :
    (turkicRule line l).holds c lang {} {} = true ↔ line.cp = (c.toNat : Int) ∧ lang = l.tag := by
  have at_ := eq_char32 (wellFormed.scalars line mem).1 c
  simp only [turkicRule, Guard.holds, Option.all_some, Option.all_none, Bool.and_true,
    Bool.and_eq_true, beq_iff_eq, at_]
  exact and_congr_left' eq_comm

theorem isTurkic_iff {lang : List UInt8} :
    isTurkic lang = true ↔ ∃ l : Language, (l = .tr ∨ l = .az) ∧ lang = l.tag := by
  simp [isTurkic]

theorem Aggregated.turkic (aggregated : Aggregated lines t) (wellFormed : WellFormed lines)
    (c : UInt32) (lang : List UInt8) :
    ((t.conditional.map SpecialEntry.rule).find? (·.holds c lang {} {})).map Rule.mapping =
      (if isTurkic lang then lookupLine lines (·.status = .turkic) c.toNat else none).map
        (·.map char32) := by
  cases found : (t.conditional.map SpecialEntry.rule).find? (·.holds c lang {} {}) with
  | some rule =>
    obtain ⟨line, mem, turkic, l, one, rfl⟩ :=
      aggregated.mem_rules.mp (List.mem_of_find?_eq_some found)
    have holds : (turkicRule line l).holds c lang {} {} = true := by
      simpa using List.find?_some found
    obtain ⟨at_, tag⟩ := (turkicRule_holds wellFormed mem c lang l).mp holds
    have looked := (lookupLine_eq_some wellFormed.turkic).mpr ⟨line, mem, turkic, at_, rfl⟩
    rw [if_pos (isTurkic_iff.mpr ⟨l, one, tag⟩), looked]
    rfl
  | none =>
    split_ifs with turkicLang
    · obtain ⟨l, one, tag⟩ := isTurkic_iff.mp turkicLang
      cases looked : lookupLine lines (·.status = .turkic) c.toNat with
      | none => rfl
      | some cps =>
        obtain ⟨line, mem, turkic, at_, -⟩ := (lookupLine_eq_some wellFormed.turkic).mp looked
        have rule := aggregated.mem_rules.mpr ⟨line, mem, turkic, l, one, rfl⟩
        exact absurd ((turkicRule_holds wellFormed mem c lang l).mpr ⟨at_, tag⟩)
          (List.find?_eq_none.mp found _ rule)
    · rfl

theorem lookupLine_ne_none {p : FoldLine → Prop} [DecidablePred p] (agree : Agree lines p)
    (mem : line ∈ lines) (holds : p line) : lookupLine lines p line.cp ≠ none := by
  rw [(lookupLine_eq_some agree).mpr ⟨line, mem, holds, rfl, rfl⟩]
  exact Option.some_ne_none _

/-- Where no unconditional mapping is aggregated, the simple folding is the full one. -/
theorem Aggregated.full (aggregated : Aggregated lines t) (wellFormed : WellFormed lines)
    (c : UInt32) :
    (t.unconditional.table (·.map char32) c).getD [simpleFolding lines c] =
      (lookupLine lines FoldLine.IsFull c.toNat).elim [c] (·.map char32) := by
  rw [Dict.table]
  cases here : t.unconditional.get c.toNat with
  | some cps =>
    obtain ⟨line, mem, full, at_, same⟩ := (aggregated.unconditional_get _ _).mp here
    have looked := (lookupLine_eq_some wellFormed.full).mpr ⟨line, mem, .inr full, at_, same⟩
    rw [looked]
    rfl
  | none =>
    have noFull : ∀ line ∈ lines, line.status = .full → line.cp ≠ c.toNat := by
      intro line mem full at_
      rw [(aggregated.unconditional_get _ _).mpr ⟨line, mem, full, at_, rfl⟩] at here
      exact absurd here (Option.some_ne_none _)
    rw [simpleFolding]
    cases looked : lookupLine lines FoldLine.IsFull c.toNat with
    | some cps =>
      obtain ⟨line, mem, common | full, at_, rfl⟩ := (lookupLine_eq_some wellFormed.full).mp looked
      · obtain ⟨v, single⟩ := List.length_eq_one_iff.mp (wellFormed.single line mem (.inl common))
        have simple := (lookupLine_eq_some wellFormed.simple).mpr ⟨line, mem, .inl common, at_, rfl⟩
        rw [simple, single]
        rfl
      · exact absurd at_ (noFull line mem full)
    | none =>
      cases simple : lookupLine lines FoldLine.IsSimple c.toNat with
      | none => rfl
      | some cps =>
        obtain ⟨line, mem, common | single, at_, -⟩ :=
          (lookupLine_eq_some wellFormed.simple).mp simple
        · exact absurd (at_ ▸ looked) (lookupLine_ne_none wellFormed.full mem (.inl common))
        · obtain ⟨line', mem', full, same⟩ := wellFormed.other line mem single
          exact absurd ((same.trans at_) ▸ looked) (lookupLine_ne_none wellFormed.full mem' full)

theorem Aggregated.specialMapping_eq (aggregated : Aggregated lines t)
    (wellFormed : WellFormed lines) (c : UInt32) (lang : List UInt8) :
    specialMapping (t.conditional.map SpecialEntry.rule) (t.unconditional.table (·.map char32))
      (simpleFolding lines) c lang {} {} = fullFolding lines c lang := by
  have turkic := aggregated.turkic wellFormed c lang
  rw [specialMapping, fullFolding]
  generalize (if isTurkic lang then lookupLine lines (·.status = .turkic) c.toNat else none) =
    found at turkic ⊢
  cases found with
  | some cps =>
    obtain ⟨rule, first, same⟩ := Option.map_eq_some_iff.mp turkic
    rw [first]
    exact same
  | none =>
    rw [Option.map_eq_none_iff.mp turkic, Option.none_or]
    exact aggregated.full wellFormed c

theorem Aggregated.simple_scalars (aggregated : Aggregated lines t) (wellFormed : WellFormed lines)
    (cp : Int) (mem : cp ∈ t.simple.keys) :
    IsCodepoint cp ∧ IsCodepoint (t.simple.value cp) := by
  obtain ⟨line, inside, rfl, value⟩ := (aggregated.simple _ _).mp (Dict.get_of_mem mem)
  have scalars := wellFormed.scalars line inside
  rw [simpleValue, Option.ite_none_right_eq_some] at value
  exact ⟨scalars.1, scalars.2 _ (List.mem_of_head? value.2)⟩

theorem Aggregated.unconditional_scalars (aggregated : Aggregated lines t)
    (wellFormed : WellFormed lines) (cp : Int) (cps : List Int)
    (here : t.unconditional.get cp = some cps) :
    IsCodepoint cp ∧ ∀ mapped ∈ cps, IsCodepoint mapped := by
  obtain ⟨line, inside, -, rfl, rfl⟩ := (aggregated.unconditional_get _ _).mp here
  exact wellFormed.scalars line inside

theorem Aggregated.conditional_scalars (aggregated : Aggregated lines t)
    (wellFormed : WellFormed lines) : ∀ e ∈ t.conditional,
      (IsCodepoint e.cp ∧ ∀ mapped ∈ e.mapping, IsCodepoint mapped) ∧ e.condition = none := by
  rw [aggregated.conditional]
  simp only [List.mem_flatMap, List.mem_filter, List.mem_cons, List.not_mem_nil, or_false]
  rintro e ⟨line, ⟨inside, -⟩, rfl | rfl⟩
  · exact ⟨wellFormed.scalars line inside, rfl⟩
  · exact ⟨wellFormed.scalars line inside, rfl⟩

end WellFormed

/-- A well-formed file goes through to its meaning: it is read without an exception, the two
functions that are written for it are read back, the first of them returns the simple folding, and
the second one, which calls it, stores the full folding and returns its length. -/
theorem case_folding_file (lines : List FoldFileLine)
    (wellFormed : WellFormed (foldEntries lines)) :
    ∃ t simpleText specialText simpleStatements specialStatements,
      parseCaseFolding (foldFileText lines) = some t ∧
      writeFolding t = some (simpleText, specialText) ∧
      readFunction simpleText = some ("dchar_fold_simple".toList, simpleStatements) ∧
      readFunction specialText = some ("dchar_fold_special".toList, specialStatements) ∧
      (∀ env : Env, exec env .on simpleStatements =
        some ([], .char (simpleFolding (foldEntries lines) env.c))) ∧
      ∀ (call : Token → Option (UInt32 → UInt32)) (c : UInt32) (lang : List UInt8),
        call "dchar_fold_simple".toList = some (simpleFolding (foldEntries lines)) →
        ∃ mapping, mapping = fullFolding (foldEntries lines) c lang ∧
          exec (Arguments.env ⟨c, lang, none⟩ call) .on specialStatements =
            some (mapping.zipIdx.map Prod.swap, .size mapping.length) := by
  obtain ⟨t, added, aggregated⟩ := wellFormed.aggregated
  have parsed := (parseCaseFolding_text lines).trans added
  have simpleKnown := aggregated.simple_scalars wellFormed
  have known := aggregated.unconditional_scalars wellFormed
  have knownRules := aggregated.conditional_scalars wellFormed
  obtain ⟨simpleText, simpleStatements, simpleWritten, simpleRead, -, returned⟩ :=
    read_simple (by decide : IsName "dchar_fold_simple".toList) simpleKnown
  obtain ⟨specialText, specialWritten, specialRead⟩ := read_special
    (by decide : IsName "dchar_fold_special".toList) (by decide : IsName "dchar_fold_simple".toList)
    true (fun e mem => (knownRules e mem).1) fun cp mem => known cp _ (Dict.get_of_mem mem)
  refine ⟨t, simpleText, specialText, simpleStatements, _, parsed, ?_, simpleRead, specialRead,
    fun env => ?_, fun call c lang called => ?_⟩
  · rw [writeFolding, simpleWritten, specialWritten]
    rfl
  · rw [returned, value_simple simpleKnown fun cp cps here => (known cp cps here).2,
      aggregated.writeSimpleMapping_eq wellFormed]
    rfl
  · rw [← aggregated.specialMapping_eq wellFormed]
    exact @exec_special _ _ _ ⟨c, lang, none⟩ call _ called (fun e mem => (knownRules e mem).1)
      (fun cp mem => known cp _ (Dict.get_of_mem mem)) fun e mem _ => (knownRules e mem).2

/-- `0049; C; 0069; # LATIN CAPITAL LETTER I` -/
def capitalI : FoldLine where
  code := "0049".toList
  status := .common
  mapping := ["0069".toList]
  name := "LATIN CAPITAL LETTER I".toList
  codeHex := by decide
  mappingHex := by decide
  nonempty := by decide
  oneLine := by decide

/-- `0049; T; 0131; # LATIN CAPITAL LETTER I` -/
def turkicI : FoldLine :=
  { capitalI with
    status := .turkic
    mapping := ["0131".toList]
    mappingHex := by decide
    nonempty := by decide }

/-- `1E9E; F; 0073 0073; # LATIN CAPITAL LETTER SHARP S` -/
def sharpS : FoldLine where
  code := "1E9E".toList
  status := .full
  mapping := ["0073".toList, "0073".toList]
  name := "LATIN CAPITAL LETTER SHARP S".toList
  codeHex := by decide
  mappingHex := by decide
  nonempty := by decide
  oneLine := by decide

/-- `1E9E; S; 00DF; # LATIN CAPITAL LETTER SHARP S` -/
def simpleSharpS : FoldLine :=
  { sharpS with
    status := .simple
    mapping := ["00DF".toList]
    mappingHex := by decide
    nonempty := by decide }

theorem wellFormed_letters : WellFormed [capitalI, turkicI, sharpS, simpleSharpS] where
  scalars := by decide
  single := by decide
  grows := by decide
  other := by decide
  simple := show ∀ a ∈ [capitalI, turkicI, sharpS, simpleSharpS],
    ∀ b ∈ [capitalI, turkicI, sharpS, simpleSharpS], _ by decide
  full := show ∀ a ∈ [capitalI, turkicI, sharpS, simpleSharpS],
    ∀ b ∈ [capitalI, turkicI, sharpS, simpleSharpS], _ by decide
  turkic := show ∀ a ∈ [capitalI, turkicI, sharpS, simpleSharpS],
    ∀ b ∈ [capitalI, turkicI, sharpS, simpleSharpS], _ by decide

/-- `I` loses its dot in Turkish only, and a capital sharp s is taken apart everywhere. -/
theorem case_folding_file_letters : ∃ t simpleText specialText statements,
    parseCaseFolding (foldFileText [.blank, .entry capitalI, .entry turkicI, .entry sharpS,
      .entry simpleSharpS, .comment " EOF".toList (by decide)]) = some t ∧
    writeFolding t = some (simpleText, specialText) ∧
    readFunction specialText = some ("dchar_fold_special".toList, statements) ∧
    ∃ call, exec (Arguments.env ⟨0x49, [0x74, 0x72], none⟩ call) .on statements =
        some ([(0, 0x131)], .size 1) ∧
      exec (Arguments.env ⟨0x49, [0x64, 0x65], none⟩ call) .on statements =
        some ([(0, 0x69)], .size 1) ∧
      exec (Arguments.env ⟨0x1E9E, [], none⟩ call) .on statements =
        some ([(0, 0x73), (1, 0x73)], .size 2) := by
  obtain ⟨t, simpleText, specialText, -, statements, parsed, written, -, read, -, meaning⟩ :=
    case_folding_file [.blank, .entry capitalI, .entry turkicI, .entry sharpS,
      .entry simpleSharpS, .comment " EOF".toList (by decide)] wellFormed_letters
  let call := fun _ : Token => some (simpleFolding [capitalI, turkicI, sharpS, simpleSharpS])
  refine ⟨t, simpleText, specialText, statements, parsed, written, read, call, ?_, ?_, ?_⟩
  · obtain ⟨mapping, rfl, run⟩ := meaning call 0x49 [0x74, 0x72] rfl
    exact run
  · obtain ⟨mapping, rfl, run⟩ := meaning call 0x49 [0x64, 0x65] rfl
    exact run
  · obtain ⟨mapping, rfl, run⟩ := meaning call 0x1E9E [] rfl
    exact run

end LibCxxExt.Workflows
