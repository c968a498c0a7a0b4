import LibCxxExt.ProofKit.PythonText
import Mathlib.Data.Finset.Sort

/-! `parse_codepoints` (`uni.py`) and the generator of `dchar_is_ws`. A line of a property file is
taken for a property whose name occurs anywhere in it, in another property's name or in the
comment. -/

namespace LibCxxExt.Workflows

open LibCxxExt.ProofKit LibCxxExt.ProofKit.Python

/-- What a line adds to `points`. -/
def parseLine (propertyName : List Char) (points : Finset Int) (line : List Char) :
    Option (Finset Int) := do
  if [';'] <:+: line ∧ propertyName <:+: line then
    let parts ← split line [';']
    let codeRange := strip (← parts.head?)
    if ['.', '.'] <:+: codeRange then
      match ← split codeRange ['.', '.'] with
      | [start, last] => return points ∪ range (← int16 start) ((← int16 last) + 1)
      | _ => none
    else
      return insert (← int16 codeRange) points
  else
    return points

/-- `parse_codepoints`, of a file with the contents `text`. -/
def parseCodepoints (text propertyName : List Char) : Option (Finset Int) :=
  (readLines [] text).foldlM (parseLine propertyName) ∅

namespace GenerateUnicodeWhitespace

/-- The `dchar_is_ws` that is written: a `switch` with a `case` for each codepoint, in order. -/
def writeDcharIsWs (points : Finset Int) (c : UInt32) : Bool :=
  (points.sort (· ≤ ·)).any fun cp => (c.toNat : Int) = cp

def main (proplist : List Char) : Option (UInt32 → Bool) := do
  return writeDcharIsWs (← parseCodepoints proplist "White_Space".toList)

end GenerateUnicodeWhitespace

/-- `sorted(points)`. -/
def sortedPoints (points : Finset Int) : List Int := points.sort (· ≤ ·)

theorem mem_sortedPoints {points : Finset Int} {cp : Int} :
    cp ∈ sortedPoints points ↔ cp ∈ points :=
  Finset.mem_sort _

theorem nodup_sortedPoints (points : Finset Int) : (sortedPoints points).Nodup :=
  Finset.sort_nodup points _

/-! ### Files of property lines -/

/-- The line `XXXX ; Name # comment` or `XXXX..YYYY ; Name # comment`, with `padding` spaces in
front of the semicolon. -/
structure UcdLine where
  first : List Char
  last : Option (List Char)
  padding : Nat
  name : List Char
  comment : List Char
  firstHex : IsHex first
  lastHex : ∀ digits ∈ last, IsHex digits
  oneLine : '\n' ∉ name ++ comment ∧ '\r' ∉ name ++ comment

namespace UcdLine

def codeRange (line : UcdLine) : List Char :=
  match line.last with
  | none => line.first
  | some last => line.first ++ '.' :: '.' :: last

def text (line : UcdLine) : List Char :=
  line.codeRange ++ List.replicate line.padding ' ' ++
    ';' :: ' ' :: (line.name ++ ' ' :: '#' :: ' ' :: line.comment)

/-- `cp` is the codepoint of the line or lies in its inclusive range. -/
def Has (line : UcdLine) (cp : Int) : Prop :=
  match line.last with
  | none => cp = hexValue line.first
  | some last => (hexValue line.first : Int) ≤ cp ∧ cp ≤ hexValue last

end UcdLine

def fileText (lines : List UcdLine) : List Char := lines.flatMap fun line => line.text ++ ['\n']

/-- `cp` stands on a line whose property field is `propertyName`. -/
def HasProperty (lines : List UcdLine) (propertyName : List Char) (cp : Int) : Prop :=
  ∃ line ∈ lines, line.name = propertyName ∧ line.Has cp

/-- `cp` stands on a line that contains `propertyName`. -/
def Taken (lines : List UcdLine) (propertyName : List Char) (cp : Int) : Prop :=
  ∃ line ∈ lines, propertyName <:+: line.text ++ ['\n'] ∧ line.Has cp

namespace UcdLine

variable (line : UcdLine)

theorem codeRange_subset {c : Char} (mem : c ∈ line.codeRange) :
    (hexDigit c).isSome ∨ c = '.' := by
  rw [codeRange] at mem
  cases range : line.last with
  | none =>
    rw [range] at mem
    exact .inl (line.firstHex.2 c mem)
  | some last =>
    rw [range] at mem
    rcases List.mem_append.mp mem with mem | mem
    · exact .inl (line.firstHex.2 c mem)
    · simp only [List.mem_cons] at mem
      rcases mem with rfl | rfl | mem
      · exact .inr rfl
      · exact .inr rfl
      · exact .inl ((line.lastHex last range).2 c mem)

theorem semicolon_not_mem : ';' ∉ line.codeRange ++ List.replicate line.padding ' ' := by
  intro mem
  rcases List.mem_append.mp mem with mem | mem
  · exact absurd (line.codeRange_subset mem) (by decide)
  · exact absurd (List.eq_of_mem_replicate mem) (by decide)

theorem split_text : ∃ rest, split (line.text ++ ['\n']) [';'] =
    some ((line.codeRange ++ List.replicate line.padding ' ') :: rest) := by
  rw [text, List.append_assoc, List.cons_append, split,
    pieces_skip_all line.semicolon_not_mem]
  exact ⟨_, congrArg some (pieces_found _ _)⟩

theorem strip_codeRange :
    strip (line.codeRange ++ List.replicate line.padding ' ') = line.codeRange := by
  refine strip_append (fun c mem => ?_) (by simp [isSpace])
  rcases line.codeRange_subset mem with digit | rfl
  · exact hexDigit_solid digit
  · rfl

theorem dots_infix : ['.', '.'] <:+: line.codeRange ↔ line.last.isSome := by
  rw [codeRange]
  cases line.last with
  | none =>
    have absent : '.' ∉ line.first := line.firstHex.not_mem (by decide)
    simp only [Option.isSome_none, Bool.false_eq_true, iff_false]
    exact fun dots => absent (dots.subset List.mem_cons_self)
  | some last =>
    simp only [Option.isSome_some, iff_true]
    exact ⟨line.first, last, by simp⟩

theorem split_codeRange {last : List Char} (range : line.last = some last) :
    split line.codeRange ['.', '.'] = some [line.first, last] := by
  have first : '.' ∉ line.first := line.firstHex.not_mem (by decide)
  have second : '.' ∉ last := (line.lastHex last range).not_mem (by decide)
  have behind : pieces '.' ['.'] [] (last ++ []) = [last] := by
    rw [pieces_skip_all second, pieces_nil, List.nil_append]
  have found : pieces '.' ['.'] line.first ('.' :: '.' :: last) = [line.first, last] := by
    rw [List.append_nil] at behind
    rw [← behind]
    exact pieces_found _ _
  rw [codeRange, range, split, pieces_skip_all first, List.nil_append, found]

/-- A line that is taken for the property adds its codepoints. -/
theorem parseLine_spec (propertyName : List Char) (points : Finset Int) :
    ∃ points', parseLine propertyName points (line.text ++ ['\n']) = some points' ∧
      ∀ cp, cp ∈ points' ↔
        cp ∈ points ∨ propertyName <:+: line.text ++ ['\n'] ∧ line.Has cp := by
  have semicolon : [';'] <:+: line.text ++ ['\n'] :=
    (List.singleton_infix_iff _ _).mpr (by simp [text])
  obtain ⟨rest, parts⟩ := line.split_text
  by_cases named : propertyName <:+: line.text ++ ['\n']
  · rw [parseLine, if_pos ⟨semicolon, named⟩, parts]
    simp only [Option.bind_eq_bind, Option.bind_some, List.head?_cons, strip_codeRange,
      dots_infix]
    cases range : line.last with
    | none =>
      have start : line.codeRange = line.first := by rw [codeRange, range]
      simp only [Option.isSome_none, Bool.false_eq_true, if_false, start,
        line.firstHex.int16_eq, Option.bind_some]
      refine ⟨_, rfl, fun cp => ?_⟩
      rw [Has, range, Finset.mem_insert, or_comm, and_iff_right named]
    | some last =>
      simp only [Option.isSome_some, if_true, line.split_codeRange range, Option.bind_some,
        line.firstHex.int16_eq, (line.lastHex last range).int16_eq]
      refine ⟨_, rfl, fun cp => ?_⟩
      rw [Has, range, Finset.mem_union, mem_range, Int.lt_add_one_iff, and_iff_right named]
  · rw [parseLine, if_neg fun both => named both.2]
    exact ⟨points, rfl, fun cp => by simp [named]⟩

theorem not_mem_text {c : Char} (mark : c ∉ [' ', ';', '#', '.']) (other : hexDigit c = none)
    (field : c ∉ line.name ++ line.comment) : c ∉ line.text := by
  intro mem
  simp only [text, List.append_assoc, List.mem_append, List.mem_cons] at mem
  simp only [List.mem_append, List.mem_cons, not_or] at mark field
  rcases mem with range | space | rfl | rfl | name | rfl | rfl | rfl | comment
  · rcases line.codeRange_subset range with digit | rfl
    · exact hexDigit_ne digit other rfl
    · exact mark.2.2.2.1 rfl
  · exact mark.1 (List.eq_of_mem_replicate space)
  all_goals first | exact field.1 name | exact field.2 comment | simp at mark

end UcdLine

theorem taken_cons {line : UcdLine} {lines : List UcdLine} {propertyName : List Char} {cp : Int} :
    Taken (line :: lines) propertyName cp ↔
      (propertyName <:+: line.text ++ ['\n'] ∧ line.Has cp) ∨ Taken lines propertyName cp := by
  simp [Taken]

theorem foldlM_parseLine (propertyName : List Char) (lines : List UcdLine) (points : Finset Int) :
    ∃ points', (lines.map (·.text ++ ['\n'])).foldlM (parseLine propertyName) points =
        some points' ∧
      ∀ cp, cp ∈ points' ↔ cp ∈ points ∨ Taken lines propertyName cp := by
  induction lines generalizing points with
  | nil => exact ⟨points, rfl, fun cp => by simp [Taken]⟩
  | cons line lines ih =>
    obtain ⟨next, parsed, mem_next⟩ := line.parseLine_spec propertyName points
    obtain ⟨points', rest, mem_rest⟩ := ih next
    refine ⟨points', ?_, fun cp => ?_⟩
    · rw [List.map_cons, List.foldlM_cons, parsed]
      exact rest
    · rw [mem_rest, mem_next, or_assoc, taken_cons]

/-- What is returned: the codepoints on the lines that contain the name. -/
theorem parseCodepoints_spec (lines : List UcdLine) (propertyName : List Char) :
    ∃ points, parseCodepoints (fileText lines) propertyName = some points ∧
      ∀ cp, cp ∈ points ↔ Taken lines propertyName cp := by
  have fileText_eq : fileText lines = (lines.map (·.text)).flatMap (· ++ ['\n']) := by
    rw [fileText, List.flatMap_map]
  obtain ⟨points, parsed, mem_points⟩ := foldlM_parseLine propertyName lines ∅
  refine ⟨points, ?_, fun cp => by rw [mem_points]; simp⟩
  rw [parseCodepoints, fileText_eq, readLines_flatMap, List.map_map]
  · exact parsed
  · intro text mem
    obtain ⟨line, _, rfl⟩ := List.mem_map.mp mem
    exact ⟨line.not_mem_text (by decide) (by decide) line.oneLine.1,
      line.not_mem_text (by decide) (by decide) line.oneLine.2⟩

theorem UcdLine.name_infix (line : UcdLine) : line.name <:+: line.text ++ ['\n'] :=
  ⟨line.codeRange ++ List.replicate line.padding ' ' ++ [';', ' '],
    ' ' :: '#' :: ' ' :: line.comment ++ ['\n'], by simp [text]⟩

theorem HasProperty.taken {lines : List UcdLine} {propertyName : List Char} {cp : Int}
    (has : HasProperty lines propertyName cp) : Taken lines propertyName cp := by
  obtain ⟨line, mem, rfl, on⟩ := has
  exact ⟨line, mem, line.name_infix, on⟩

theorem GenerateUnicodeWhitespace.writeDcharIsWs_iff {points : Finset Int} {c : UInt32} :
    writeDcharIsWs points c = true ↔ (c.toNat : Int) ∈ points := by
  simp [writeDcharIsWs]

/-- The points of a property are the codepoints on the lines whose property field is its name, and
`dchar_is_ws` accepts those of `White_Space`. -/
structure ParsedByField (lines : List UcdLine) (propertyName : List Char) : Prop where
  points : ∃ points, parseCodepoints (fileText lines) propertyName = some points ∧
    ∀ cp, cp ∈ points ↔ HasProperty lines propertyName cp
  accepts : propertyName = "White_Space".toList →
    ∃ dcharIsWs, GenerateUnicodeWhitespace.main (fileText lines) = some dcharIsWs ∧
      ∀ c, dcharIsWs c = true ↔ HasProperty lines propertyName c.toNat

theorem ParsedByField.of_taken {lines : List UcdLine} {propertyName : List Char} {cp : Int}
    (parsed : ParsedByField lines propertyName) (taken : Taken lines propertyName cp) :
    HasProperty lines propertyName cp := by
  obtain ⟨points, returned, mem_points⟩ := parsed.points
  obtain ⟨others, also, mem_others⟩ := parseCodepoints_spec lines propertyName
  obtain rfl := Option.some_inj.mp (returned.symm.trans also)
  exact (mem_points cp).mp ((mem_others cp).mpr taken)

/-- A file is parsed by field exactly when the lines that hold the name elsewhere, in another
property's name or in the comment, add nothing. -/
theorem parsedByField_iff (lines : List UcdLine) (propertyName : List Char) :
    ParsedByField lines propertyName ↔
      ∀ line ∈ lines, line.name ≠ propertyName → propertyName <:+: line.text ++ ['\n'] →
        ∀ cp, line.Has cp → HasProperty lines propertyName cp := by
  constructor
  · intro parsed line mem _ contains cp on
    exact parsed.of_taken ⟨line, mem, contains, on⟩
  · intro harmless
    have same : ∀ cp, Taken lines propertyName cp ↔ HasProperty lines propertyName cp := by
      refine fun cp => ⟨?_, HasProperty.taken⟩
      rintro ⟨line, mem, contains, on⟩
      by_cases field : line.name = propertyName
      · exact ⟨line, mem, field, on⟩
      · exact harmless line mem field contains cp on
    obtain ⟨points, returned, mem_points⟩ := parseCodepoints_spec lines propertyName
    refine ⟨⟨points, returned, fun cp => (mem_points cp).trans (same cp)⟩, ?_⟩
    rintro rfl
    refine ⟨GenerateUnicodeWhitespace.writeDcharIsWs points, ?_, fun c => ?_⟩
    · rw [GenerateUnicodeWhitespace.main, returned]
      rfl
    · rw [GenerateUnicodeWhitespace.writeDcharIsWs_iff, mem_points, same]

/-- `0020 ; White_Space # Zs SPACE` -/
def spaceLine : UcdLine where
  first := "0020".toList
  last := none
  padding := 1
  name := "White_Space".toList
  comment := "Zs SPACE".toList
  firstHex := by decide
  lastHex := by rintro _ ⟨⟩
  oneLine := by decide

/-- `200E..200F ; Pattern_White_Space # Cf LEFT-TO-RIGHT MARK..RIGHT-TO-LEFT MARK` -/
def marksLine : UcdLine where
  first := "200E".toList
  last := some "200F".toList
  padding := 1
  name := "Pattern_White_Space".toList
  comment := "Cf LEFT-TO-RIGHT MARK..RIGHT-TO-LEFT MARK".toList
  firstHex := by decide
  lastHex := by
    rintro _ ⟨⟩
    decide
  oneLine := by decide

/-- The marks of `Pattern_White_Space` are taken for `White_Space`. -/
theorem not_parsedByField : ¬ ParsedByField [spaceLine, marksLine] "White_Space".toList := by
  intro parsed
  have on : marksLine.Has 0x200E :=
    show (0x200E : Int) ≤ 0x200E ∧ (0x200E : Int) ≤ 0x200F by decide
  obtain ⟨line, mem, named, has⟩ := parsed.of_taken ⟨marksLine, by simp, by decide, on⟩
  rcases List.mem_pair.mp mem with rfl | rfl
  · have same : (0x200E : Int) = 0x20 := has
    exact absurd same (by decide)
  · exact absurd named (by decide)

end LibCxxExt.Workflows
