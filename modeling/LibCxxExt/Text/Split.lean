import LibCxxExt.ProofKit.Pieces
import Mathlib.Tactic.Ring

/-! `string::split` and `string::join` (`StringEx.h`). Iterators are positions, and moving one out
of `[begin, end]` or building a string from a range outside of it is a failure. Both overloads of
`split` compute the pieces between the occurrences that a scan from the left finds, and `split` and
`join` undo each other. -/

namespace LibCxxExt.Text

open LibCxxExt.ProofKit

section Split

variable {T : Type}

/-- The iterator `it + n` of a string of `size` units. -/
def advance (size it : Nat) (n : Int) : Option Nat :=
  if 0 ≤ (it : Int) + n ∧ (it : Int) + n ≤ size then some ((it : Int) + n).toNat else none

/-- The units of `[first, last)`. -/
def slice (s : List T) (first last : Nat) : Option (List T) :=
  if first ≤ last ∧ last ≤ s.length then some ((s.drop first).take (last - first)) else none

theorem advance_of_le {size it goal : Nat} {n : Int} (moved : (it : Int) + n = goal)
    (inside : goal ≤ size) : advance size it n = some goal := by
  rw [advance, if_pos (by omega), moved, Int.toNat_natCast]

/-- `this->end() - ssz(delimiter.size())`, when the delimiter is not longer than the string. -/
theorem advance_end {s delimiter : List T} (fits : delimiter.length ≤ s.length) :
    advance s.length s.length (-delimiter.length) = some (s.length - delimiter.length) :=
  advance_of_le (by omega) (by omega)

/-- The scan stands at `it`: the piece that started at `first` holds `acc`, and `rest` follows. -/
structure ScansAt (s : List T) (first it : Nat) (acc rest : List T) : Prop where
  first_le : first ≤ it
  le_length : it ≤ s.length
  read : (s.drop first).take (it - first) = acc
  ahead : s.drop it = rest

namespace ScansAt

variable {s acc rest : List T} {first it : Nat}

theorem begin (s : List T) : ScansAt s 0 0 [] s :=
  ⟨le_refl 0, Nat.zero_le _, by simp, by simp⟩

theorem piece (at_ : ScansAt s first it acc rest) : slice s first it = some acc := by
  rw [slice, if_pos ⟨at_.first_le, at_.le_length⟩, at_.read]

theorem length (at_ : ScansAt s first it acc rest) : it + rest.length = s.length := by
  have := at_.le_length
  rw [← at_.ahead, List.length_drop]
  omega

theorem last (at_ : ScansAt s first it acc rest) :
    slice s first s.length = some (acc ++ rest) := by
  have split := List.take_append_drop (it - first) (s.drop first)
  rw [at_.read, List.drop_drop, Nat.add_sub_cancel' at_.first_le, at_.ahead] at split
  have whole : (s.drop first).take (s.length - first) = s.drop first :=
    List.take_of_length_le (by simp)
  rw [slice, if_pos ⟨at_.first_le.trans at_.le_length, le_refl _⟩, whole, ← split]

theorem window (at_ : ScansAt s first it acc rest) {n : Nat} (enough : n ≤ rest.length) :
    slice s it (it + n) = some (rest.take n) := by
  have := at_.length
  rw [slice, if_pos (by omega), at_.ahead, Nat.add_sub_cancel_left]

theorem skip {b : T} (at_ : ScansAt s first it acc (b :: rest)) :
    ScansAt s first (it + 1) (acc ++ [b]) rest := by
  have size := at_.length
  have := at_.first_le
  rw [List.length_cons] at size
  refine ⟨by omega, by omega, ?_, ?_⟩
  · have next : (s.drop first)[it - first]? = some b := by
      rw [List.getElem?_drop, Nat.add_sub_cancel' at_.first_le, ← List.head?_drop, at_.ahead,
        List.head?_cons]
    rw [Nat.sub_add_comm at_.first_le, List.take_add_one, at_.read, next, Option.toList_some]
  · rw [← List.drop_drop, at_.ahead, List.drop_one, List.tail_cons]

theorem restart {ahead : List T} (at_ : ScansAt s first it acc (ahead ++ rest)) :
    ScansAt s (it + ahead.length) (it + ahead.length) [] rest := by
  have size := at_.length
  rw [List.length_append] at size
  refine ⟨le_refl _, by omega, by simp, ?_⟩
  rw [← List.drop_drop, at_.ahead, List.drop_left]

theorem front {b : T} (at_ : ScansAt s first it acc (b :: rest)) :
    it < s.length ∧ s[it]? = some b ∧ advance s.length it 1 = some (it + 1) := by
  have size := at_.length
  rw [List.length_cons] at size
  refine ⟨by omega, ?_, advance_of_le (by omega) (by omega)⟩
  rw [← List.head?_drop, at_.ahead, List.head?_cons]

end ScansAt

/-- `append_back(string(from, this->end()))`, after either loop. -/
def appendLast (s : List T) : Nat × List (List T) → Option (List (List T))
  | (first, ret) => do return ret ++ [← slice s first s.length]

theorem appendLast_eq {s acc rest : List T} {first it : Nat} (ret : List (List T))
    (at_ : ScansAt s first it acc rest) :
    appendLast s (first, ret) = some (ret ++ [acc ++ rest]) := by
  simp [appendLast, at_.last]

variable [DecidableEq T]

/-- The loop of `split(const T)` at `it`, with `from` and `ret`. -/
def splitUnitLoop (s : List T) (delimiter : T) :
    Nat → Nat → Nat → List (List T) → Option (Nat × List (List T))
  | 0, _, _, _ => none
  | fuel + 1, it, first, ret => do
    if it < s.length then
      if (← s[it]?) = delimiter then
        let piece ← slice s first it
        let first ← advance s.length it 1
        splitUnitLoop s delimiter fuel (← advance s.length it 1) first (ret ++ [piece])
      else
        splitUnitLoop s delimiter fuel (← advance s.length it 1) first ret
    else
      return (first, ret)

section UnitLoop

variable {s acc rest : List T} {delimiter b : T} {first it fuel : Nat} {ret : List (List T)}

theorem splitUnitLoop_end (at_ : ScansAt s first it acc []) :
    splitUnitLoop s delimiter (fuel + 1) it first ret = some (first, ret) := by
  have ended : ¬ it < s.length := by simpa using at_.length.ge
  simp [splitUnitLoop, ended]

theorem splitUnitLoop_found (at_ : ScansAt s first it acc (delimiter :: rest)) :
    splitUnitLoop s delimiter (fuel + 1) it first ret =
      splitUnitLoop s delimiter fuel (it + 1) (it + 1) (ret ++ [acc]) := by
  obtain ⟨inside, unit, moved⟩ := at_.front
  simp only [splitUnitLoop, if_pos inside, unit, moved, at_.piece, Option.bind_eq_bind,
    Option.bind_some, if_true]

theorem splitUnitLoop_skip (at_ : ScansAt s first it acc (b :: rest)) (other : b ≠ delimiter) :
    splitUnitLoop s delimiter (fuel + 1) it first ret =
      splitUnitLoop s delimiter fuel (it + 1) first ret := by
  obtain ⟨inside, unit, moved⟩ := at_.front
  simp only [splitUnitLoop, if_pos inside, unit, moved, Option.bind_eq_bind, Option.bind_some,
    if_neg other]

theorem splitUnitLoop_eq (at_ : ScansAt s first it acc rest) (enough : rest.length < fuel) :
    (splitUnitLoop s delimiter fuel it first ret >>= appendLast s) =
      some (ret ++ pieces delimiter [] acc rest) := by
  induction acc, rest using pieces_induct delimiter [] generalizing first it fuel ret with
  | nil acc =>
    obtain ⟨fuel, rfl⟩ := Nat.exists_eq_succ_of_ne_zero (Nat.ne_zero_of_lt enough)
    rw [splitUnitLoop_end at_, pieces_nil, Option.bind_eq_bind, Option.bind_some,
      appendLast_eq ret at_, List.append_nil]
  | found acc rest ih =>
    obtain ⟨fuel, rfl⟩ := Nat.exists_eq_succ_of_ne_zero (Nat.ne_zero_of_lt enough)
    have again : ScansAt s (it + 1) (it + 1) [] rest :=
      (show ScansAt s first it acc ([delimiter] ++ rest) from at_).restart
    rw [splitUnitLoop_found at_, ih again (by simpa using enough), pieces_found,
      List.append_assoc, List.singleton_append]
  | skip acc b rest absent ih =>
    obtain ⟨fuel, rfl⟩ := Nat.exists_eq_succ_of_ne_zero (Nat.ne_zero_of_lt enough)
    have other : b ≠ delimiter := fun same => absent (by simp [same])
    rw [splitUnitLoop_skip at_ other, ih at_.skip (by simpa using enough), pieces_skip absent]

end UnitLoop

/-- `string::split(const T)`. -/
def splitUnit (s : List T) (delimiter : T) : Option (List (List T)) := do
  appendLast s (← splitUnitLoop s delimiter (s.length + 1) 0 0 [])

/-- The loop of `split(const std::basic_string_view<T>)` at `it`, with `from` and `ret`. -/
def splitLoop (s delimiter : List T) :
    Nat → Nat → Nat → List (List T) → Option (Nat × List (List T))
  | 0, _, _, _ => none
  | fuel + 1, it, first, ret => do
    if it ≤ (← advance s.length s.length (-delimiter.length)) then
      if (← slice s it (← advance s.length it delimiter.length)) = delimiter then
        let piece ← slice s first it
        let it ← advance s.length it (delimiter.length - 1)
        let first ← advance s.length it 1
        splitLoop s delimiter fuel (← advance s.length it 1) first (ret ++ [piece])
      else
        splitLoop s delimiter fuel (← advance s.length it 1) first ret
    else
      return (first, ret)

section TextLoop

variable {s d acc rest : List T} {a b : T} {first it fuel : Nat} {ret : List (List T)}

theorem splitLoop_end (fits : (a :: d).length ≤ s.length) (at_ : ScansAt s first it acc rest)
    (short : rest.length ≤ d.length) :
    splitLoop s (a :: d) (fuel + 1) it first ret = some (first, ret) := by
  have size := at_.length
  have ended : ¬ it ≤ s.length - (a :: d).length := by simp only [List.length_cons] at *; omega
  simp only [splitLoop, advance_end fits, Option.bind_eq_bind, Option.bind_some, if_neg ended]
  rfl

theorem splitLoop_found (fits : (a :: d).length ≤ s.length)
    (at_ : ScansAt s first it acc (a :: (d ++ rest))) :
    splitLoop s (a :: d) (fuel + 1) it first ret =
      splitLoop s (a :: d) fuel (it + (a :: d).length) (it + (a :: d).length) (ret ++ [acc]) := by
  have size := at_.length
  have inside : it ≤ s.length - (a :: d).length := by
    simp only [List.length_cons, List.length_append] at *
    omega
  have window : slice s it (it + (a :: d).length) = some (a :: d) := by
    rw [at_.window (by simp), ← List.cons_append, List.take_left]
  have stop : advance s.length it (a :: d).length = some (it + (a :: d).length) :=
    advance_of_le (by omega) (by omega)
  have lastUnit : advance s.length it ((a :: d).length - 1) = some (it + d.length) :=
    advance_of_le (by simp) (by simp at inside fits; omega)
  have next : advance s.length (it + d.length) 1 = some (it + (a :: d).length) :=
    advance_of_le (by simp; omega) (by omega)
  simp only [splitLoop, advance_end fits, if_pos inside, stop, window, at_.piece, lastUnit, next,
    Option.bind_eq_bind, Option.bind_some, if_true]

theorem splitLoop_skip (fits : (a :: d).length ≤ s.length)
    (at_ : ScansAt s first it acc (b :: rest)) (long : d.length ≤ rest.length)
    (absent : ¬ a :: d <+: b :: rest) :
    splitLoop s (a :: d) (fuel + 1) it first ret =
      splitLoop s (a :: d) fuel (it + 1) first ret := by
  have size := at_.length
  have inside : it ≤ s.length - (a :: d).length := by
    simp only [List.length_cons] at *
    omega
  have stop : advance s.length it (a :: d).length = some (it + (a :: d).length) :=
    advance_of_le (by omega) (by omega)
  have window := at_.window (n := (a :: d).length) (by simpa using long)
  have other : (b :: rest).take (a :: d).length ≠ a :: d := fun same =>
    absent (same ▸ List.take_prefix _ _)
  simp only [splitLoop, advance_end fits, if_pos inside, stop, window, at_.front.2.2,
    Option.bind_eq_bind, Option.bind_some, if_neg other]

theorem splitLoop_eq (fits : (a :: d).length ≤ s.length) (at_ : ScansAt s first it acc rest)
    (enough : rest.length < fuel) :
    (splitLoop s (a :: d) fuel it first ret >>= appendLast s) =
      some (ret ++ pieces a d acc rest) := by
  induction acc, rest using pieces_induct a d generalizing first it fuel ret with
  | nil acc =>
    obtain ⟨fuel, rfl⟩ := Nat.exists_eq_succ_of_ne_zero (Nat.ne_zero_of_lt enough)
    rw [splitLoop_end fits at_ (Nat.zero_le _), pieces_nil, Option.bind_eq_bind,
      Option.bind_some, appendLast_eq ret at_, List.append_nil]
  | found acc rest ih =>
    obtain ⟨fuel, rfl⟩ := Nat.exists_eq_succ_of_ne_zero (Nat.ne_zero_of_lt enough)
    have again : ScansAt s (it + (a :: d).length) (it + (a :: d).length) [] rest := at_.restart
    have shorter : rest.length < fuel := by simp at enough; omega
    rw [splitLoop_found fits at_, ih again shorter, pieces_found, List.append_assoc,
      List.singleton_append]
  | skip acc b rest absent ih =>
    obtain ⟨fuel, rfl⟩ := Nat.exists_eq_succ_of_ne_zero (Nat.ne_zero_of_lt enough)
    rcases Nat.lt_or_ge rest.length d.length with short | long
    · have short : (b :: rest).length ≤ d.length := short
      rw [splitLoop_end fits at_ short, pieces_short short, Option.bind_eq_bind,
        Option.bind_some, appendLast_eq ret at_]
    · rw [splitLoop_skip fits at_ long absent, ih at_.skip (by simpa using enough),
        pieces_skip absent]

end TextLoop

/-- `string::split(const std::basic_string_view<T>)`. -/
def split (s delimiter : List T) : Option (List (List T)) :=
  if delimiter.isEmpty then
    some (s.map fun c => [c])
  else if s.length < delimiter.length then
    some [s]
  else do
    appendLast s (← splitLoop s delimiter (s.length + 1) 0 0 [])

theorem splitUnit_eq (s : List T) (delimiter : T) :
    splitUnit s delimiter = some (pieces delimiter [] [] s) :=
  splitUnitLoop_eq (ScansAt.begin s) (Nat.lt_succ_self _)

theorem split_empty (s : List T) : split s [] = some (s.map fun c => [c]) := rfl

theorem split_eq (s : List T) (a : T) (d : List T) :
    split s (a :: d) = some (pieces a d [] s) := by
  rw [split, if_neg (by simp)]
  split_ifs with longer
  · rw [pieces_short (by simp at longer; omega), List.nil_append]
  · exact splitLoop_eq (Nat.le_of_not_lt longer) (ScansAt.begin s) (Nat.lt_succ_self _)

example : split [1, 1, 1, 2, 1, 1] [1, 1] = some [[], [1, 2], []] := by decide

end Split

section Join

variable {T : Type}

/-- What a container of `join` holds: code units, or texts of any type (an array counts every one of
its elements). -/
inductive Part (T : Type)
  | unit (c : T)
  | text (s : List T)

/-- A separator: a code unit, an array whose last element is its terminator, or a text. -/
inductive Separator (T : Type)
  | unit (c : T)
  | array (buf : List T)
  | text (s : List T)

/-- `ret.append(part)`. -/
def Part.units : Part T → List T
  | unit c => [c]
  | text s => s

theorem map_units_text (parts : List (List T)) : (parts.map .text).map Part.units = parts := by
  simp [Function.comp_def, Part.units]

/-- What is appended between two parts. -/
def Separator.units : Separator T → List T
  | unit c => [c]
  | array buf => buf.take (max buf.length 1 - 1)
  | text s => s

/-- The size that `join` reserves. -/
def totalSize (container : List (Part T)) (sep : Separator T) : Nat :=
  let parts := container.foldl (fun total part =>
    match part with
    | .unit _ => total + 1
    | .text s => total + s.length) 0
  if container.length > 1 then
    match sep with
    | .unit _ => parts + (container.length - 1)
    | .array buf => parts + (max buf.length 1 - 1) * (container.length - 1)
    | .text s => parts + s.length * (container.length - 1)
  else
    parts

/-- One round of the loop of `join` over `ret` and `needPrependSep`. -/
def joinStep (sep : Separator T) : List T × Bool → Part T → List T × Bool
  | (ret, needPrependSep), part =>
    ((if needPrependSep then ret ++ sep.units else ret) ++ part.units, true)

/-- `string::join`. -/
def join (container : List (Part T)) (sep : Separator T) : List T :=
  if container.isEmpty then []
  else (container.foldl (joinStep sep) ([], false)).1

theorem joinStep_foldl (sep : Separator T) (container : List (Part T)) (ret : List T) :
    container.foldl (joinStep sep) (ret, true) =
      (ret ++ container.flatMap fun part => sep.units ++ part.units, true) := by
  induction container generalizing ret with
  | nil => simp
  | cons part container ih => simp [joinStep, ih]

/-- `join` puts the separator between the parts. -/
theorem join_eq (container : List (Part T)) (sep : Separator T) :
    join container sep = sep.units.intercalate (container.map Part.units) := by
  rcases container with _ | ⟨part, container⟩
  · rfl
  · rw [List.map_cons, intercalate_cons_eq, List.flatMap_map]
    simp [join, joinStep, joinStep_foldl]

theorem totalSize_parts (container : List (Part T)) (total : Nat) :
    container.foldl (fun total part =>
      match part with
      | .unit _ => total + 1
      | .text s => total + s.length) total = total + (container.flatMap Part.units).length := by
  induction container generalizing total with
  | nil => rfl
  | cons part container ih => cases part <;> simp [ih, Part.units] <;> omega

theorem Separator.length_units (sep : Separator T) : sep.units.length =
    match sep with
    | .unit _ => 1
    | .array buf => max buf.length 1 - 1
    | .text s => s.length := by
  cases sep <;> simp [units]

theorem length_join (container : List (Part T)) (sep : Separator T) :
    (join container sep).length =
      (container.flatMap Part.units).length + sep.units.length * (container.length - 1) := by
  rcases container with _ | ⟨part, container⟩
  · simp [join]
  · rw [join_eq, List.map_cons, intercalate_cons_eq, List.flatMap_map]
    induction container with
    | nil => simp
    | cons next container ih =>
      simp only [List.flatMap_cons, List.length_append, List.length_cons,
        Nat.add_sub_cancel] at ih ⊢
      rw [Nat.mul_succ]
      omega

/-- `join` reserves what it writes. -/
theorem totalSize_eq (container : List (Part T)) (sep : Separator T) :
    totalSize container sep = (join container sep).length := by
  rw [totalSize.eq_def, totalSize_parts, length_join, Separator.length_units]
  dsimp only
  split_ifs with several
  · cases sep <;> simp
  · rw [Nat.sub_eq_zero_of_le (Nat.le_of_not_lt several), Nat.mul_zero]
    omega

end Join

section JoinSplit

variable {T : Type} [DecidableEq T]

/-- `join` inverts both overloads of `split`, whose pieces hold no delimiter; for the empty
delimiter the pieces are the single units. -/
theorem join_split (s : List T) :
    (∀ c, ∃ parts, splitUnit s c = some parts ∧ parts ≠ [] ∧ (∀ part ∈ parts, ¬ [c] <:+: part) ∧
      join (parts.map .text) (.unit c) = s) ∧
    (∀ a d, ∃ parts, split s (a :: d) = some parts ∧ parts ≠ [] ∧
      (∀ part ∈ parts, ¬ a :: d <:+: part) ∧ join (parts.map .text) (.text (a :: d)) = s) ∧
    ∃ parts, split s [] = some parts ∧ parts = s.map (fun c => [c]) ∧
      join (parts.map .text) (.text []) = s := by
  refine ⟨fun c => ?_, fun a d => ?_, ?_⟩
  · refine ⟨_, splitUnit_eq s c, pieces_ne_nil _ _, not_infix_pieces (Unmatched.nil _), ?_⟩
    rw [join_eq, map_units_text]
    exact intercalate_pieces [] s
  · refine ⟨_, split_eq s a d, pieces_ne_nil _ _, not_infix_pieces (Unmatched.nil _), ?_⟩
    rw [join_eq, map_units_text]
    exact intercalate_pieces [] s
  · refine ⟨_, split_empty s, rfl, ?_⟩
    rw [join_eq, map_units_text, Separator.units, intercalate_nil_left, ← List.flatMap_def,
      List.flatMap_singleton']

/-- `split` by a unit takes apart what `join` puts between strings without that unit. -/
theorem split_join (c : T) (parts : List (List T)) (nonempty : parts ≠ [])
    (absent : ∀ part ∈ parts, c ∉ part) :
    splitUnit (join (parts.map .text) (.unit c)) c = some parts := by
  rw [splitUnit_eq, join_eq, map_units_text, Separator.units, pieces_intercalate nonempty absent]

theorem split_join_empty_parts :
    splitUnit (join ([[], [1, 2], [], []].map .text) (.unit 0)) 0 = some [[], [1, 2], [], []] :=
  split_join 0 [[], [1, 2], [], []] (by decide) (by decide)

/-- The overloads of `split` agree on a delimiter of one unit, and a longer one is split at its
greedy leftmost occurrences. The empty delimiter splits into single units. -/
theorem split_between (s : List T) :
    (∀ c, ∃ parts, splitUnit s c = some parts ∧ split s [c] = some parts) ∧
    (∀ a d, ∃ starts, (∀ others, Greedy (a :: d) s 0 others ↔ others = starts) ∧
      split s (a :: d) = some (between (a :: d) s 0 starts)) ∧
    split s [] = some (s.map fun c => [c]) := by
  refine ⟨fun c => ⟨_, splitUnit_eq s c, split_eq s c []⟩, fun a d => ?_, split_empty s⟩
  obtain ⟨starts, greedy, parts⟩ := exists_greedy_pieces (.nil s : Unmatched a d [] s) []
  refine ⟨starts, fun others => ⟨fun other => other.unique greedy, ?_⟩, ?_⟩
  · rintro rfl
    exact greedy
  · rw [split_eq, parts]
    rfl

/-- The empty string has no pieces when it is split by the empty delimiter, which occurs in it. -/
theorem split_empty_not_between :
    (∃ starts, Greedy ([] : List UInt8) [] 0 starts) ∧
      ∀ starts, split ([] : List UInt8) [] ≠ some (between [] [] 0 starts) := by
  refine ⟨⟨[0], .next (le_refl 0) ⟨le_refl 0, List.nil_prefix⟩ (fun k _ high => ?_) ?_⟩, ?_⟩
  · exact absurd high (Nat.not_lt_zero k)
  · refine .none fun k low occurs => ?_
    have := low.trans occurs.1
    simp at this
  · intro starts parts
    rw [split_empty, List.map_nil, Option.some.injEq] at parts
    exact between_ne_nil _ _ _ _ parts.symm

end JoinSplit

end LibCxxExt.Text
