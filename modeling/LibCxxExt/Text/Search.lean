import LibCxxExt.Text.Split

/-! The searching functions of `string` (`StringEx.h`): `contains`, `starts_with`, `ends_with`,
`find_index` and `substr`. Positions are counted in units, and `std::basic_string::find` is the
leftmost occurrence. `split` cuts where `find_index` points to. -/

namespace LibCxxExt.Text

open LibCxxExt.ProofKit

section Model

variable {T : Type} [DecidableEq T]

/-- `std::basic_string::find`: the least position from `pos` on where `substr` stands, or `npos`. -/
def find (s substr : List T) (pos : Nat) : Option Nat :=
  (List.range' pos (s.length + 1 - pos)).find? fun i => substr.isPrefixOf (s.drop i)

def contains (s substr : List T) : Bool := (find s substr 0).isSome

def startsWithUnit (s : List T) (c : T) : Bool := !s.isEmpty && s.head? == some c

def startsWith (s substr : List T) : Bool := s.take substr.length == substr

def endsWithUnit (s : List T) (c : T) : Bool := !s.isEmpty && s.getLast? == some c

def endsWith (s substr : List T) : Bool :=
  s.length ≥ substr.length && s.drop (s.length - substr.length) == substr

/-- `find_index(const std::basic_string_view<T>, const sz)`. -/
def findIndex (s substr : List T) (first : Nat) : Nat :=
  if first ≥ s.length then s.length
  else
    match find s substr first with
    | some ret => ret
    | none => s.length

/-- `find_index(const T, const sz)`, where `find` looks for the text of one unit. -/
def findIndexUnit (s : List T) (c : T) (first : Nat) : Nat :=
  if first ≥ s.length then s.length
  else
    match find s [c] first with
    | some ret => ret
    | none => s.length

/-- `substr`, whose count may reach past the end. -/
def substr (s : List T) (first count : Nat) : List T :=
  if first ≥ s.length then [] else (s.drop first).take count

end Model

section Search

variable {T : Type} [DecidableEq T] {s d : List T}

/-! ### Positions -/

omit [DecidableEq T] in
theorem mem_range'_iff {i pos : Nat} :
    i ∈ List.range' pos (s.length + 1 - pos) ↔ pos ≤ i ∧ i ≤ s.length := by
  rw [List.mem_range'_1]
  omega

theorem find_eq_some_iff {pos i : Nat} :
    find s d pos = some i ↔
      pos ≤ i ∧ OccursAt d s i ∧ ∀ k, pos ≤ k → k < i → ¬ OccursAt d s k := by
  rw [find, List.find?_range'_eq_some, mem_range'_iff, List.isPrefixOf_iff_prefix]
  constructor
  · rintro ⟨here, ⟨low, high⟩, before⟩
    refine ⟨low, ⟨high, here⟩, fun k lowK less occurs => ?_⟩
    have absent := before k lowK less
    rw [List.isPrefixOf_iff_prefix.mpr occurs.2] at absent
    cases absent
  · rintro ⟨low, ⟨high, here⟩, before⟩
    refine ⟨here, ⟨low, high⟩, fun k lowK less => ?_⟩
    rw [Bool.not_eq_true', ← Bool.not_eq_true, List.isPrefixOf_iff_prefix]
    exact fun found => before k lowK less ⟨less.le.trans high, found⟩

theorem find_eq_none_iff {pos : Nat} :
    find s d pos = none ↔ ∀ k, pos ≤ k → ¬ OccursAt d s k := by
  rw [find, List.find?_eq_none]
  constructor
  · intro absent k low occurs
    exact absent k (mem_range'_iff.mpr ⟨low, occurs.1⟩) (List.isPrefixOf_iff_prefix.mpr occurs.2)
  · intro absent k mem found
    obtain ⟨low, high⟩ := mem_range'_iff.mp mem
    exact absent k low ⟨high, List.isPrefixOf_iff_prefix.mp found⟩

theorem contains_iff : contains s d = true ↔ d <:+: s := by
  rw [contains, Option.isSome_iff_ne_none, Ne, find_eq_none_iff]
  constructor
  · intro found
    by_contra absent
    refine found fun k _ occurs => absent ?_
    exact occurs.2.isInfix.trans (List.drop_suffix k s).isInfix
  · rintro ⟨front, back, rfl⟩ absent
    refine absent front.length (Nat.zero_le _) ?_
    rw [List.append_assoc, occursAt_append]
    exact List.prefix_append d back

theorem startsWith_iff : startsWith s d = true ↔ d <+: s := by
  rw [startsWith, beq_iff_eq, List.prefix_iff_eq_take, eq_comm]

theorem endsWith_iff : endsWith s d = true ↔ d <:+ s := by
  rw [endsWith, Bool.and_eq_true, decide_eq_true_iff, beq_iff_eq, List.suffix_iff_eq_drop]
  constructor
  · rintro ⟨-, same⟩
    exact same.symm
  · intro same
    refine ⟨?_, same.symm⟩
    rw [same, List.length_drop]
    omega

/-- The overloads for a unit agree with those for the text of that unit. -/
theorem searchUnit_eq (s : List T) (c : T) :
    startsWithUnit s c = startsWith s [c] ∧ endsWithUnit s c = endsWith s [c] ∧
      findIndexUnit s c = findIndex s [c] := by
  refine ⟨?_, ?_, rfl⟩
  · cases s with
    | nil => rfl
    | cons a s => simp [startsWithUnit, startsWith]
  · rw [Bool.eq_iff_iff, endsWith_iff]
    rcases List.eq_nil_or_concat s with rfl | ⟨s, a, rfl⟩
    · simp [endsWithUnit]
    · have last : [c] <:+ s ++ [a] ↔ a = c := by
        rw [List.suffix_iff_eq_drop]
        simp [eq_comm]
      rw [List.concat_eq_append, last]
      simp [endsWithUnit]

theorem findIndex_of_find {i : Nat} (nonempty : d ≠ []) {first : Nat}
    (found : find s d first = some i) : findIndex s d first = i ∧ i < s.length := by
  obtain ⟨low, ⟨high, here⟩, -⟩ := find_eq_some_iff.mp found
  have size := here.length_le
  have pos := List.length_pos_of_ne_nil nonempty
  rw [List.length_drop] at size
  have inside : ¬ first ≥ s.length := by omega
  exact ⟨by simp [findIndex, inside, found], by omega⟩

theorem findIndex_of_not_find {first : Nat} (absent : find s d first = none) :
    findIndex s d first = s.length := by
  simp [findIndex, absent]

/-! ### Cutting -/

omit [DecidableEq T] in
theorem substr_zero (s : List T) (i : Nat) : substr s 0 i = s.take i := by
  cases s <;> simp [substr]

omit [DecidableEq T] in
/-- A count of `size()` reaches the end. -/
theorem substr_length (s : List T) (i : Nat) : substr s i s.length = s.drop i := by
  unfold substr
  split_ifs with behind
  · rw [List.drop_eq_nil_of_le behind]
  · exact List.take_of_length_le (by simp)

theorem pieces_of_absent {a : T} {d acc s : List T} (absent : ∀ k, ¬ OccursAt (a :: d) s k) :
    pieces a d acc s = [acc ++ s] := by
  induction acc, s using pieces_induct a d with
  | nil acc => simp [pieces_nil]
  | found acc rest _ => exact absurd ⟨Nat.zero_le _, by simp⟩ (absent 0)
  | skip acc b rest missing ih =>
    rw [pieces_skip missing, ih, List.append_assoc, List.singleton_append]
    exact fun k occurs => absent (k + 1) ⟨Nat.succ_le_succ occurs.1, occurs.2⟩

/-- The first piece ends at the leftmost occurrence, and the others are those of what is behind
it. -/
theorem pieces_of_leftmost {a : T} {d acc s : List T} {i : Nat} (occurs : OccursAt (a :: d) s i)
    (leftmost : ∀ k, k < i → ¬ OccursAt (a :: d) s k) :
    pieces a d acc s = (acc ++ s.take i) :: pieces a d [] (s.drop (i + (a :: d).length)) := by
  induction acc, s using pieces_induct a d generalizing i with
  | nil acc =>
    have := occurs.2.length_le
    simp at this
  | found acc rest _ =>
    obtain rfl : i = 0 := by
      by_contra pos
      exact leftmost 0 (Nat.pos_of_ne_zero pos) ⟨Nat.zero_le _, by simp⟩
    rw [pieces_found, List.take_zero, List.append_nil, Nat.zero_add, List.length_cons,
      List.drop_succ_cons, List.drop_left]
  | skip acc b rest missing ih =>
    cases i with
    | zero => exact absurd occurs.2 missing
    | succ i =>
      have here : OccursAt (a :: d) rest i := ⟨Nat.le_of_succ_le_succ occurs.1, occurs.2⟩
      rw [pieces_skip missing, ih here fun k less found => leftmost (k + 1) (Nat.succ_lt_succ less)
        ⟨Nat.succ_le_succ found.1, found.2⟩, Nat.succ_add, List.take_succ_cons,
        List.drop_succ_cons, List.append_assoc, List.singleton_append]

theorem split_cons_find (s : List T) (a : T) (d : List T) : split s (a :: d) =
    if findIndex s (a :: d) 0 = s.length then some [s]
    else (split (substr s (findIndex s (a :: d) 0 + (a :: d).length) s.length) (a :: d)).map
      (substr s 0 (findIndex s (a :: d) 0) :: ·) := by
  rw [split_eq]
  rcases found : find s (a :: d) 0 with _ | i
  · have absent := find_eq_none_iff.mp found
    rw [if_pos (findIndex_of_not_find found), pieces_of_absent fun k => absent k (Nat.zero_le k),
      List.nil_append]
  · obtain ⟨index, inside⟩ := findIndex_of_find (List.cons_ne_nil a d) found
    obtain ⟨-, occurs, leftmost⟩ := find_eq_some_iff.mp found
    rw [index, if_neg inside.ne, split_eq, substr_length, substr_zero, Option.map_some,
      pieces_of_leftmost occurs fun k => leftmost k (Nat.zero_le k), List.nil_append]

/-- Both overloads of `split` cut at `find_index`, if the delimiter is not empty: where it finds
nothing the text is the only piece, and else the first piece is the `substr` before it and the
others are those of the `substr` behind the delimiter. -/
theorem split_find (s : List T) :
    (∀ c, splitUnit s c = if findIndexUnit s c 0 = s.length then some [s]
      else (splitUnit (substr s (findIndexUnit s c 0 + 1) s.length) c).map
        (substr s 0 (findIndexUnit s c 0) :: ·)) ∧
    ∀ a d, split s (a :: d) = if findIndex s (a :: d) 0 = s.length then some [s]
      else (split (substr s (findIndex s (a :: d) 0 + (a :: d).length) s.length) (a :: d)).map
        (substr s 0 (findIndex s (a :: d) 0) :: ·) := by
  refine ⟨fun c => ?_, fun a d => split_cons_find s a d⟩
  have units (t : List T) : splitUnit t c = split t [c] := by rw [splitUnit_eq, split_eq]
  rw [units, units]
  exact split_cons_find s c []

end Search

end LibCxxExt.Text
