import Mathlib.Data.List.Infix

/-! The pieces of a list between the occurrences of a nonempty pattern that a scan from the left
finds without overlap. Joining the pieces with the pattern gives the list back, no piece contains
the pattern, and the occurrences are the greedy leftmost ones, whose positions are unique. -/

namespace LibCxxExt.ProofKit

variable {α : Type*}

theorem intercalate_cons_eq (sep piece : List α) (rest : List (List α)) :
    sep.intercalate (piece :: rest) = piece ++ rest.flatMap (sep ++ ·) := by
  induction rest generalizing piece with
  | nil => simp
  | cons next rest ih => rw [List.intercalate_cons_cons, ih]; simp

theorem intercalate_nil_left (parts : List (List α)) : [].intercalate parts = parts.flatten := by
  cases parts with
  | nil => rfl
  | cons piece rest => simp [intercalate_cons_eq, List.flatMap_id']

/-- No occurrence of the pattern in `acc ++ s` starts within `acc`. -/
def Unmatched (a : α) (d acc s : List α) : Prop :=
  ∀ x y, acc = x ++ y → y ≠ [] → ¬ a :: d <+: y ++ s

theorem Unmatched.nil {a : α} {d : List α} (s : List α) : Unmatched a d [] s := by
  intro x y split nonempty
  simp_all

theorem Unmatched.not_infix {a : α} {d acc s : List α} (unmatched : Unmatched a d acc s) :
    ¬ a :: d <:+: acc := by
  rintro ⟨x, z, rfl⟩
  refine unmatched x (a :: d ++ z) (by simp) (by simp) ?_
  rw [List.append_assoc]
  exact List.prefix_append _ _

theorem Unmatched.snoc {a b : α} {d acc rest : List α}
    (unmatched : Unmatched a d acc (b :: rest)) (absent : ¬ a :: d <+: b :: rest) :
    Unmatched a d (acc ++ [b]) rest := by
  intro x y split nonempty
  obtain ⟨y, c, rfl⟩ := List.eq_nil_or_concat y |>.resolve_left nonempty
  rw [List.concat_eq_append, ← List.append_assoc] at split
  obtain ⟨rfl, last⟩ := List.append_inj' split rfl
  obtain rfl : b = c := by simpa using last
  rw [List.concat_eq_append, List.append_assoc, List.singleton_append]
  by_cases empty : y = []
  · simpa [empty] using absent
  · exact unmatched x y rfl empty

/-- The pattern `d` stands in `s` at position `i`. -/
def OccursAt (d s : List α) (i : Nat) : Prop :=
  i ≤ s.length ∧ d <+: s.drop i

theorem occursAt_append {d before rest : List α} :
    OccursAt d (before ++ rest) before.length ↔ d <+: rest := by
  simp [OccursAt]

theorem Unmatched.not_occursAt {a : α} {d before acc s : List α} {i : Nat}
    (unmatched : Unmatched a d acc s) (low : before.length ≤ i)
    (high : i < before.length + acc.length) : ¬ OccursAt (a :: d) (before ++ (acc ++ s)) i := by
  obtain ⟨k, rfl⟩ := Nat.exists_eq_add_of_le low
  have inside : k < acc.length := by omega
  have place : (before ++ acc.take k).length = before.length + k := by simp [inside.le]
  rw [← place]
  conv in acc ++ s => rw [← List.take_append_drop k acc]
  rw [List.append_assoc, ← List.append_assoc before, occursAt_append]
  exact unmatched _ _ (List.take_append_drop k acc).symm (by simpa using inside)

/-- The positions `starts` of the occurrences of `d` in `s` that a search from `i` on takes: the
leftmost one, then those of the search that goes on behind it, or one position further on when the
pattern is empty. -/
inductive Greedy (d s : List α) : Nat → List Nat → Prop
  | none {i : Nat} (absent : ∀ k, i ≤ k → ¬ OccursAt d s k) : Greedy d s i []
  | next {i j : Nat} {starts : List Nat} (le : i ≤ j) (occurs : OccursAt d s j)
      (leftmost : ∀ k, i ≤ k → k < j → ¬ OccursAt d s k)
      (rest : Greedy d s (j + max d.length 1) starts) : Greedy d s i (j :: starts)

theorem Greedy.unique {d s : List α} {i : Nat} {starts others : List Nat}
    (greedy : Greedy d s i starts) (other : Greedy d s i others) : starts = others := by
  induction greedy generalizing others with
  | none absent =>
    cases other with
    | none _ => rfl
    | next le occurs _ _ => exact absurd occurs (absent _ le)
  | @next i j starts le occurs leftmost _ ih =>
    cases other with
    | none absent => exact absurd occurs (absent _ le)
    | @next _ k others le' occurs' leftmost' rest' =>
      obtain rfl : j = k := by
        rcases Nat.lt_trichotomy j k with before | same | behind
        · exact absurd occurs (leftmost' j le before)
        · exact same
        · exact absurd occurs' (leftmost k le' behind)
      rw [ih rest']

/-- The parts of `s` from `i` on between the occurrences of `d` at `starts`. -/
def between (d s : List α) : Nat → List Nat → List (List α)
  | i, [] => [s.drop i]
  | i, j :: starts => (s.drop i).take (j - i) :: between d s (j + d.length) starts

theorem between_ne_nil (d s : List α) (i : Nat) (starts : List Nat) :
    between d s i starts ≠ [] := by
  cases starts <;> simp [between]

variable [DecidableEq α]

/-- The pieces of `s`, the first of which starts with `acc`, between the occurrences of the pattern
`a :: d`. -/
def pieces (a : α) (d acc : List α) : List α → List (List α)
  | [] => [acc]
  | b :: rest =>
    if a :: d <+: b :: rest then acc :: pieces a d [] (rest.drop d.length)
    else pieces a d (acc ++ [b]) rest
termination_by s => s.length
decreasing_by all_goals simp only [List.length_drop, List.length_cons]; omega

variable {a : α} {d : List α}

theorem pieces_nil (acc : List α) : pieces a d acc [] = [acc] := by
  rw [pieces]

theorem pieces_found (acc rest : List α) :
    pieces a d acc (a :: (d ++ rest)) = acc :: pieces a d [] rest := by
  rw [pieces, if_pos (by simp), List.drop_left]

theorem pieces_skip {acc rest : List α} {b : α} (absent : ¬ a :: d <+: b :: rest) :
    pieces a d acc (b :: rest) = pieces a d (acc ++ [b]) rest := by
  rw [pieces, if_neg absent]

theorem pieces_short {acc s : List α} (short : s.length ≤ d.length) :
    pieces a d acc s = [acc ++ s] := by
  induction s generalizing acc with
  | nil => simp [pieces_nil]
  | cons b rest ih =>
    have absent : ¬ a :: d <+: b :: rest := fun found => by
      have := found.length_le
      simp only [List.length_cons] at this short
      omega
    rw [pieces_skip absent, ih (by simp at short; omega), List.append_assoc, List.singleton_append]

theorem pieces_skip_all {acc t rest : List α} (absent : a ∉ t) :
    pieces a d acc (t ++ rest) = pieces a d (acc ++ t) rest := by
  induction t generalizing acc with
  | nil => rw [List.nil_append, List.append_nil]
  | cons b t ih =>
    rw [List.mem_cons, not_or] at absent
    have other : ¬ a :: d <+: b :: (t ++ rest) := fun found =>
      absent.1 (List.cons_prefix_cons.mp found).1
    rw [List.cons_append, pieces_skip other, ih absent.2, List.append_assoc,
      List.singleton_append]

/-- Induction over the positions that the scan stops at. -/
theorem pieces_induct (a : α) (d : List α) {motive : List α → List α → Prop}
    (nil : ∀ acc, motive acc [])
    (found : ∀ acc rest, motive [] rest → motive acc (a :: (d ++ rest)))
    (skip : ∀ acc b rest, ¬ a :: d <+: b :: rest → motive (acc ++ [b]) rest →
      motive acc (b :: rest)) (acc s : List α) : motive acc s := by
  induction hn : s.length using Nat.strong_induction_on generalizing acc s with
  | _ n ih =>
    rcases s with _ | ⟨b, rest⟩
    · exact nil acc
    · by_cases here : a :: d <+: b :: rest
      · obtain ⟨tail, htail⟩ := here
        rw [← htail, List.cons_append] at hn ⊢
        exact found acc tail (ih _ (by simp at hn; omega) [] tail rfl)
      · exact skip acc b rest here (ih _ (by simp at hn; omega) _ rest rfl)

theorem pieces_ne_nil (acc s : List α) : pieces a d acc s ≠ [] := by
  induction acc, s using pieces_induct a d with
  | nil acc => simp [pieces_nil]
  | found acc rest _ => simp [pieces_found]
  | skip acc b rest absent ih => rwa [pieces_skip absent]

theorem intercalate_pieces (acc s : List α) :
    (a :: d).intercalate (pieces a d acc s) = acc ++ s := by
  induction acc, s using pieces_induct a d with
  | nil acc => simp [pieces_nil]
  | found acc rest ih =>
    rw [pieces_found, List.intercalate_cons_of_ne_nil (pieces_ne_nil _ _), ih]
    simp
  | skip acc b rest absent ih =>
    rw [pieces_skip absent, ih, List.append_assoc, List.singleton_append]

theorem not_infix_pieces {acc s : List α} (unmatched : Unmatched a d acc s) :
    ∀ piece ∈ pieces a d acc s, ¬ a :: d <:+: piece := by
  induction acc, s using pieces_induct a d with
  | nil acc => simpa [pieces_nil] using unmatched.not_infix
  | found acc rest ih =>
    rw [pieces_found]
    intro piece mem
    rcases List.mem_cons.mp mem with rfl | mem
    · exact unmatched.not_infix
    · exact ih (.nil rest) piece mem
  | skip acc b rest absent ih =>
    rw [pieces_skip absent]
    exact ih (unmatched.snoc absent)

/-- The scan finds the greedy occurrences: `pieces` are the parts between them. -/
theorem exists_greedy_pieces {acc s : List α} (unmatched : Unmatched a d acc s)
    (before : List α) :
    ∃ starts, Greedy (a :: d) (before ++ (acc ++ s)) before.length starts ∧
      pieces a d acc s = between (a :: d) (before ++ (acc ++ s)) before.length starts := by
  induction acc, s using pieces_induct a d generalizing before with
  | nil acc =>
    refine ⟨[], .none fun k low occurs => ?_, by simp [pieces_nil, between]⟩
    rcases Nat.lt_or_ge k (before.length + acc.length) with high | beyond
    · exact unmatched.not_occursAt low high occurs
    · have := occurs.2.length_le
      simp at this
      omega
  | found acc rest ih =>
    obtain ⟨starts, greedy, parts⟩ := ih (.nil rest) (before ++ (acc ++ a :: d))
    have text : before ++ (acc ++ a :: d) ++ ([] ++ rest) =
        before ++ (acc ++ a :: (d ++ rest)) := by
      simp
    have behind : (before ++ (acc ++ a :: d)).length
        = before.length + acc.length + (a :: d).length := by
      simp [Nat.add_assoc]
    rw [text, behind] at greedy parts
    refine ⟨(before.length + acc.length) :: starts, .next (Nat.le_add_right _ _) ?_ ?_ ?_, ?_⟩
    · rw [← List.length_append, ← List.append_assoc, occursAt_append]
      exact ⟨rest, by simp⟩
    · exact fun k low high => unmatched.not_occursAt low high
    · rwa [Nat.max_eq_left (by simp)]
    · rw [pieces_found, parts, between, List.drop_left, Nat.add_sub_cancel_left, List.take_left]
  | skip acc b rest absent ih =>
    obtain ⟨starts, greedy, parts⟩ := ih (unmatched.snoc absent) before
    rw [List.append_assoc, List.singleton_append] at greedy parts
    exact ⟨starts, greedy, by rw [pieces_skip absent, parts]⟩

/-- A pattern of one element: the pieces are those of `List.splitOn`. -/
theorem pieces_unit (acc s : List α) :
    pieces a [] acc s = (s.splitOn a).modifyHead (acc ++ ·) := by
  induction s generalizing acc with
  | nil => simp [pieces_nil]
  | cons b rest ih =>
    rw [List.splitOn_cons_eq_if_modifyHead]
    by_cases same : b = a
    · have found := pieces_found (a := b) (d := []) acc rest
      rw [List.nil_append] at found
      rw [← same, found, same, ih []]
      cases rest.splitOn a <;> simp
    · rw [pieces_skip (by simpa using fun h => same h.symm), ih]
      simp [same, Function.comp_def]

theorem pieces_intercalate {parts : List (List α)} (nonempty : parts ≠ [])
    (absent : ∀ part ∈ parts, a ∉ part) : pieces a [] [] ([a].intercalate parts) = parts := by
  rw [pieces_unit, List.splitOn_intercalate a absent nonempty]
  cases parts <;> rfl

end LibCxxExt.ProofKit
