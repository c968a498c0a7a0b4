import LibCxxExt.ProofKit.Pieces

/-! Self-synchronising codes. Every code word starts with a unit that stands nowhere else in a word,
and no word is a proper prefix of another. In the text of a list of symbols a word is then found
only where a symbol stands, so that prefixes, occurrences and pieces of texts are those of the lists
of symbols. -/

namespace LibCxxExt.ProofKit

variable {α γ : Type*}

/-- The words `enc c` of the valid symbols. -/
structure SelfSync (valid : γ → Prop) (enc : γ → List α) (lead : α → Prop) : Prop where
  shape : ∀ c, valid c → ∃ a trail, enc c = a :: trail ∧ lead a ∧ ∀ b ∈ trail, ¬ lead b
  prefixFree : ∀ c d, valid c → valid d → enc c <+: enc d → c = d

namespace SelfSync

variable {valid : γ → Prop} {enc : γ → List α} {lead : α → Prop} {p cs ds : List γ}

theorem length_pos (code : SelfSync valid enc lead) {c : γ} (hc : valid c) :
    0 < (enc c).length := by
  obtain ⟨a, trail, word, -, -⟩ := code.shape c hc
  simp [word]

/-- A text that is not empty starts with a lead unit. -/
theorem exists_lead (code : SelfSync valid enc lead) (nonempty : p ≠ []) (hp : ∀ c ∈ p, valid c) :
    ∃ a d, p.flatMap enc = a :: d ∧ lead a := by
  obtain ⟨c, p, rfl⟩ := List.exists_cons_of_ne_nil nonempty
  obtain ⟨a, trail, word, isLead, -⟩ := code.shape c (hp c List.mem_cons_self)
  exact ⟨a, trail ++ p.flatMap enc, by simp [word], isLead⟩

/-! ### Prefixes -/

theorem prefix_iff (code : SelfSync valid enc lead) (hp : ∀ c ∈ p, valid c)
    (hcs : ∀ c ∈ cs, valid c) : p.flatMap enc <+: cs.flatMap enc ↔ p <+: cs := by
  induction p generalizing cs with
  | nil => simp
  | cons c p ih =>
    obtain ⟨hc, hp⟩ := List.forall_mem_cons.mp hp
    cases cs with
    | nil =>
      have pos := code.length_pos hc
      constructor
      · intro found
        have := found.length_le
        simp only [List.flatMap_cons, List.length_append, List.flatMap_nil,
          List.length_nil] at this
        omega
      · intro found
        simp at found
    | cons d cs =>
      obtain ⟨hd, hds⟩ := List.forall_mem_cons.mp hcs
      rw [List.flatMap_cons, List.flatMap_cons, List.cons_prefix_cons]
      constructor
      · intro found
        have first : enc c <+: enc d ++ cs.flatMap enc := (List.prefix_append _ _).trans found
        have same : c = d := by
          rcases List.prefix_or_prefix_of_prefix first (List.prefix_append _ _) with le | ge
          · exact code.prefixFree c d hc hd le
          · exact (code.prefixFree d c hd hc ge).symm
        subst same
        exact ⟨rfl, (ih hp hds).mp ((List.prefix_append_right_inj _).mp found)⟩
      · rintro ⟨rfl, rest⟩
        exact (List.prefix_append_right_inj _).mpr ((ih hp hds).mpr rest)

theorem flatMap_inj (code : SelfSync valid enc lead) (hcs : ∀ c ∈ cs, valid c)
    (hds : ∀ c ∈ ds, valid c) : cs.flatMap enc = ds.flatMap enc ↔ cs = ds := by
  constructor
  · intro same
    have front := (code.prefix_iff hcs hds).mp (same ▸ List.prefix_refl _)
    have back := (code.prefix_iff hds hcs).mp (same ▸ List.prefix_refl _)
    exact front.eq_of_length (Nat.le_antisymm front.length_le back.length_le)
  · rintro rfl
    rfl

/-! ### Occurrences -/

/-- A lead unit is the first unit of a word. -/
theorem boundary_of_lead (code : SelfSync valid enc lead) (hcs : ∀ c ∈ cs, valid c) {i : Nat}
    {a : α} {rest : List α} (here : (cs.flatMap enc).drop i = a :: rest) (isLead : lead a) :
    ∃ front back, cs = front ++ back ∧ i = (front.flatMap enc).length := by
  induction cs generalizing i with
  | nil => simp at here
  | cons c cs ih =>
    obtain ⟨hc, hcs⟩ := List.forall_mem_cons.mp hcs
    obtain ⟨x, trail, word, -, trailing⟩ := code.shape c hc
    rcases Nat.eq_zero_or_pos i with rfl | pos
    · exact ⟨[], c :: cs, rfl, rfl⟩
    · rw [List.flatMap_cons, List.drop_append] at here
      rcases Nat.lt_or_ge i (enc c).length with inside | behind
      · -- The unit would stand behind the first one of the word.
        obtain ⟨j, rfl⟩ := Nat.exists_eq_add_one_of_ne_zero pos.ne'
        rw [word, List.drop_succ_cons] at here
        rw [word, List.length_cons] at inside
        have mem : a ∈ trail.drop j := by
          cases tail : trail.drop j with
          | nil =>
            have := congrArg List.length tail
            simp only [List.length_drop, List.length_nil] at this
            omega
          | cons y ys =>
            rw [tail, List.cons_append, List.cons.injEq] at here
            simp [here.1]
        exact absurd isLead (trailing a (List.mem_of_mem_drop mem))
      · rw [List.drop_of_length_le behind, List.nil_append] at here
        obtain ⟨front, back, rfl, size⟩ := ih hcs here
        refine ⟨c :: front, back, rfl, ?_⟩
        rw [List.flatMap_cons, List.length_append, ← size]
        omega

theorem occursAt_iff (code : SelfSync valid enc lead) (nonempty : p ≠ [])
    (hp : ∀ c ∈ p, valid c) (hcs : ∀ c ∈ cs, valid c) {i : Nat} :
    OccursAt (p.flatMap enc) (cs.flatMap enc) i ↔
      ∃ front back, cs = front ++ back ∧ i = (front.flatMap enc).length ∧ p <+: back := by
  constructor
  · rintro ⟨-, found⟩
    obtain ⟨a, d, text, isLead⟩ := code.exists_lead nonempty hp
    obtain ⟨more, here⟩ := found
    rw [text] at here
    obtain ⟨front, back, rfl, rfl⟩ := code.boundary_of_lead hcs here.symm isLead
    refine ⟨front, back, rfl, rfl, ?_⟩
    rw [List.flatMap_append, List.drop_left] at here
    refine (code.prefix_iff hp fun c mem => hcs c (List.mem_append_right _ mem)).mp ?_
    exact ⟨more, by rw [text, here]⟩
  · rintro ⟨front, back, rfl, rfl, found⟩
    rw [List.flatMap_append, occursAt_append]
    exact (code.prefix_iff hp fun c mem => hcs c (List.mem_append_right _ mem)).mpr found

/-- The positions of occurrences are the places of the symbols. -/
theorem occursAt_take_iff (code : SelfSync valid enc lead)
    (hp : ∀ c ∈ p, valid c) (hcs : ∀ c ∈ cs, valid c) {k : Nat} (le : k ≤ cs.length) :
    OccursAt (p.flatMap enc) (cs.flatMap enc) ((cs.take k).flatMap enc).length ↔
      OccursAt p cs k := by
  have split := List.take_append_drop k cs
  have back : ∀ c ∈ cs.drop k, valid c := fun c mem => hcs c (List.mem_of_mem_drop mem)
  conv_lhs => rw [← split, List.flatMap_append]
  rw [split, occursAt_append, code.prefix_iff hp back, OccursAt]
  simp [le]

theorem suffix_iff (code : SelfSync valid enc lead) (hp : ∀ c ∈ p, valid c)
    (hcs : ∀ c ∈ cs, valid c) : p.flatMap enc <:+ cs.flatMap enc ↔ p <:+ cs := by
  constructor
  · intro found
    by_cases empty : p = []
    · simp [empty]
    · obtain ⟨a, d, text, isLead⟩ := code.exists_lead empty hp
      obtain ⟨before, whole⟩ := found
      have here : (cs.flatMap enc).drop before.length = a :: d := by
        rw [← whole, List.drop_left, text]
      obtain ⟨front, back, rfl, size⟩ := code.boundary_of_lead hcs here isLead
      rw [size, List.flatMap_append, List.drop_left, ← text] at here
      have valid_back : ∀ c ∈ back, valid c := fun c mem => hcs c (List.mem_append_right _ mem)
      exact ⟨front, by rw [(code.flatMap_inj valid_back hp).mp here]⟩
  · rintro ⟨front, rfl⟩
    exact ⟨front.flatMap enc, by rw [List.flatMap_append]⟩

/-- The length of the text of the first symbols grows with their number. -/
theorem length_take_lt (code : SelfSync valid enc lead) (hcs : ∀ c ∈ cs, valid c) {j k : Nat}
    (less : j < k) (le : k ≤ cs.length) :
    ((cs.take j).flatMap enc).length < ((cs.take k).flatMap enc).length := by
  obtain ⟨n, rfl⟩ := Nat.exists_eq_add_of_lt less
  have inside : j < cs.length := by omega
  have pos := code.length_pos (hcs cs[j] (List.getElem_mem inside))
  rw [Nat.add_assoc, List.take_add, List.flatMap_append, List.length_append,
    List.drop_eq_getElem_cons inside, List.take_succ_cons, List.flatMap_cons, List.length_append]
  omega

/-! ### Pieces -/

variable [DecidableEq α] [DecidableEq γ]

/-- The pieces of a text between the occurrences of another one are the texts of the pieces. -/
theorem pieces_flatMap (code : SelfSync valid enc lead) {c : γ} {a : α} {d : List α}
    (pattern : (c :: p).flatMap enc = a :: d) (hp : ∀ x ∈ c :: p, valid x) (acc : List γ)
    (hcs : ∀ x ∈ cs, valid x) :
    pieces a d (acc.flatMap enc) (cs.flatMap enc) = (pieces c p acc cs).map (·.flatMap enc) := by
  have isLead : lead a := by
    obtain ⟨x, y, text, isLead⟩ := code.exists_lead (List.cons_ne_nil c p) hp
    rw [pattern, List.cons.injEq] at text
    exact text.1 ▸ isLead
  induction acc, cs using pieces_induct c p with
  | nil acc => simp [pieces_nil]
  | found acc rest ih =>
    have text : (c :: (p ++ rest)).flatMap enc = a :: (d ++ rest.flatMap enc) := by
      rw [← List.cons_append, List.flatMap_append, pattern, List.cons_append]
    have later := ih fun x mem => hcs x (by simp [mem])
    rw [text, pieces_found, pieces_found, List.map_cons, ← later, List.flatMap_nil]
  | skip acc b rest absent ih =>
    obtain ⟨x, trail, word, -, trailing⟩ := code.shape b (hcs b List.mem_cons_self)
    have text : (b :: rest).flatMap enc = x :: (trail ++ rest.flatMap enc) := by
      rw [List.flatMap_cons, word, List.cons_append]
    have missing : ¬ a :: d <+: x :: (trail ++ rest.flatMap enc) := by
      rw [← pattern, ← text, code.prefix_iff hp hcs]
      exact absent
    have skipped : a ∉ trail := fun mem => trailing a mem isLead
    have grown : acc.flatMap enc ++ [x] ++ trail = (acc ++ [b]).flatMap enc := by
      simp [List.flatMap_append, word]
    rw [text, pieces_skip missing, pieces_skip_all skipped, grown, pieces_skip absent,
      ih fun y mem => hcs y (List.mem_cons_of_mem _ mem)]

end SelfSync

end LibCxxExt.ProofKit
