import LibCxxExt.Containers.InplaceQueue
import LibCxxExt.ProofKit.Slots
import Mathlib.Data.List.Dedup

/-! `inplace_set` (`InplaceSet.h`): the values are the first slots of an array, an insertion appends
one, and an erasure moves the last one into the hole. An insertion does not look for the value, so
the container is a set exactly as long as no call inserts a value that it contains. -/

namespace LibCxxExt.Containers

open LibCxxExt.ProofKit

/-- A slot is `none` while nothing was stored in it or what was stored is moved from; `size` is
`_size`. -/
structure InplaceSet (T : Type) (n : Capacity) where
  data : Vector (Option T) n.value.toNat
  size : UInt64

inductive SetCall (T : Type)
  | tryInsert (value : T)
  | tryErase (value : T)

namespace InplaceSet

variable {T : Type} {n : Capacity}

def init : InplaceSet T n := ⟨Vector.replicate _ none, 0⟩

def tryInsert (s : InplaceSet T n) (value : T) : Option (Bool × InplaceSet T n) :=
  if s.size == n.value then some (false, s)
  else do
    let data ← writeSlot s.data s.size.toNat (some value)
    return (true, ⟨data, s.size + 1⟩)

section Search

variable [DecidableEq T]

/-- The loop of `try_erase` at `i`. The last slot is moved from, also where it is the hole. -/
def tryEraseLoop (s : InplaceSet T n) (value : T) : Nat → UInt64 → Option (Bool × InplaceSet T n)
  | 0, _ => none
  | fuel + 1, i => do
    if i < s.size then
      if (← readSlot s.data i.toNat) = value then
        let size := s.size - 1
        let data ← writeSlot s.data i.toNat (some (← readSlot s.data size.toNat))
        return (true, ⟨← writeSlot data size.toNat none, size⟩)
      else
        s.tryEraseLoop value fuel (i + 1)
    else
      return (false, s)

def tryErase (s : InplaceSet T n) (value : T) : Option (Bool × InplaceSet T n) :=
  s.tryEraseLoop value (s.size.toNat + 1) 0

/-- The loop of `contains` at `i`. -/
def containsLoop (s : InplaceSet T n) (value : T) : Nat → UInt64 → Option Bool
  | 0, _ => none
  | fuel + 1, i => do
    if i < s.size then
      if (← readSlot s.data i.toNat) = value then return true
      else s.containsLoop value fuel (i + 1)
    else
      return false

def contains (s : InplaceSet T n) (value : T) : Option Bool :=
  s.containsLoop value (s.size.toNat + 1) 0

def call (s : InplaceSet T n) : SetCall T → Option (Bool × InplaceSet T n)
  | .tryInsert value => s.tryInsert value
  | .tryErase value => s.tryErase value

/-- A call, after which the history tells what it returned. -/
def step : List (SetCall T × Bool) × InplaceSet T n → SetCall T →
    Option (List (SetCall T × Bool) × InplaceSet T n)
  | (history, s), c => do
    let (returned, s) ← s.call c
    return (history ++ [(c, returned)], s)

def run (calls : List (SetCall T)) : Option (List (SetCall T × Bool) × InplaceSet T n) :=
  calls.foldlM step ([], init)

end Search

/-! ### The first slots hold a list -/

/-- The set holds `l`, a list that may repeat a value. -/
structure Holds (s : InplaceSet T n) (l : List T) : Prop where
  fills : Fills s.data l
  size : s.size.toNat = l.length

variable {s : InplaceSet T n} {l : List T}

theorem holds_init : (init : InplaceSet T n).Holds [] := ⟨.empty, rfl⟩

theorem Holds.size_eq_iff (h : s.Holds l) : s.size = n.value ↔ ¬ l.length < n.value.toNat := by
  have fits := h.fills.fits
  rw [← UInt64.toNat_inj, h.size]
  omega

theorem tryInsert_full (h : s.Holds l) (value : T) (all : ¬ l.length < n.value.toNat) :
    s.tryInsert value = some (false, s) :=
  if_pos (by simpa using h.size_eq_iff.mpr all)

theorem tryInsert_room (h : s.Holds l) (value : T) (room : l.length < n.value.toNat) :
    ∃ s', s.tryInsert value = some (true, s') ∧ s'.Holds (l ++ [value]) := by
  have below := n.value.toNat_lt
  have notFull : ¬ s.size = n.value := fun all => h.size_eq_iff.mp all room
  obtain ⟨data, written, fills⟩ := h.fills.push room value
  refine ⟨⟨data, s.size + 1⟩, ?_, fills, ?_⟩
  · rw [← h.size] at written
    simp [tryInsert, notFull, written]
  · rw [UInt64.toNat_add, h.size, List.length_append, List.length_singleton]
    exact Nat.mod_eq_of_lt (by simp; omega)

theorem Holds.next (h : s.Holds l) {i : UInt64} (within : i.toNat < l.length) :
    (i + 1).toNat = i.toNat + 1 := by
  have below := s.size.toNat_lt
  rw [h.size] at below
  rw [UInt64.toNat_add]
  exact Nat.mod_eq_of_lt (by simp; omega)

theorem Holds.lt_size_iff (h : s.Holds l) (i : UInt64) : i < s.size ↔ i.toNat < l.length := by
  rw [UInt64.lt_iff_toNat_lt, h.size]

variable [DecidableEq T] {value : T}

/-- A round of the loop that meets the value. -/
theorem tryEraseLoop_found (h : s.Holds l) {i : UInt64} {fuel : Nat}
    (here : l[i.toNat]? = some value) :
    ∃ front last s', l = front ++ [last] ∧
      s.tryEraseLoop value (fuel + 1) i = some (true, s') ∧ s'.Holds (front.set i.toNat last) := by
  obtain ⟨within, -⟩ := List.getElem?_eq_some_iff.mp here
  have nonempty : l ≠ [] := List.ne_nil_of_length_pos (by omega)
  obtain ⟨front, last, rfl⟩ := (List.eq_nil_or_concat' l).resolve_left nonempty
  have size := h.size
  rw [List.length_append, List.length_singleton] at size within
  have shrunk : (s.size - 1).toNat = front.length := by
    rw [UInt64.toNat_sub_of_le _ _ (UInt64.le_iff_toNat_le.mpr (by simp; omega)), size]
    rfl
  obtain ⟨data', data'', filled, emptied, fills⟩ := h.fills.fillHole (i := i.toNat) (by omega)
  have read : readSlot s.data i.toNat = some value := (h.fills.slot _).trans here
  have moved : readSlot s.data front.length = some last := by simp [h.fills.slot]
  refine ⟨front, last, ⟨data'', s.size - 1⟩, rfl, ?_, fills, by simpa using shrunk⟩
  have inside : i < s.size := (h.lt_size_iff i).mpr (by simpa using within)
  simp [tryEraseLoop, inside, read, shrunk, moved, filled, emptied]

/-- A round of either loop that meets another value. -/
theorem loops_skip (h : s.Holds l) {i : UInt64} {fuel : Nat} (within : i.toNat < l.length)
    (other : l[i.toNat] ≠ value) :
    s.tryEraseLoop value (fuel + 1) i = s.tryEraseLoop value fuel (i + 1) ∧
      s.containsLoop value (fuel + 1) i = s.containsLoop value fuel (i + 1) := by
  have inside : i < s.size := (h.lt_size_iff i).mpr within
  have read : readSlot s.data i.toNat = some l[i.toNat] := by
    rw [h.fills.slot, List.getElem?_eq_getElem within]
  constructor
  · simp [tryEraseLoop, inside, read, other]
  · simp [containsLoop, inside, read, other]

theorem tryEraseLoop_eq (h : s.Holds l) {i : UInt64} {fuel : Nat} (low : i.toNat ≤ l.length)
    (enough : l.length < i.toNat + fuel) :
    value ∉ l.drop i.toNat ∧ s.tryEraseLoop value fuel i = some (false, s) ∨
      ∃ front last k s', l = front ++ [last] ∧ l[k]? = some value ∧
        s.tryEraseLoop value fuel i = some (true, s') ∧ s'.Holds (front.set k last) := by
  induction fuel generalizing i with
  | zero => omega
  | succ fuel ih =>
    rcases Nat.lt_or_ge i.toNat l.length with within | beyond
    · have here := List.getElem?_eq_getElem within
      by_cases same : l[i.toNat] = value
      · rw [same] at here
        obtain ⟨front, last, s', split, erased, holds⟩ := tryEraseLoop_found h here
        exact .inr ⟨front, last, i.toNat, s', split, here, erased, holds⟩
      · have next := h.next within
        rw [(loops_skip h within same).1, List.drop_eq_getElem_cons within, ← next]
        refine (ih (by omega) (by omega)).imp_left fun ⟨absent, ended⟩ => ⟨?_, ended⟩
        simpa using ⟨Ne.symm same, absent⟩
    · have ended : ¬ i < s.size := by
        rw [h.lt_size_iff]
        omega
      exact .inl ⟨by simp [List.drop_of_length_le beyond], by simp [tryEraseLoop, ended]⟩

theorem containsLoop_eq (h : s.Holds l) {i : UInt64} {fuel : Nat} (low : i.toNat ≤ l.length)
    (enough : l.length < i.toNat + fuel) :
    s.containsLoop value fuel i = some (decide (value ∈ l.drop i.toNat)) := by
  induction fuel generalizing i with
  | zero => omega
  | succ fuel ih =>
    rcases Nat.lt_or_ge i.toNat l.length with within | beyond
    · rw [List.drop_eq_getElem_cons within]
      by_cases same : l[i.toNat] = value
      · have inside : i < s.size := (h.lt_size_iff i).mpr within
        have read : readSlot s.data i.toNat = some l[i.toNat] := by
          rw [h.fills.slot, List.getElem?_eq_getElem within]
        simp [containsLoop, inside, read, same]
      · have next := h.next within
        rw [(loops_skip h within same).2, ih (by omega) (by omega), next]
        simp only [List.mem_cons, Ne.symm same, false_or]
    · have ended : ¬ i < s.size := by
        rw [h.lt_size_iff]
        omega
      simp [containsLoop, ended, List.drop_of_length_le beyond]

theorem contains_eq (h : s.Holds l) (value : T) :
    s.contains value = some (decide (value ∈ l)) :=
  containsLoop_eq h (Nat.zero_le _) (by simp [h.size])

theorem tryErase_cases (h : s.Holds l) (value : T) :
    value ∉ l ∧ s.tryErase value = some (false, s) ∨
      ∃ front last k s', l = front ++ [last] ∧ l[k]? = some value ∧
        s.tryErase value = some (true, s') ∧ s'.Holds (front.set k last) :=
  tryEraseLoop_eq h (i := 0) (Nat.zero_le _) (by simp [h.size])

/-- An erasure from a list without repetitions removes the value, if it is there. -/
theorem tryErase_eq (h : s.Holds l) (distinct : l.Nodup) (value : T) :
    ∃ s' l', s.tryErase value = some (decide (value ∈ l), s') ∧ s'.Holds l' ∧ l'.Nodup ∧
      ∀ w, w ∈ l' ↔ w ∈ l ∧ w ≠ value := by
  rcases tryErase_cases h value with
    ⟨absent, erased⟩ | ⟨front, last, k, s', rfl, at_, erased, holds⟩
  · refine ⟨s, l, by simpa [absent] using erased, h, distinct, fun w => ?_⟩
    refine ⟨fun mem => ⟨mem, ?_⟩, And.left⟩
    rintro rfl
    exact absent mem
  · have mem := List.mem_of_getElem? at_
    exact ⟨s', _, by rw [erased, decide_eq_true mem], holds, nodup_set distinct at_,
      fun w => mem_set_iff distinct at_⟩

/-- Every call is defined, whatever the set holds. -/
theorem call_holds (h : s.Holds l) (c : SetCall T) :
    ∃ returned s' l', s.call c = some (returned, s') ∧ s'.Holds l' := by
  cases c with
  | tryInsert value =>
    by_cases room : l.length < n.value.toNat
    · obtain ⟨s', inserted, holds⟩ := tryInsert_room h value room
      exact ⟨true, s', _, inserted, holds⟩
    · exact ⟨false, s, l, tryInsert_full h value room, h⟩
  | tryErase value =>
    rcases tryErase_cases h value with ⟨_, erased⟩ | ⟨front, last, k, s', _, _, erased, holds⟩
    · exact ⟨false, s, l, erased, h⟩
    · exact ⟨true, s', _, erased, holds⟩

/-! ### Runs -/

section Runs

variable {history : List (SetCall T × Bool)}

theorem run_snoc (calls : List (SetCall T)) (c : SetCall T) :
    (run (calls ++ [c]) : Option (_ × InplaceSet T n)) = run calls >>= (step · c) := by
  simp [run, List.foldlM_append]

theorem run_holds (n : Capacity) (calls : List (SetCall T)) :
    ∃ history, ∃ s : InplaceSet T n, ∃ l, run calls = some (history, s) ∧ s.Holds l := by
  induction calls using List.reverseRecOn with
  | nil => exact ⟨[], init, [], rfl, holds_init⟩
  | append_singleton calls c ih =>
    obtain ⟨history, s, l, reached, holds⟩ := ih
    obtain ⟨returned, s', l', called, holds'⟩ := call_holds holds c
    refine ⟨history ++ [(c, returned)], s', l', ?_, holds'⟩
    rw [run_snoc, reached]
    simp [step, called]

/-- The value was inserted and not erased since. -/
def InsertedSince (history : List (SetCall T × Bool)) (value : T) : Prop :=
  ∃ before after, history = before ++ (.tryInsert value, true) :: after ∧
    (.tryErase value, true) ∉ after

omit [DecidableEq T] in
theorem insertedSince_snoc (e : SetCall T × Bool) (value : T) :
    InsertedSince (history ++ [e]) value ↔ e = (.tryInsert value, true) ∨
      e ≠ (.tryErase value, true) ∧ InsertedSince history value := by
  constructor
  · rintro ⟨before, after, split, kept⟩
    rcases List.eq_nil_or_concat' after with rfl | ⟨after, last, rfl⟩
    · exact .inl (List.append_inj' split rfl |>.2 |> List.singleton_inj.mp)
    · rw [← List.cons_append, ← List.append_assoc] at split
      obtain ⟨rfl, same⟩ := List.append_inj' split rfl
      obtain rfl := List.singleton_inj.mp same
      rw [List.mem_append, not_or, List.mem_singleton] at kept
      exact .inr ⟨Ne.symm kept.2, before, after, rfl, kept.1⟩
  · rintro (rfl | ⟨other, before, after, rfl, kept⟩)
    · exact ⟨history, [], rfl, List.not_mem_nil⟩
    · refine ⟨before, after ++ [e], by simp, ?_⟩
      rw [List.mem_append, not_or, List.mem_singleton]
      exact ⟨kept, other.symm⟩

def stored (s : InplaceSet T n) : List T :=
  (List.range s.size.toNat).filterMap (readSlot s.data)

/-- What makes the container a set: no two slots hold one value, so the size is the number of
distinct values; it contains what was inserted and not erased since; and an erasure removes the
value and no other. -/
structure IsSet (history : List (SetCall T × Bool)) (s : InplaceSet T n) : Prop where
  once : ∀ i < s.size.toNat, ∀ j < s.size.toNat,
    readSlot s.data i = readSlot s.data j → i = j
  size : s.size.toNat = s.stored.dedup.length
  contains : ∀ value, ∃ found, s.contains value = some found ∧
    (found = true ↔ InsertedSince history value)
  erased : ∀ value, ∃ returned s', s.tryErase value = some (returned, s') ∧
    (returned = true → s'.contains value = some false) ∧
    ∀ other, other ≠ value → s'.contains other = s.contains other

omit [DecidableEq T] in
theorem Holds.stored_eq (h : s.Holds l) : s.stored = l := by
  rw [stored, h.size, show readSlot s.data = fun i => l[i]? from funext h.fills.slot,
    filterMap_getElem?_range]

/-- The set holds a list without repetitions, of the values inserted and not erased since. -/
structure Keeps (history : List (SetCall T × Bool)) (s : InplaceSet T n) (l : List T) : Prop where
  holds : s.Holds l
  distinct : l.Nodup
  mem : ∀ value, value ∈ l ↔ InsertedSince history value

theorem Keeps.isSet (h : Keeps history s l) : IsSet history s where
  once i hi j hj same := by
    rw [h.holds.size] at hi hj
    rw [h.holds.fills.slot, h.holds.fills.slot] at same
    exact (List.getElem?_inj hi h.distinct).mp same
  size := by rw [h.holds.stored_eq, h.distinct.dedup, h.holds.size]
  contains value := ⟨_, contains_eq h.holds value, by rw [decide_eq_true_iff, h.mem]⟩
  erased value := by
    obtain ⟨s', l', erased, holds, distinct, mem⟩ := tryErase_eq h.holds h.distinct value
    refine ⟨_, s', erased, fun _ => ?_, fun other apart => ?_⟩
    · simp [contains_eq holds, mem]
    · simp [contains_eq holds, contains_eq h.holds, mem, apart]

omit [DecidableEq T] in
theorem keeps_init : Keeps [] (init : InplaceSet T n) [] where
  holds := holds_init
  distinct := List.nodup_nil
  mem value := by simp [InsertedSince]

theorem Keeps.step_fresh (h : Keeps history s l) (c : SetCall T)
    (fresh : ∀ value, c = .tryInsert value → s.size = n.value ∨ s.contains value = some false) :
    ∃ history' s' l', step (history, s) c = some (history', s') ∧ Keeps history' s' l' := by
  cases c with
  | tryInsert value =>
    by_cases room : l.length < n.value.toNat
    · have absent : value ∉ l := by
        have := (fresh value rfl).resolve_left fun all => h.holds.size_eq_iff.mp all room
        simpa [contains_eq h.holds] using this
      obtain ⟨s', inserted, holds⟩ := tryInsert_room h.holds value room
      refine ⟨history ++ [(.tryInsert value, true)], s', l ++ [value],
        by simp [step, call, inserted], holds, ?_, fun other => ?_⟩
      · exact h.distinct.append (List.nodup_singleton value) (by simpa using absent)
      · rw [insertedSince_snoc, ← h.mem]
        simp [or_comm, eq_comm]
    · refine ⟨history ++ [(.tryInsert value, false)], s, l,
        by simp [step, call, tryInsert_full h.holds value room], h.holds, h.distinct,
        fun other => ?_⟩
      rw [insertedSince_snoc, ← h.mem]
      simp
  | tryErase value =>
    obtain ⟨s', l', erased, holds, distinct, mem⟩ := tryErase_eq h.holds h.distinct value
    refine ⟨history ++ [(.tryErase value, decide (value ∈ l))], s', l',
      by simp [step, call, erased], holds, distinct, fun other => ?_⟩
    rw [insertedSince_snoc, ← h.mem, mem]
    rcases eq_or_ne other value with rfl | apart
    · simp
    · simp [apart, apart.symm]

/-- No call of the sequence inserts a value that the set contains, but for a full set. -/
def InsertsFresh (n : Capacity) (calls : List (SetCall T)) : Prop :=
  ∀ before value, before ++ [.tryInsert value] <+: calls →
    ∀ history, ∀ s : InplaceSet T n, run before = some (history, s) →
      s.size = n.value ∨ s.contains value = some false

theorem InsertsFresh.keeps {calls : List (SetCall T)} (fresh : InsertsFresh n calls)
    {before : List (SetCall T)} (done : before <+: calls) :
    ∃ history, ∃ s : InplaceSet T n, ∃ l, run before = some (history, s) ∧ Keeps history s l := by
  induction before using List.reverseRecOn with
  | nil => exact ⟨[], init, [], rfl, keeps_init⟩
  | append_singleton before c ih =>
    obtain ⟨history, s, l, reached, keeps⟩ := ih ((List.prefix_append _ _).trans done)
    obtain ⟨history', s', l', stepped, keeps'⟩ := keeps.step_fresh c fun value same =>
      fresh before value (same ▸ done) history s reached
    exact ⟨history', s', l', by rw [run_snoc, reached]; exact stepped, keeps'⟩

/-- The container is a set throughout a sequence of calls exactly if no call inserts a value that it
contains at that point. -/
theorem isSet_iff (n : Capacity) (calls : List (SetCall T)) :
    (∀ before, before <+: calls →
      ∃ history, ∃ s : InplaceSet T n, run before = some (history, s) ∧ IsSet history s) ↔
      InsertsFresh n calls := by
  constructor
  · intro sets before value done history s reached
    by_contra bad
    obtain ⟨_, _, l, reached', holds⟩ := run_holds n before
    obtain ⟨rfl, rfl⟩ := Prod.mk.inj (Option.some.inj (reached.symm.trans reached'))
    rw [not_or, holds.size_eq_iff, not_not, contains_eq holds, Option.some.injEq,
      decide_eq_false_iff_not, not_not] at bad
    obtain ⟨room, present⟩ := bad
    obtain ⟨s', inserted, holds'⟩ := tryInsert_room holds value room
    obtain ⟨_, _, reached', set⟩ := sets _ done
    rw [run_snoc, reached] at reached'
    obtain ⟨rfl, rfl⟩ : _ ∧ s' = _ := by simpa [step, call, inserted] using reached'
    obtain ⟨i, within, rfl⟩ := List.getElem_of_mem present
    have size := holds'.size
    rw [List.length_append, List.length_singleton] at size
    have twice := set.once i (by omega) l.length (by omega) (by
      rw [holds'.fills.slot, holds'.fills.slot, List.getElem?_append_left within]
      simp)
    omega
  · intro fresh before done
    obtain ⟨history, s, l, reached, keeps⟩ := fresh.keeps done
    exact ⟨history, s, reached, keeps.isSet⟩

/-- A value that was inserted twice is still there when it is erased. -/
theorem not_isSet : ∃ history, ∃ s : InplaceSet Nat ⟨2, by decide⟩,
    run [.tryInsert 7, .tryInsert 7] = some (history, s) ∧ s.size = 2 ∧
    (∃ s', s.tryErase 7 = some (true, s') ∧ s'.contains 7 = some true) ∧ ¬ IsSet history s := by
  refine ⟨_, ⟨#v[some 7, some 7], 2⟩, rfl, rfl, ⟨⟨#v[some 7, none], 1⟩, rfl, rfl⟩, fun set => ?_⟩
  exact absurd (set.once 0 (by decide) 1 (by decide) rfl) (by decide)

end Runs

end InplaceSet

end LibCxxExt.Containers
