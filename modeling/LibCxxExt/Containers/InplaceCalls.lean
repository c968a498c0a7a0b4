import LibCxxExt.Containers.InplaceSet
import LibCxxExt.Containers.InplaceVector
import LibCxxExt.ProofKit.Calls
import Mathlib.Data.Multiset.AddSub

/-! What the containers of fixed capacity are for every sequence of calls. `inplace_set` is a bag:
it counts how often a value was inserted. `inplace_vector` is a list, as long as nothing is popped. -/

namespace LibCxxExt.Containers

open LibCxxExt.ProofKit

/-! ### The set -/

/-- A bag of at most so many values. -/
structure Bag (T : Type) (capacity : Nat) where
  values : Multiset T
  fits : values.card ≤ capacity

inductive BagCall (T : Type)
  | tryInsert (value : T)
  | tryErase (value : T)
  | contains (value : T)
  | size

/-- What a call returns. -/
inductive BagReturn
  | bool (b : Bool)
  | size (n : Nat)
deriving DecidableEq

namespace Bag

variable {T : Type} [DecidableEq T] {capacity : Nat}

def empty : Bag T capacity := ⟨0, Nat.zero_le _⟩

def call (bag : Bag T capacity) : BagCall T → BagReturn × Bag T capacity
  | .tryInsert value =>
    if room : bag.values.card < capacity then
      (.bool true, ⟨value ::ₘ bag.values, by rw [Multiset.card_cons]; exact room⟩)
    else (.bool false, bag)
  | .tryErase value => (.bool (value ∈ bag.values), ⟨bag.values.erase value,
      (Multiset.card_le_card (Multiset.erase_le _ _)).trans bag.fits⟩)
  | .contains value => (.bool (value ∈ bag.values), bag)
  | .size => (.size bag.values.card, bag)

def run (capacity : Nat) (calls : List (BagCall T)) : List BagReturn × Bag T capacity :=
  specCalls call empty calls

end Bag

namespace InplaceSet

variable {T : Type} [DecidableEq T] {n : Capacity}

def bagCall (s : InplaceSet T n) : BagCall T → Option (BagReturn × InplaceSet T n)
  | .tryInsert value => (s.tryInsert value).map fun (b, s) => (.bool b, s)
  | .tryErase value => (s.tryErase value).map fun (b, s) => (.bool b, s)
  | .contains value => (s.contains value).map fun b => (.bool b, s)
  | .size => some (.size s.size.toNat, s)

/-- The set holds the values of the bag, in some order. -/
def IsBag (s : InplaceSet T n) (bag : Bag T n.value.toNat) : Prop :=
  ∃ l, s.Holds l ∧ (l : Multiset T) = bag.values

theorem refines_bag : Refines (IsBag (T := T) (n := n)) bagCall Bag.call := by
  intro s bag c is
  obtain ⟨l, holds, same⟩ := is
  have card : bag.values.card = l.length := by rw [← same, Multiset.coe_card]
  have mem (value : T) : value ∈ bag.values ↔ value ∈ l := by rw [← same, Multiset.mem_coe]
  cases c with
  | tryInsert value =>
    by_cases room : l.length < n.value.toNat
    · obtain ⟨s', inserted, holds'⟩ := tryInsert_room holds value room
      refine ⟨s', by simp [bagCall, inserted, Bag.call, card, room], l ++ [value], holds', ?_⟩
      have appended : ((l ++ [value] : List T) : Multiset T) = value ::ₘ (l : Multiset T) :=
        Multiset.coe_eq_coe.mpr (List.perm_append_singleton value l)
      simp [Bag.call, card, room, appended, same]
    · refine ⟨s, by simp [bagCall, tryInsert_full holds value room, Bag.call, card, room],
        l, holds, ?_⟩
      simp [Bag.call, card, room, same]
  | tryErase value =>
    rcases tryErase_cases holds value with
      ⟨absent, erased⟩ | ⟨front, last, k, s', rfl, at_, erased, holds'⟩
    · refine ⟨s, by simp [bagCall, erased, Bag.call, mem, absent], l, holds, ?_⟩
      show (l : Multiset T) = bag.values.erase value
      rw [Multiset.erase_of_notMem ((mem value).not.mpr absent), same]
    · have present := List.mem_of_getElem? at_
      have moved : value ::ₘ ((front.set k last : List T) : Multiset T) = bag.values :=
        (Multiset.coe_eq_coe.mpr (cons_set_perm at_)).trans same
      refine ⟨s', ?_, front.set k last, holds', ?_⟩
      · rw [bagCall, erased, Bag.call, decide_eq_true ((mem value).mpr present)]
        rfl
      · show _ = bag.values.erase value
        rw [← moved, Multiset.erase_cons_head]
  | contains value =>
    exact ⟨s, by simp [bagCall, contains_eq holds, Bag.call, mem], l, holds, same⟩
  | size => exact ⟨s, by simp [bagCall, Bag.call, card, holds.size], l, holds, same⟩

/-- Every sequence of calls on an empty set is defined and returns what it returns on an empty bag,
whose values are those in the slots below the size in the end. -/
theorem calls_on_bag (n : Capacity) (calls : List (BagCall T)) :
    ∃ s : InplaceSet T n,
      runCalls bagCall init calls = some ((Bag.run n.value.toNat calls).1, s) ∧
      (s.stored : Multiset T) = (Bag.run n.value.toNat calls).2.values := by
  have empty : IsBag (init : InplaceSet T n) .empty := ⟨[], holds_init, rfl⟩
  obtain ⟨s, returns, l, holds, same⟩ := refines_bag.run empty calls
  exact ⟨s, returns, by rw [holds.stored_eq, same, Bag.run]⟩

end InplaceSet

/-! ### The vector -/

/-- A list of at most so many values. -/
structure BoundedList (T : Type) (capacity : Nat) where
  values : List T
  fits : values.length ≤ capacity

inductive ListCall (T : Type)
  | pushBack (value : T)
  | clear
  | find (value : T)
  | size
  | empty

inductive ListReturn
  | void
  | bool (b : Bool)
  | size (n : Nat)
  | pointer (index : Option Nat)
deriving DecidableEq

namespace BoundedList

variable {T : Type} [DecidableEq T] {capacity : Nat}

def nil : BoundedList T capacity := ⟨[], Nat.zero_le _⟩

def call (list : BoundedList T capacity) : ListCall T → ListReturn × BoundedList T capacity
  | .pushBack value =>
    if room : list.values.length < capacity then
      (.bool true, ⟨list.values ++ [value], by rw [List.length_append]; exact room⟩)
    else (.bool false, list)
  | .clear => (.void, nil)
  | .find value => (.pointer (list.values.findIdx? (· = value)), list)
  | .size => (.size list.values.length, list)
  | .empty => (.bool list.values.isEmpty, list)

def run (capacity : Nat) (calls : List (ListCall T)) : List ListReturn × BoundedList T capacity :=
  specCalls call nil calls

end BoundedList

namespace InplaceVector

variable {T : Type} [DecidableEq T] {n : Capacity} {v : InplaceVector T n} {l : List (Element T)}
  {log : List (VectorEvent T)}

def listCall : List (VectorEvent T) × InplaceVector T n → ListCall T →
    Option (ListReturn × List (VectorEvent T) × InplaceVector T n)
  | (log, v), .pushBack value => do
    let (pushed, events, v) ← v.pushBack ⟨(pushed log).length, value⟩
    return (.bool pushed, log ++ events, v)
  | (log, v), .clear => do
    let (events, v) ← v.clear
    return (.void, log ++ events, v)
  | (log, v), .find value => do
    let found ← v.find value
    return (.pointer (found.map UInt64.toNat), log, v)
  | (log, v), .size => some (.size v.size.toNat, log, v)
  | (log, v), .empty => some (.bool v.empty, log, v)

theorem Keeps.findLoop (h : Keeps log v l) (value : T) {i : UInt64} {fuel : Nat}
    (low : i.toNat ≤ l.length) (enough : l.length < i.toNat + fuel) :
    ∃ found, v.findLoop value fuel i = some found ∧ found.map UInt64.toNat =
      ((l.drop i.toNat).findIdx? (·.value = value)).map (i.toNat + ·) := by
  induction fuel generalizing i with
  | zero => omega
  | succ fuel ih =>
    have inside : i < v.size ↔ i.toNat < l.length := by rw [UInt64.lt_iff_toNat_lt, h.size]
    rcases Nat.lt_or_ge i.toNat l.length with within | beyond
    · have read : readSlot v.data i.toNat = some l[i.toNat] := by
        rw [h.fills.slot, List.getElem?_eq_getElem within]
      rw [List.drop_eq_getElem_cons within, List.findIdx?_cons]
      by_cases same : l[i.toNat].value = value
      · exact ⟨some i, by simp [InplaceVector.findLoop, inside.mpr within, read, same],
          by simp [same]⟩
      · have next : (i + 1).toNat = i.toNat + 1 := by
          have below := v.size.toNat_lt
          rw [UInt64.toNat_add]
          exact Nat.mod_eq_of_lt (by simp; rw [h.size] at below; omega)
        obtain ⟨found, ran, place⟩ := ih (i := i + 1) (by omega) (by omega)
        refine ⟨found, by simp [InplaceVector.findLoop, inside.mpr within, read, same, ran], ?_⟩
        rw [place, next]
        simp [same, Function.comp_def, Nat.add_assoc, Nat.add_comm 1]
    · exact ⟨none, if_neg (by rw [inside]; omega), by simp [List.drop_of_length_le beyond]⟩

theorem Keeps.find (h : Keeps log v l) (value : T) :
    ∃ found, v.find value = some found ∧
      found.map UInt64.toNat = (l.map Element.value).findIdx? (· = value) := by
  have enough : l.length < (0 : UInt64).toNat + (v.size.toNat + 1) := by simp [h.size]
  obtain ⟨found, ran, place⟩ := h.findLoop value (Nat.zero_le _) enough
  refine ⟨found, ran, place.trans ?_⟩
  simp [List.findIdx?_map, Function.comp_def]

/-- The vector holds elements with the values of the list, and the log explains what is alive. -/
def IsList (object : List (VectorEvent T) × InplaceVector T n)
    (list : BoundedList T n.value.toNat) : Prop :=
  ∃ l, Keeps object.1 object.2 l ∧ l.map Element.value = list.values

theorem refines_list : Refines (IsList (T := T) (n := n)) listCall BoundedList.call := by
  rintro ⟨log, v⟩ list c ⟨l, keeps, same⟩
  have length : list.values.length = l.length := by rw [← same, List.length_map]
  cases c with
  | pushBack value =>
    by_cases room : l.length < n.value.toNat
    · obtain ⟨events, v', pushed, keeps'⟩ := keeps.pushBack_room value room
      refine ⟨(log ++ events, v'), ?_, _, keeps', ?_⟩
      · simp [listCall, pushed, BoundedList.call, length, room]
      · simp [BoundedList.call, length, room, same]
    · refine ⟨(log, v), ?_, l, keeps, ?_⟩
      · simp [listCall, keeps.pushBack_full _ room, BoundedList.call, length, room]
      · simp [BoundedList.call, length, room, same]
  | clear =>
    obtain ⟨events, v', cleared, keeps'⟩ := keeps.clear
    exact ⟨(log ++ events, v'), by simp [listCall, cleared, BoundedList.call], [], keeps', rfl⟩
  | find value =>
    obtain ⟨found, ran, place⟩ := keeps.find value
    exact ⟨(log, v), by simp [listCall, ran, BoundedList.call, place, same], l, keeps, same⟩
  | size =>
    exact ⟨(log, v), by simp [listCall, BoundedList.call, length, keeps.size], l, keeps, same⟩
  | empty =>
    have zero : v.empty = list.values.isEmpty := by
      rw [InplaceVector.empty, Bool.eq_iff_iff, beq_iff_eq, List.isEmpty_iff, ← UInt64.toNat_inj,
        keeps.size, ← List.length_eq_zero_iff, length]
      rfl
    exact ⟨(log, v), by simp [listCall, BoundedList.call, zero], l, keeps, same⟩

/-- Every sequence of calls without a `pop_back` on an empty vector is defined and returns what it
returns on an empty list, whose values are those of the elements in the slots in the end. The
elements that are constructed then are those below the size, and none was destroyed twice. -/
theorem calls_on_list (n : Capacity) (calls : List (ListCall T)) :
    ∃ log, ∃ v : InplaceVector T n,
      runCalls listCall ([], init) calls = some ((BoundedList.run n.value.toNat calls).1, log, v) ∧
      OnlyLive log v ∧ ∀ i, (readSlot v.data i).map Element.value =
        (BoundedList.run n.value.toNat calls).2.values[i]? := by
  have empty : IsList ([], (init : InplaceVector T n)) .nil := ⟨[], keeps_init, rfl⟩
  obtain ⟨⟨log, v⟩, returns, l, keeps, same⟩ := refines_list.run empty calls
  refine ⟨log, v, returns, keeps.onlyLive, fun i => ?_⟩
  rw [keeps.fills.slot, BoundedList.run, ← same, List.getElem?_map]

end InplaceVector

end LibCxxExt.Containers
