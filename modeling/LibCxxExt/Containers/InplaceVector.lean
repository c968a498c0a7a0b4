import LibCxxExt.Containers.InplaceQueue
import LibCxxExt.ProofKit.Ledger
import LibCxxExt.ProofKit.Slots

/-! `inplace_vector` (`InplaceVector.h`): elements are constructed in place in the slots of an array
and destroyed by hand. `pop_back` destroys the slot behind the last element, which holds none, so a
sequence of calls touches only live elements exactly if it never pops from a nonempty vector. -/

namespace LibCxxExt.Containers

open LibCxxExt.ProofKit

/-- An element is told apart from the others by the number of those that were pushed before. -/
structure Element (T : Type) where
  number : Nat
  value : T

inductive VectorEvent (T : Type)
  | construct (slot : Nat) (element : Element T)
  | destroy (slot : Nat) (element : Element T)

/-- A slot is `none` while no element is constructed in it; `size` is `_size`. -/
structure InplaceVector (T : Type) (n : Capacity) where
  data : Vector (Option (Element T)) n.value.toNat
  size : UInt64

inductive VectorCall (T : Type)
  | pushBack (value : T)
  | popBack
  | clear

namespace InplaceVector

variable {T : Type} {n : Capacity}

def init : InplaceVector T n := ⟨Vector.replicate _ none, 0⟩

/-- `data[i].~T()`, which is defined for a constructed element within the array. -/
def destroyAt (v : InplaceVector T n) (i : UInt64) : Option (Element T × InplaceVector T n) := do
  let element ← readSlot v.data i.toNat
  return (element, { v with data := ← writeSlot v.data i.toNat none })

def pushBack (v : InplaceVector T n) (element : Element T) :
    Option (Bool × List (VectorEvent T) × InplaceVector T n) :=
  if v.size ≥ n.value then some (false, [], v)
  else do
    let data ← writeSlot v.data v.size.toNat (some element)
    return (true, [.construct v.size.toNat element], ⟨data, v.size + 1⟩)

/-- The post-decrement yields the size from before as the index. -/
def popBack (v : InplaceVector T n) : Option (List (VectorEvent T) × InplaceVector T n) :=
  if v.size > 0 then do
    let i := v.size
    let (element, v) ← { v with size := v.size - 1 }.destroyAt i
    return ([.destroy i.toNat element], v)
  else some ([], v)

/-- The loop of `clear` at `i`. -/
def clearLoop (v : InplaceVector T n) :
    Nat → UInt64 → Option (List (VectorEvent T) × InplaceVector T n)
  | 0, _ => none
  | fuel + 1, i =>
    if i < v.size then do
      let (element, v) ← v.destroyAt i
      let (events, v) ← v.clearLoop fuel (i + 1)
      return (.destroy i.toNat element :: events, v)
    else some ([], v)

def clear (v : InplaceVector T n) : Option (List (VectorEvent T) × InplaceVector T n) := do
  let (events, v) ← v.clearLoop (v.size.toNat + 1) 0
  return (events, { v with size := 0 })

def empty (v : InplaceVector T n) : Bool :=
  v.size == 0

/-- The loop of `find` at `i`. -/
def findLoop [DecidableEq T] (v : InplaceVector T n) (value : T) :
    Nat → UInt64 → Option (Option UInt64)
  | 0, _ => none
  | fuel + 1, i =>
    if i < v.size then do
      if (← readSlot v.data i.toNat).value = value then return some i
      v.findLoop value fuel (i + 1)
    else some none

/-- The index of the element that `find` points to, or `none` for `nullptr`. -/
def find [DecidableEq T] (v : InplaceVector T n) (value : T) : Option (Option UInt64) :=
  v.findLoop value (v.size.toNat + 1) 0

def pushed (log : List (VectorEvent T)) : List (Element T) :=
  log.filterMap fun
    | .construct _ element => some element
    | .destroy .. => none

def destroyed (log : List (VectorEvent T)) : List (Element T) :=
  log.filterMap fun
    | .construct .. => none
    | .destroy _ element => some element

/-- A call, with the log of the elements constructed and destroyed so far. -/
def step : List (VectorEvent T) × InplaceVector T n → VectorCall T →
    Option (List (VectorEvent T) × InplaceVector T n)
  | (log, v), .pushBack value => do
    let (_, events, v) ← v.pushBack ⟨(pushed log).length, value⟩
    return (log ++ events, v)
  | (log, v), .popBack => do
    let (events, v) ← v.popBack
    return (log ++ events, v)
  | (log, v), .clear => do
    let (events, v) ← v.clear
    return (log ++ events, v)

/-- The calls on an empty vector, unless one of them destroys what is not there. -/
def run (calls : List (VectorCall T)) : Option (List (VectorEvent T) × InplaceVector T n) :=
  calls.foldlM step ([], init)

/-! ### Live elements -/

/-- The pushed elements that were not destroyed, in the order of the pushes. -/
def alive (log : List (VectorEvent T)) : List (Element T) :=
  (pushed log).filter fun element => element.number ∉ (destroyed log).map Element.number

/-- The constructed slots are those below the size, and no element was destroyed twice. -/
structure OnlyLive (log : List (VectorEvent T)) (v : InplaceVector T n) : Prop where
  slots : ∀ i, (readSlot v.data i).isSome ↔ i < v.size.toNat
  once : ((destroyed log).map Element.number).Nodup

/-- Throughout the calls, what is destroyed is a constructed element within the array, the
constructed slots are those below the size, no element is destroyed twice, and `pop_back` destroys
the element pushed last. -/
structure TouchesLive (n : Capacity) (calls : List (VectorCall T)) : Prop where
  live : ∀ before, before <+: calls →
    ∃ log, ∃ v : InplaceVector T n, run before = some (log, v) ∧ OnlyLive log v
  popsLast : ∀ before, before ++ [.popBack] <+: calls →
    ∀ log, ∀ v : InplaceVector T n, run before = some (log, v) → 0 < v.size →
      ∃ slot element v', (alive log).getLast? = some element ∧
        v.popBack = some ([.destroy slot element], v')

/-- No call of the sequence pops from a nonempty vector. -/
def PopsEmpty (n : Capacity) (calls : List (VectorCall T)) : Prop :=
  ∀ before, before ++ [.popBack] <+: calls →
    ∀ log, ∀ v : InplaceVector T n, run before = some (log, v) → v.size = 0

variable {v : InplaceVector T n} {l : List (Element T)} {log : List (VectorEvent T)}

/-- The vector holds `l`, and the ledger of the elements balances. -/
structure Keeps (log : List (VectorEvent T)) (v : InplaceVector T n) (l : List (Element T)) :
    Prop where
  fills : Fills v.data l
  size : v.size.toNat = l.length
  ledger : Ledger (Option.map Element.number ∘ readSlot v.data) (pushed log).length
    ((destroyed log).map Element.number).reverse

theorem Keeps.onlyLive (h : Keeps log v l) : OnlyLive log v where
  slots i := by simp [h.fills.slot, h.size]
  once := List.nodup_reverse.mp h.ledger.once

theorem run_snoc (calls : List (VectorCall T)) (c : VectorCall T) :
    (run (calls ++ [c]) : Option (_ × InplaceVector T n)) = run calls >>= (step · c) := by
  simp [run, List.foldlM_append]

theorem keeps_init : Keeps [] (init : InplaceVector T n) [] where
  fills := .empty
  size := rfl
  ledger := by
    have vacant : Option.map Element.number ∘ readSlot (init : InplaceVector T n).data =
        fun _ => none := funext fun i => by simp [init, readSlot_replicate]
    rw [vacant]
    exact .empty

theorem destroyAt_eq {i : UInt64} {element : Element T}
    (constructed : readSlot v.data i.toNat = some element) :
    ∃ v', v.destroyAt i = some (element, v') ∧
      readSlot v'.data = Function.update (readSlot v.data) i.toNat none ∧ v'.size = v.size := by
  obtain ⟨data, written, reads⟩ := writeSlot_eq _ (lt_of_readSlot constructed) none
  exact ⟨{ v with data }, by simp [destroyAt, constructed, written], reads, rfl⟩

/-- The slot behind the last element holds none. -/
theorem popBack_nonempty (live : OnlyLive log v) (nonempty : v.size ≠ 0) : v.popBack = none := by
  have behind : readSlot v.data v.size.toNat = none := by
    have := (live.slots v.size.toNat).not.mpr (lt_irrefl _)
    simpa using this
  have positive : v.size > 0 := UInt64.pos_iff_ne_zero.mpr nonempty
  simp [popBack, positive, destroyAt, behind]

theorem pushed_append (log events : List (VectorEvent T)) :
    pushed (log ++ events) = pushed log ++ pushed events :=
  List.filterMap_append

theorem destroyed_append (log events : List (VectorEvent T)) :
    destroyed (log ++ events) = destroyed log ++ destroyed events :=
  List.filterMap_append

theorem Keeps.pushBack_room (h : Keeps log v l) (value : T) (room : l.length < n.value.toNat) :
    ∃ events v', v.pushBack ⟨(pushed log).length, value⟩ = some (true, events, v') ∧
      Keeps (log ++ events) v' (l ++ [⟨(pushed log).length, value⟩]) := by
  have below := n.value.toNat_lt
  have notFull : ¬ v.size ≥ n.value := by
    rw [ge_iff_le, UInt64.le_iff_toNat_le, h.size]
    omega
  let element : Element T := ⟨(pushed log).length, value⟩
  obtain ⟨data, written, fills⟩ := h.fills.push room element
  have free : (Option.map Element.number ∘ readSlot v.data) l.length = none := by
    simp [h.fills.slot]
  have ledger := h.ledger.acquire free
  rw [← Option.map_some (f := Element.number) (a := element), ← Function.comp_update,
    ← readSlot_of_writeSlot written] at ledger
  rw [← h.size] at written
  refine ⟨[.construct v.size.toNat element], ⟨data, v.size + 1⟩, ?_, fills, ?_, ?_⟩
  · simp [InplaceVector.pushBack, notFull, written, element]
  · rw [UInt64.toNat_add, h.size, List.length_append, List.length_singleton]
    exact Nat.mod_eq_of_lt (by simp; omega)
  · simpa [pushed_append, destroyed_append, pushed, destroyed] using ledger

theorem Keeps.pushBack_full (h : Keeps log v l) (element : Element T)
    (full : ¬ l.length < n.value.toNat) : v.pushBack element = some (false, [], v) := by
  refine if_pos ?_
  rw [ge_iff_le, UInt64.le_iff_toNat_le, h.size]
  omega

theorem Keeps.pushBack (h : Keeps log v l) (value : T) :
    ∃ returned events v' l', v.pushBack ⟨(pushed log).length, value⟩ = some (returned, events, v') ∧
      Keeps (log ++ events) v' l' := by
  by_cases room : l.length < n.value.toNat
  · obtain ⟨events, v', done, keeps⟩ := h.pushBack_room value room
    exact ⟨true, events, v', _, done, keeps⟩
  · exact ⟨false, [], v, l, h.pushBack_full _ room, by rwa [List.append_nil]⟩

theorem popBack_empty (empty : v.size = 0) : v.popBack = some ([], v) := by
  simp [popBack, empty]

/-- The loop of `clear` has destroyed the elements below `i`. -/
structure Cleared (log : List (VectorEvent T)) (v : InplaceVector T n) (l : List (Element T))
    (i : Nat) : Prop where
  slots : ∀ j, readSlot v.data j = if j < i then none else l[j]?
  size : v.size.toNat = l.length
  ledger : Ledger (Option.map Element.number ∘ readSlot v.data) (pushed log).length
    ((destroyed log).map Element.number).reverse

theorem Cleared.destroy {i : UInt64} (h : Cleared log v l i.toNat) (within : i.toNat < l.length) :
    ∃ v', v.destroyAt i = some (l[i.toNat], v') ∧
      Cleared (log ++ [.destroy i.toNat l[i.toNat]]) v' l (i.toNat + 1) := by
  have constructed : readSlot v.data i.toNat = some l[i.toNat] := by
    rw [h.slots, if_neg (lt_irrefl _), List.getElem?_eq_getElem within]
  obtain ⟨v', done, reads, size⟩ := destroyAt_eq constructed
  refine ⟨v', done, fun j => ?_, by rw [size, h.size], ?_⟩
  · rw [reads, Function.update_apply, h.slots]
    split_ifs <;> first | rfl | omega
  · have ledger := h.ledger.release (a := i.toNat) (i := l[i.toNat].number) (by simp [constructed])
    rw [← Option.map_none (f := Element.number), ← Function.comp_update, ← reads] at ledger
    simpa [pushed_append, destroyed_append, pushed, destroyed] using ledger

theorem Cleared.loop {i : UInt64} {fuel : Nat} (h : Cleared log v l i.toNat)
    (low : i.toNat ≤ l.length) (enough : l.length < i.toNat + fuel) :
    ∃ events v', v.clearLoop fuel i = some (events, v') ∧
      Cleared (log ++ events) v' l l.length := by
  induction fuel generalizing log v i with
  | zero => omega
  | succ fuel ih =>
    have inside : i < v.size ↔ i.toNat < l.length := by rw [UInt64.lt_iff_toNat_lt, h.size]
    rcases Nat.lt_or_ge i.toNat l.length with within | beyond
    · have next : (i + 1).toNat = i.toNat + 1 := by
        have below := v.size.toNat_lt
        rw [UInt64.toNat_add]
        exact Nat.mod_eq_of_lt (by simp; rw [h.size] at below; omega)
      obtain ⟨v', done, cleared⟩ := h.destroy within
      rw [← next] at cleared
      obtain ⟨events, last, rest, cleared⟩ := ih cleared (by omega) (by omega)
      refine ⟨.destroy i.toNat l[i.toNat] :: events, last, ?_, by simpa using cleared⟩
      simp [clearLoop, inside.mpr within, done, rest]
    · obtain same : i.toNat = l.length := by omega
      refine ⟨[], v, if_neg (by rw [inside]; omega), ?_⟩
      rwa [List.append_nil, ← same]

theorem Keeps.clear (h : Keeps log v l) :
    ∃ events v', v.clear = some (events, v') ∧ Keeps (log ++ events) v' [] := by
  have start : Cleared log v l (0 : UInt64).toNat :=
    ⟨fun j => by simp [h.fills.slot], h.size, h.ledger⟩
  have enough : l.length < (0 : UInt64).toNat + (v.size.toNat + 1) := by simp [h.size]
  obtain ⟨events, v', done, cleared⟩ := start.loop (Nat.zero_le _) enough
  have vacant (j : Nat) : readSlot v'.data j = none := by
    rw [cleared.slots]
    split_ifs with below
    · rfl
    · exact List.getElem?_eq_none (by omega)
  refine ⟨events, { v' with size := 0 }, by simp [InplaceVector.clear, done], ⟨Nat.zero_le _, ?_⟩,
    rfl, cleared.ledger⟩
  exact fun j => by simpa using vacant j

theorem Keeps.step (h : Keeps log v l) (c : VectorCall T)
    (empty : c = .popBack → v.size = 0) :
    ∃ log' v' l', step (log, v) c = some (log', v') ∧ Keeps log' v' l' := by
  cases c with
  | pushBack value =>
    obtain ⟨returned, events, v', l', done, keeps⟩ := h.pushBack value
    exact ⟨log ++ events, v', l', by simp [InplaceVector.step, done], keeps⟩
  | popBack =>
    refine ⟨log, v, l, ?_, h⟩
    simp [InplaceVector.step, popBack_empty (empty rfl)]
  | clear =>
    obtain ⟨events, v', done, keeps⟩ := h.clear
    exact ⟨log ++ events, v', [], by simp [InplaceVector.step, done], keeps⟩

theorem PopsEmpty.keeps {calls : List (VectorCall T)} (pops : PopsEmpty n calls)
    {before : List (VectorCall T)} (done : before <+: calls) :
    ∃ log, ∃ v : InplaceVector T n, ∃ l, run before = some (log, v) ∧ Keeps log v l := by
  induction before using List.reverseRecOn with
  | nil => exact ⟨[], init, [], rfl, keeps_init⟩
  | append_singleton before c ih =>
    obtain ⟨log, v, l, reached, keeps⟩ := ih ((List.prefix_append _ _).trans done)
    obtain ⟨log', v', l', stepped, keeps'⟩ := keeps.step c fun same =>
      pops before (same ▸ done) log v reached
    exact ⟨log', v', l', by rw [run_snoc, reached]; exact stepped, keeps'⟩

/-- A sequence of calls touches only live elements exactly if it never pops from a nonempty
vector. -/
theorem touchesLive_iff (n : Capacity) (calls : List (VectorCall T)) :
    TouchesLive n calls ↔ PopsEmpty n calls := by
  constructor
  · intro touches before done log v reached
    by_contra nonempty
    obtain ⟨_, _, reached', live⟩ := touches.live before ((List.prefix_append _ _).trans done)
    obtain ⟨rfl, rfl⟩ := Prod.mk.inj (Option.some.inj (reached.symm.trans reached'))
    obtain ⟨_, _, popped, -⟩ := touches.live _ done
    rw [run_snoc, reached] at popped
    simp [step, popBack_nonempty live nonempty] at popped
  · intro pops
    refine ⟨fun before done => ?_, fun before done log v reached positive => ?_⟩
    · obtain ⟨log, v, l, reached, keeps⟩ := pops.keeps done
      exact ⟨log, v, reached, keeps.onlyLive⟩
    · exact absurd (pops before done log v reached) (UInt64.pos_iff_ne_zero.mp positive)

/-- The element that was just pushed is in the first slot, and `pop_back` destroys the second. -/
theorem not_touchesLive : ∃ log, ∃ v : InplaceVector Nat ⟨2, by decide⟩,
    run [.pushBack 7] = some (log, v) ∧ v.size = 1 ∧ readSlot v.data 0 = some ⟨0, 7⟩ ∧
    readSlot v.data 1 = none ∧ v.popBack = none ∧
    ¬ TouchesLive ⟨2, by decide⟩ [.pushBack 7, .popBack] := by
  refine ⟨_, ⟨#v[some ⟨0, 7⟩, none], 1⟩, rfl, rfl, rfl, rfl, rfl, fun touches => ?_⟩
  obtain ⟨_, _, popped, -⟩ := touches.live [.pushBack 7, .popBack] (List.prefix_refl _)
  exact nomatch popped

end InplaceVector

end LibCxxExt.Containers
