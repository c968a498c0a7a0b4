import LibCxxExt.ProofKit.Ring
import Mathlib.Data.UInt

/-! `inplace_queue` (`InplaceQueue.h`): a ring of slots with two indices and a flag that tells a
full queue from an empty one. It behaves as a list of bounded length. -/

namespace LibCxxExt.Containers

open LibCxxExt.ProofKit

/-- The template argument `Capacity`, which `requires (Capacity > 0)`. -/
structure Capacity where
  value : UInt64
  positive : 0 < value

/-- A slot is `none` while nothing was stored in it or what was stored is moved from. -/
structure InplaceQueue (T : Type) (n : Capacity) where
  data : Vector (Option T) n.value.toNat
  beginIndex : UInt64
  endIndex : UInt64
  full : Bool

namespace InplaceQueue

variable {T : Type} {n : Capacity}

def init : InplaceQueue T n where
  data := Vector.replicate _ none
  beginIndex := 0
  endIndex := 0
  full := false

/-- `data[i] = …`, within the bounds of the array. -/
def storeAt (q : InplaceQueue T n) (i : UInt64) (slot : Option T) : Option (InplaceQueue T n) :=
  if h : i.toNat < n.value.toNat then some { q with data := q.data.set i.toNat slot h } else none

/-- `data[i]`, which has to hold a value. -/
def readAt (q : InplaceQueue T n) (i : UInt64) : Option T := (q.data[i.toNat]?).join

def size (q : InplaceQueue T n) : UInt64 :=
  if q.full then n.value
  else if q.endIndex ≥ q.beginIndex then q.endIndex - q.beginIndex
  else n.value - q.beginIndex + q.endIndex

def empty (q : InplaceQueue T n) : Bool := q.size == 0

def enqueue (q : InplaceQueue T n) (item : T) : Option (Bool × InplaceQueue T n) :=
  if q.full then some (false, q)
  else do
    let q ← q.storeAt q.endIndex (some item)
    let q := { q with endIndex := (q.endIndex + 1) % n.value }
    return (true, if q.endIndex == q.beginIndex then { q with full := true } else q)

/-- The returned flag, `out` and the queue. -/
def tryDequeue (q : InplaceQueue T n) (out : T) : Option (Bool × T × InplaceQueue T n) :=
  if !q.full && q.beginIndex == q.endIndex then some (false, out, q)
  else do
    let retIdx := q.beginIndex
    let q := { q with beginIndex := (q.beginIndex + 1) % n.value, full := false }
    let out ← q.readAt retIdx
    let q ← q.storeAt retIdx none
    return (true, out, q)

end InplaceQueue

/-! ### Runs -/

inductive QueueCall (T : Type)
  | enqueue (item : T)
  | tryDequeue (out : T)

/-- What a call returns, what it leaves in `out`, and what `size()` and `empty()` report then. -/
structure QueueResult (T : Type) where
  returned : Bool
  out : Option T
  size : Nat
  empty : Bool

namespace InplaceQueue

variable {T : Type} {n : Capacity}

def call (q : InplaceQueue T n) : QueueCall T → Option (QueueResult T × InplaceQueue T n)
  | .enqueue item => do
    let (returned, q) ← q.enqueue item
    return (⟨returned, none, q.size.toNat, q.empty⟩, q)
  | .tryDequeue out => do
    let (returned, out, q) ← q.tryDequeue out
    return (⟨returned, some out, q.size.toNat, q.empty⟩, q)

def run : InplaceQueue T n → List (QueueCall T) → Option (List (QueueResult T))
  | _, [] => some []
  | q, c :: calls => do
    let (result, q) ← q.call c
    return result :: (← run q calls)

end InplaceQueue

/-- A bounded queue: what it holds, oldest first, is a list of at most `n` elements. -/
def fifoCall {T : Type} (n : Nat) (held : List T) : QueueCall T → QueueResult T × List T
  | .enqueue item =>
    if held.length < n then
      (⟨true, none, held.length + 1, false⟩, held ++ [item])
    else (⟨false, none, held.length, held.isEmpty⟩, held)
  | .tryDequeue out =>
    match held with
    | [] => (⟨false, some out, 0, true⟩, [])
    | oldest :: rest => (⟨true, some oldest, rest.length, rest.isEmpty⟩, rest)

def fifoRun {T : Type} (n : Nat) : List T → List (QueueCall T) → List (QueueResult T)
  | _, [] => []
  | held, c :: calls => (fifoCall n held c).1 :: fifoRun n (fifoCall n held c).2 calls

/-! ### The ring holds the list -/

namespace InplaceQueue

variable {T : Type} {n : Capacity} {q : InplaceQueue T n} {held : List T}

def slots (q : InplaceQueue T n) (i : Nat) : Option T := (q.data[i]?).join

/-- The queue holds `held`. Its end is behind the last element, and the flag tells whether the ring
is full. -/
structure Holds (q : InplaceQueue T n) (held : List T) : Prop where
  laidOut : LaidOut q.slots n.value.toNat q.beginIndex.toNat held
  behind : q.endIndex.toNat = (q.beginIndex.toNat + held.length) % n.value.toNat
  full : q.full = true ↔ held.length = n.value.toNat

theorem toNat_next {i : UInt64} (inside : i.toNat < n.value.toNat) :
    ((i + 1) % n.value).toNat = (i.toNat + 1) % n.value.toNat := by
  have below := n.value.toNat_lt
  rw [UInt64.toNat_mod, UInt64.toNat_add]
  simp only [UInt64.reduceToNat]
  rw [Nat.mod_eq_of_lt (a := i.toNat + 1) (by omega)]

theorem positive (n : Capacity) : 0 < n.value.toNat := by
  simpa [UInt64.lt_iff_toNat_lt] using n.positive

theorem holds_init : (init : InplaceQueue T n).Holds [] where
  laidOut := .nil (by simpa [init] using positive n)
  behind := by simp [init]
  full := by
    have := positive n
    simp [init]
    omega

theorem storeAt_eq {i : UInt64} (inside : i.toNat < n.value.toNat) (slot : Option T) :
    ∃ q', q.storeAt i slot = some q' ∧ q'.slots = Function.update q.slots i.toNat slot ∧
      q'.beginIndex = q.beginIndex ∧ q'.endIndex = q.endIndex ∧ q'.full = q.full := by
  refine ⟨_, dif_pos inside, ?_, rfl, rfl, rfl⟩
  funext j
  by_cases here : j = i.toNat
  · subst here
    simp [slots, inside]
  · simp [slots, here, Ne.symm here]

theorem behind_cases (h : q.Holds held) (room : held.length < n.value.toNat) :
    q.endIndex.toNat = q.beginIndex.toNat + held.length ∨
      q.endIndex.toNat + n.value.toNat = q.beginIndex.toNat + held.length ∧
        q.endIndex.toNat < q.beginIndex.toNat := by
  have inside := h.laidOut.inside
  rw [h.behind]
  by_cases around : q.beginIndex.toNat + held.length < n.value.toNat
  · exact .inl (Nat.mod_eq_of_lt around)
  · rw [Nat.mod_eq_sub_mod (by omega), Nat.mod_eq_of_lt (by omega)]
    omega

theorem size_eq (h : q.Holds held) : q.size.toNat = held.length := by
  have inside := h.laidOut.inside
  have fits := h.laidOut.fits
  unfold size
  split_ifs with full ordered
  · exact (h.full.mp full).symm
  · have room := lt_of_le_of_ne fits fun all => full (h.full.mpr all)
    rw [ge_iff_le, UInt64.le_iff_toNat_le] at ordered
    rw [UInt64.toNat_sub_of_le _ _ (UInt64.le_iff_toNat_le.mpr ordered)]
    have := behind_cases h room
    omega
  · have room := lt_of_le_of_ne fits fun all => full (h.full.mpr all)
    rw [ge_iff_le, UInt64.le_iff_toNat_le] at ordered
    have below := n.value.toNat_lt
    have gap := UInt64.toNat_sub_of_le n.value q.beginIndex
      (UInt64.le_iff_toNat_le.mpr inside.le)
    have := behind_cases h room
    rw [UInt64.toNat_add, gap, Nat.mod_eq_of_lt (by omega)]
    omega

theorem empty_eq (h : q.Holds held) : q.empty = held.isEmpty := by
  have size := size_eq h
  rw [empty, Bool.eq_iff_iff, beq_iff_eq, ← UInt64.toNat_inj, size, List.isEmpty_iff,
    UInt64.toNat_zero, List.length_eq_zero_iff]

/-- The test with which `try_dequeue` begins. -/
theorem vacant_iff (h : q.Holds held) :
    (!q.full && q.beginIndex == q.endIndex) = true ↔ held = [] := by
  have meets := h.laidOut.behind_eq_first_iff
  have pos := positive n
  rw [← h.behind] at meets
  rw [Bool.and_eq_true, Bool.not_eq_true', ← Bool.not_eq_true, h.full, beq_iff_eq,
    ← UInt64.toNat_inj, eq_comm (a := q.beginIndex.toNat), meets, ← List.length_eq_zero_iff]
  omega

theorem enqueue_full (h : q.Holds held) (item : T) (all : ¬ held.length < n.value.toNat) :
    q.enqueue item = some (false, q) := by
  have fits := h.laidOut.fits
  exact if_pos (h.full.mpr (by omega))

theorem enqueue_room (h : q.Holds held) (item : T) (room : held.length < n.value.toNat) :
    ∃ q', q.enqueue item = some (true, q') ∧ q'.Holds (held ++ [item]) := by
  have notFull : q.full = false := by
    rw [← Bool.not_eq_true, h.full]
    omega
  have inside : q.endIndex.toNat < n.value.toNat := h.behind ▸ Nat.mod_lt _ (positive n)
  obtain ⟨q', stored, slots, begins, ends, unset⟩ := storeAt_eq inside (some item)
  have laid := h.laidOut.push room item
  rw [← h.behind, ← slots] at laid
  have next : ((q'.endIndex + 1) % n.value).toNat =
      (q'.beginIndex.toNat + (held ++ [item]).length) % n.value.toNat := by
    rw [ends, begins, toNat_next inside, h.behind, Nat.mod_add_mod, List.length_append,
      List.length_singleton, Nat.add_assoc]
  have meets := laid.behind_eq_first_iff
  rw [← begins] at laid meets
  rw [← next, UInt64.toNat_inj, List.length_append, List.length_singleton] at meets
  by_cases all : (q'.endIndex + 1) % n.value = q'.beginIndex
  · refine ⟨{ q' with endIndex := (q'.endIndex + 1) % n.value, full := true }, ?_,
      laid, next, ?_⟩
    · simp [enqueue, notFull, stored, all]
    · have := meets.mp all
      simp
      omega
  · refine ⟨{ q' with endIndex := (q'.endIndex + 1) % n.value }, ?_, laid, next, ?_⟩
    · simp [enqueue, notFull, stored, all]
    · have := mt meets.mpr all
      simp [unset, notFull]
      omega

theorem tryDequeue_vacant (h : q.Holds []) (out : T) :
    q.tryDequeue out = some (false, out, q) :=
  if_pos ((vacant_iff h).mpr rfl)

theorem tryDequeue_cons {oldest : T} (h : q.Holds (oldest :: held)) (out : T) :
    ∃ q', q.tryDequeue out = some (true, oldest, q') ∧ q'.Holds held := by
  have occupied : (!q.full && q.beginIndex == q.endIndex) = false := by
    rw [← Bool.not_eq_true, vacant_iff h]
    simp
  have inside := h.laidOut.inside
  have fits := h.laidOut.fits
  rw [List.length_cons] at fits
  have head : q.readAt q.beginIndex = some oldest := h.laidOut.head
  obtain ⟨q', stored, slots, begins, ends, unset⟩ := storeAt_eq
    (q := { q with beginIndex := (q.beginIndex + 1) % n.value, full := false }) inside none
  have next : q'.beginIndex.toNat = (q.beginIndex.toNat + 1) % n.value.toNat := by
    rw [begins, toNat_next inside]
  refine ⟨q', ?_, ?_, ?_, ?_⟩
  · have read : readAt { q with beginIndex := (q.beginIndex + 1) % n.value, full := false }
        q.beginIndex = some oldest := head
    simp [tryDequeue, occupied, read, stored]
  · rw [slots, next]
    exact h.laidOut.pop none
  · rw [ends, next, Nat.mod_add_mod, Nat.add_assoc, Nat.add_comm 1]
    exact h.behind
  · rw [unset]
    simp
    omega

/-- A call does to the queue what it does to the list. -/
theorem call_eq (h : q.Holds held) (c : QueueCall T) :
    ∃ q', q.call c = some ((fifoCall n.value.toNat held c).1, q') ∧
      q'.Holds (fifoCall n.value.toNat held c).2 := by
  cases c with
  | enqueue item =>
    by_cases room : held.length < n.value.toNat
    · obtain ⟨q', enqueued, holds⟩ := enqueue_room h item room
      have size := size_eq holds
      refine ⟨q', ?_, by rwa [fifoCall, if_pos room]⟩
      rw [List.length_append, List.length_singleton] at size
      simp [call, enqueued, fifoCall, room, size, empty_eq holds]
    · refine ⟨q, ?_, by rwa [fifoCall, if_neg room]⟩
      simp [call, enqueue_full h item room, fifoCall, room, size_eq h, empty_eq h]
  | tryDequeue out =>
    cases held with
    | nil =>
      refine ⟨q, ?_, h⟩
      simp [call, tryDequeue_vacant h, fifoCall, size_eq h, empty_eq h]
    | cons oldest rest =>
      obtain ⟨q', dequeued, holds⟩ := tryDequeue_cons h out
      refine ⟨q', ?_, holds⟩
      simp [call, dequeued, fifoCall, size_eq holds, empty_eq holds]

theorem run_eq (h : q.Holds held) (calls : List (QueueCall T)) :
    q.run calls = some (fifoRun n.value.toNat held calls) := by
  induction calls generalizing q held with
  | nil => rfl
  | cons c calls ih =>
    obtain ⟨q', called, holds⟩ := call_eq h c
    simp [run, called, ih holds, fifoRun]

/-- An `inplace_queue` is a first-in first-out queue of at most `Capacity` elements. -/
theorem run_fifo (n : Capacity) (calls : List (QueueCall T)) :
    (init : InplaceQueue T n).run calls = some (fifoRun n.value.toNat [] calls) :=
  run_eq holds_init calls

end InplaceQueue

end LibCxxExt.Containers
